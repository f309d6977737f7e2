import MutationTesting.Tool.Launch
/-!
# Time

The programs `sleep`, which does nothing for a time, and `timeout`, which starts another program and
sends it a signal when a time has passed, and perhaps a last one after that.

## Main definitions

* `Duration`, `Duration.ofText?`
* `sleep`
* `TimeLimit`, `timeout`
-/

namespace MutationTesting.Tool

open Act

/-! ### Durations -/

/-- How long something lasts. -/
inductive Duration where
  | finite (milliseconds : Nat)
  | endless

namespace Duration

/-- One after the other. -/
def add : Duration → Duration → Duration
  | .finite a, .finite b => .finite (a + b)
  | _, _ => .endless

/-- The moment when a time has passed after another moment, if it ever has. -/
def after? (start : Nat) : Duration → Option Nat
  | .finite n => some (start + n)
  | .endless => none

/-- The number of seconds that a unit stands for. -/
def unit? : Octets → Option Nat
  | [] | ['s'] => some 1
  | ['m'] => some 60
  | ['h'] => some 3600
  | ['d'] => some 86400
  | _ => none

/-- A number of seconds with a power of ten, rounded up to milliseconds. -/
def scaled (mantissa : Nat) (power : Int) (unit : Nat) : Duration :=
  if mantissa = 0 then .finite 0
  else if 300 < power then .endless
  else if power < -300 then .finite 1
  else if 0 ≤ power then .finite (mantissa * Nat.pow 10 power.toNat * unit * 1000)
  else
    let scale := Nat.pow 10 (-power).toNat
    .finite ((mantissa * unit * 1000 + scale - 1) / scale)

/-- The duration that a text says: a decimal number of seconds, with an exponent and another unit if
so said. -/
def ofText? (text : Octets) : Option Duration := do
  let text := text.dropWhile fun c => c = ' ' || ('\t' ≤ c && c ≤ '\r')
  let (isNegative, text) := match text with
    | '-' :: rest => (true, rest)
    | '+' :: rest => (false, rest)
    | _ => (false, text)
  let lower := text.map Char.toLower
  let word := if (octets "infinity").isPrefixOf lower then 8
    else if (octets "inf").isPrefixOf lower then 3 else 0
  if word != 0 then
    let _ ← unit? (text.drop word)
    if isNegative then none else some .endless
  else
    let whole := text.takeWhile Char.isDigit
    let rest := text.drop whole.length
    let places := if rest.head? = some '.' then (rest.drop 1).takeWhile Char.isDigit else []
    let rest := if rest.head? = some '.' then rest.drop (places.length + 1) else rest
    let mantissa ← natOf? (whole ++ places)
    let sign := (rest.drop 1).takeWhile fun c => c = '-' || c = '+'
    let digits := (rest.drop (1 + sign.length)).takeWhile Char.isDigit
    let hasPower := (rest.head? = some 'e' || rest.head? = some 'E') && sign.length ≤ 1
      && !digits.isEmpty
    let power := if hasPower then (intOf? (sign ++ digits)).getD 0 else 0
    let unit ← unit? (if hasPower then rest.drop (1 + sign.length + digits.length) else rest)
    if isNegative && mantissa != 0 then none
    else some (scaled mantissa (power - places.length) unit)

end Duration

/-- Does nothing for a time. -/
def sleep : Program := fun name args => do
  withOptions name [] 1 args fun _ times => do
    let fault (time : Octets) : Octets := octets "invalid time interval " ++ quoted time
    match times, times.filter fun time => (Duration.ofText? time).isNone with
    | [], _ => misuse name 1 (octets "missing operand")
    | _, bad@(_ :: _) =>
      misuse name 1 (List.intercalate (octets "\n" ++ name ++ octets ": ") (bad.map fault))
    | times, [] =>
      let now := (← look).clock
      match ((times.filterMap Duration.ofText?).foldl Duration.add (.finite 0)).after? now with
      | none => stall
      | some moment =>
        sleepUntil moment
        return 0

/-! ### Limits -/

/-- What is done about a program that runs too long. -/
structure TimeLimit where
  name : Octets
  program : Octets
  /-- The process and everything in the group are sent the signal, or only the process. -/
  pid : Nat
  isAlone : Bool
  verbose : Bool
  /-- The signal that is sent when the time has passed. -/
  signal : Nat
  /-- When that is, if ever. -/
  moment : Option Nat
  /-- How long it takes until the last signal is sent after that. -/
  respite : Option Duration
  hasPassed : Bool := false

namespace TimeLimit

/-- The limit after a signal is sent on, or the one that is sent when the time has passed. -/
def send (t : TimeLimit) (signal : Nat) : Act TimeLimit := do
  let now := (← look).clock
  let t := match t.respite with
    | some respite =>
      { t with signal := Signal.kill, moment := respite.after? now, respite := none }
    | none => t
  if t.verbose then
    let word := if signal = 0 then "EXIT" else (Signal.name? signal).getD (toString signal)
    let _ ← complain 0 (t.name ++ octets (": sending signal " ++ word ++ " to command ")
      ++ quoted t.program)
  let sendAll (signal : Nat) : Act Unit := do
    let _ ← Act.signal t.pid signal
    if !t.isAlone then
      change (·.adjustSelf fun p => { p with ignored := signal :: p.ignored })
      let _ ← Shell.sendSignal 0 signal
  sendAll signal
  if !t.isAlone && signal != Signal.kill && signal != Signal.resume then sendAll Signal.resume
  return t

/-- Waits until the program has come to its end, its time has passed or a signal has come, and does
what is to be done then. -/
def watch (t : TimeLimit) : Act TimeLimit :=
  iterate (fun (t : TimeLimit) => do
    let self ← self
    let isOver (k : Kernel) : Bool := !(k.process? t.pid).any (·.exit.isNone)
    await (fun k => isOver k || k.hasCaught self) t.moment
    let k ← look
    if isOver k then return .inr t
    match ← access (·.takeCaught self) with
    | some signal => return .inl (← t.send signal)
    | none =>
      if t.moment.any (· ≤ k.clock) then
        return .inl (← { t with moment := none, hasPassed := true }.send t.signal)
      else return .inl t) t

end TimeLimit

/-- Starts a program and sends it a signal after a time. Both are in a group of their own, to which
the signal is sent. -/
def timeout (table : ProgramTable) : Program := fun name args => do
  let forms := [valued 's' "signal", valued 'k' "kill-after", flag 'v' "verbose",
    longFlag 'p' "preserve-status", longFlag 'f' "foreground"]
  let duration (word : Octets) : Except Octets Duration :=
    match Duration.ofText? word with
    | some d => .ok d
    | none => .error (octets "invalid time interval " ++ quoted word)
  let signalOf (word : Octets) : Except Octets Nat :=
    match Signal.numberOfAny? word with
    | some n => .ok n
    | none => .error (quoted word ++ octets ": invalid signal")
  let hint := octets "Try '" ++ name ++ octets " --help' for more information."
  match readOptions forms true args with
  | .error message => misuse name 125 message
  | .ok (o, operands) =>
    let wish : Except Octets (Option Duration × Nat) := do
      let respites ← (o.every 'k').mapM duration
      let signals ← (o.every 's').mapM signalOf
      return (respites.getLast?, signals.getLast?.getD Signal.terminate)
    match wish, operands with
    | .error message, _ => misuse name 125 message
    | .ok _, [] | .ok _, [_] => complain 125 hint
    | .ok (respite, signal), time :: program :: args =>
      match duration time with
      | .error message => misuse name 125 message
      | .ok limit =>
        let self ← self
        if !o.has 'f' then change (·.adjustSelf fun p => { p with group := self })
        let caught := [1, Signal.interrupt, Signal.quit, Signal.terminate, signal]
        change (·.adjustSelf fun p => { p with ignored := p.ignored.filter (!caught.contains ·) })
        let pid ← spawn table program args fun e =>
          complain (launchCode e) (name ++ octets ": failed to run command " ++ quoted program
            ++ octets ": " ++ octets e.message)
        change (·.adjustSelf fun p => { p with caught })
        let isSet : Duration → Bool
          | .finite 0 => false
          | _ => true
        let now := (← look).clock
        let t ← TimeLimit.watch {
          name, program, pid, signal
          isAlone := o.has 'f'
          verbose := o.has 'v'
          moment := if isSet limit then limit.after? now else none
          respite := respite.filter isSet }
        match ← exitOf pid with
        | .code n => return if t.hasPassed && !o.has 'p' then 124 else n
        | .signal n =>
          if !t.hasPassed then finish (.signal n)
          else return if o.has 'p' || n = Signal.kill then 128 + n else 124

end MutationTesting.Tool
