import MutationTesting.Shell.Builtin
import MutationTesting.Tool.Basic
/-!
# Programs that start others

What a program does that takes its own place with another one, in a changed state: one that does
not end when it is left alone, has less right to take its turn, or is in a group of its own.

## Main definitions

* `replaceBy` — another program in the place of this one
* `nohup`, `nice`, `setsid`
-/

namespace MutationTesting.Tool

open Act

variable (table : ProgramTable)

/-- The code that says why a program could not be launched. -/
def launchCode (e : FileError) : Nat := if e = .missing || e = .notDirectory then 127 else 126

/-- Takes the place of the program at work with another one; the code if there is none. -/
def replaceBy (name : Octets) (words : List Octets) (tried : Octets → Octets := quoted) :
    Act Nat := do
  match words with
  | [] => return 0
  | program :: args =>
    let e ← launch table program args
    complain (launchCode e)
      (name ++ octets ": " ++ tried program ++ octets ": " ++ octets e.message)

/-- Starts a program that does not end when it is left alone. -/
def nohup : Program := fun name args => do
  match readOptions [] true args with
  | .error message => misuse name 125 message
  | .ok (_, []) => misuse name 125 (octets "missing operand")
  | .ok (_, words) =>
    change (·.adjustSelf fun p => { p with ignored := 1 :: p.ignored })
    replaceBy table name words fun program => octets "failed to run command " ++ named program

/-- Adjustments that are written as options, as arguments of an option. -/
def withAdjustments : List Octets → List Octets
  | [] => []
  | word :: rest =>
    match word with
    | '-' :: c :: cs =>
      let isAdjustment := c.isDigit || ((c = '-' || c = '+') && cs.head?.any Char.isDigit)
      if isAdjustment then ['-', 'n'] :: (c :: cs) :: withAdjustments rest
      else if word = ['-', 'n'] || word = octets "--adjustment" then
        word :: rest.take 1 ++ withAdjustments (rest.drop 1)
      else if word = ['-', '-'] then word :: rest
      else word :: withAdjustments rest
    | _ => word :: rest
termination_by args => args.length
decreasing_by all_goals simp; try omega

/-- Starts a program that has less right to take its turn. -/
def nice : Program := fun name args => do
  match readOptions [valued 'n' "adjustment"] true (withAdjustments args) with
  | .error message => misuse name 125 message
  | .ok (o, words) =>
    let niceness := (((← look).self?).map (·.niceness)).getD 0
    match (o.last? 'n').map (fun word => (word, intOf? word)), words with
    | some (word, none), _ =>
      complain 125 (name ++ octets ": invalid adjustment " ++ quoted word)
    | some _, [] => misuse name 125 (octets "a command must be given with an adjustment")
    | none, [] => sayAll (Decimal.intText niceness ++ ['\n'])
    | adjustment, words =>
      let more := (adjustment.bind (·.2)).getD 10
      change (·.adjustSelf fun p => { p with niceness := max (-20) (min 19 (niceness + more)) })
      replaceBy table name words

/-- Starts a program in a group of its own. -/
def setsid : Program := fun name args => do
  match readOptions [flag 'f' "fork", flag 'w' "wait", flag 'c' "ctty"] true args with
  | .error message => misuse name 1 message
  | .ok (_, []) => misuse name 1 (octets "no command specified")
  | .ok (o, words) =>
    let apart : Act Nat := do
      let self ← self
      change (·.adjustSelf fun p => { p with group := self })
      if o.has 'c' then
        complain 1 (name ++ octets (": failed to set the controlling terminal: "
          ++ "Inappropriate ioctl for device"))
      else replaceBy table name words fun program => octets "failed to execute " ++ program
    let k ← look
    if o.has 'f' || (k.self?.any fun p => p.group = k.active) then
      let pid ← fork apart
      if o.has 'w' then return Shell.codeOf (← exitOf pid) else return 0
    else apart

end MutationTesting.Tool
