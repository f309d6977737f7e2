import MutationTesting.Decimal.Printed
import MutationTesting.Tool.Basic
/-!
# Printing

The programs that write their arguments: `echo` and `printf`. Shells have programs of these names
built in, which differ in what backslashes mean and in their complaints.

## Main definitions

* `Escapes`, `unescape` — backslashes in texts
* `echoText`, `plainEchoText`
* `Printing`, `printf`
-/

namespace MutationTesting.Tool

open Act

/-! ### Backslashes -/

/-- What a backslash means. -/
structure Escapes where
  /-- Three octal digits may have a zero before them. -/
  hasZero : Bool := false
  /-- There are hexadecimal digits too. -/
  hasHex : Bool := false
  /-- A letter stands for the escape character. -/
  hasEscape : Bool := false
  /-- A letter ends the output. -/
  stops : Bool := false

/-- The character that a letter after a backslash stands for. -/
def escapedChar? : Char → Option Char
  | 'a' => some '\x07'
  | 'b' => some '\x08'
  | 'f' => some '\x0c'
  | 'n' => some '\n'
  | 'r' => some '\r'
  | 't' => some '\t'
  | 'v' => some '\x0b'
  | '\\' => some '\\'
  | _ => none

/-- Octal digits at the beginning of a text, at most so many. -/
def octalDigits (most : Nat) (text : Octets) : Octets :=
  (text.take most).takeWhile fun c => '0' ≤ c && c ≤ '7'

/-- The character whose number has the given digits in a base. -/
def charOfDigits (base : Nat) (digits : Octets) : Char :=
  Char.ofNat ((digits.foldl (fun n c => n * base + (Decimal.hexValue? c).getD 0) 0) % 256)

/-- What a backslash and the text after it mean: a text, and what follows; nothing if the output
ends. -/
def escape? (e : Escapes) (text : Octets) : Option (Octets × Octets) :=
  match text with
  | [] => some (['\\'], [])
  | c :: rest =>
    match escapedChar? c with
    | some c => some ([c], rest)
    | none =>
      if c = 'c' && e.stops then none
      else if e.hasEscape && c = 'e' then some (['\x1b'], rest)
      else if e.hasHex && c = 'x' then
        let digits := (rest.take 2).takeWhile fun d => (Decimal.hexValue? d).isSome
        if digits.isEmpty then some (['\\', c], rest)
        else some ([charOfDigits 16 digits], rest.drop digits.length)
      else
        let text := if e.hasZero && c = '0' && !(octalDigits 1 rest).isEmpty then rest else text
        let digits := octalDigits 3 text
        if digits.isEmpty then some (['\\', c], rest)
        else some ([charOfDigits 8 digits], text.drop digits.length)

/-- A text in which backslashes have a meaning, and whether the output goes on after it. -/
def unescape (e : Escapes) (text : Octets) : Octets × Bool :=
  let rec go : Nat → Octets → Octets → Octets × Bool
    | 0, _, done => (done.reverse, true)
    | _, [], done => (done.reverse, true)
    | n + 1, '\\' :: rest, done =>
      match escape? e rest with
      | none => (done.reverse, false)
      | some (cs, rest) => go n rest (cs.reverse ++ done)
    | n + 1, c :: rest, done => go n rest (c :: done)
  go (text.length + 1) text []

/-! ### Arguments as they are -/

/-- What backslashes mean to the `echo` of a shell. -/
def echoEscapes : Escapes := { hasZero := true, hasEscape := true, stops := true }

/-- The arguments with blanks between them and a line feed after them, but without the latter if
the first argument is `-n`. Backslashes have a meaning. -/
def echoText (args : List Octets) : Octets :=
  let (args, ending) := match args with
    | ['-', 'n'] :: rest => (rest, [])
    | _ => (args, ['\n'])
  let (text, on) := unescape echoEscapes (List.intercalate [' '] args)
  text ++ if on then ending else []

/-- The words at the beginning that are made of the letters of options. -/
def echoOptions : List Octets → Octets × List Octets
  | ('-' :: c :: cs) :: rest =>
    if (c :: cs).all fun c => "neE".toList.contains c then
      let (letters, args) := echoOptions rest
      (c :: cs ++ letters, args)
    else ([], ('-' :: c :: cs) :: rest)
  | args => ([], args)

/-- The arguments with blanks between them and a line feed after them. Backslashes have a meaning
only if that is asked for. -/
def plainEchoText (args : List Octets) : Octets :=
  let (letters, args) := echoOptions args
  let ending := if letters.contains 'n' then [] else ['\n']
  let text := List.intercalate [' '] args
  if (letters.filter fun c => c = 'e' || c = 'E').getLast? = some 'e' then
    let (text, on) := unescape { echoEscapes with hasHex := true } text
    text ++ if on then ending else []
  else text ++ ending

/-! ### Formats -/

/-- How a value is written in a format. -/
structure Directive where
  flags : Octets
  width : Nat
  precision : Option Nat
  conversion : Char

/-- What came of a format so far. -/
structure Printing where
  /-- The `printf` of its own, and not that of a shell. -/
  separate : Bool
  /-- The arguments that are left. -/
  args : List Octets
  /-- What was written, in pieces, the last first. -/
  pieces : List Octets
  /-- What is wrong with the arguments, the last first. -/
  faults : List Octets
  /-- The output has come to an end. -/
  isOver : Bool

namespace Printing

/-- With a text at the end. -/
def add (p : Printing) (text : Octets) : Printing := { p with pieces := text :: p.pieces }

/-- With a fault. -/
def blame (p : Printing) (message : Octets) : Printing := { p with faults := message :: p.faults }

/-- The next argument. -/
def next (p : Printing) : Option Octets × Printing :=
  match p.args with
  | [] => (none, p)
  | a :: rest => (some a, { p with args := rest })

/-- Says that an argument is no number, or has something after one. -/
def blameNumber (p : Printing) (whole rest : Octets) : Printing :=
  if rest.isEmpty then p
  else if rest.length = whole.length then
    p.blame (if p.separate then quoted whole ++ octets ": expected a numeric value"
      else whole ++ octets ": expected numeric value")
  else
    p.blame (if p.separate then quoted whole ++ octets ": value not completely converted"
      else whole ++ octets ": not completely converted")

/-- The number of the character after a quote. -/
def quotedNumber? : Octets → Option Nat
  | '\'' :: rest | '"' :: rest => some ((rest.head?.map (·.toNat)).getD 0)
  | _ => none

/-- The digits of a natural number at the beginning of a text, with its base. -/
def baseAndDigits (text : Octets) : Nat × Octets × Octets :=
  let isIn (base : Nat) (c : Char) : Bool := (Decimal.hexValue? c).any (· < base)
  match text with
  | '0' :: x :: d :: rest =>
    if (x = 'x' || x = 'X') && isIn 16 d then
      let digits := (d :: rest).takeWhile (isIn 16)
      (16, digits, (d :: rest).drop digits.length)
    else
      let digits := text.takeWhile (isIn 8)
      (8, digits, text.drop digits.length)
  | '0' :: _ =>
    let digits := text.takeWhile (isIn 8)
    (8, digits, text.drop digits.length)
  | _ =>
    let digits := text.takeWhile Char.isDigit
    (10, digits, text.drop digits.length)

/-- Says that a number is too large. -/
def blameRange (p : Printing) (isLarge : Bool) (text : Octets) : Printing :=
  if isLarge then
    p.blame ((if p.separate then quoted text else text)
      ++ octets ": Numerical result out of range")
  else p

/-- The integer that an argument is: one with a sign, or one without. -/
def int (signed : Bool) (p : Printing) : Int × Printing :=
  match p.next with
  | (none, p) => (0, p)
  | (some text, p) =>
    match quotedNumber? text with
    | some n => (n, p)
    | none =>
      let trimmed := text.dropWhile fun c => c = ' ' || ('\t' ≤ c && c ≤ '\r')
      let (negative, body) := match trimmed with
        | '-' :: rest => (true, rest)
        | '+' :: rest => (false, rest)
        | _ => (false, trimmed)
      let (base, digits, rest) := baseAndDigits body
      let n := digits.foldl (fun n c => n * base + (Decimal.hexValue? c).getD 0) 0
      let most := Nat.pow 2 64 - 1
      let (n, p) : Int × Printing :=
        if signed then
          let high := if negative then Nat.pow 2 63 else Nat.pow 2 63 - 1
          let size := min n high
          (if negative then -(size : Int) else size, p.blameRange (high < n) text)
        else if most < n then (most, p.blameRange true text)
        else (if negative then -(n : Int) else n, p)
      (n, p.blameNumber text (if digits.isEmpty then text else rest))

/-- The number with a point that an argument is. -/
def real (f : Decimal.Format) (p : Printing) : Decimal.Binary f × Printing :=
  match p.next with
  | (none, p) => (.zero false, p)
  | (some text, p) =>
    match quotedNumber? text with
    | some n => (.ofNat n, p)
    | none =>
      let trimmed := text.dropWhile fun c => c = ' ' || ('\t' ≤ c && c ≤ '\r')
      let (x, rest) := Decimal.Binary.ofText trimmed
      (x, p.blameNumber text (if rest.length = trimmed.length then text else rest))

end Printing

namespace Directive

variable (d : Directive)

/-- A text in its width. -/
def fit (text : Octets) : Octets :=
  let fill := List.replicate (d.width - text.length) ' '
  if d.flags.contains '-' then text ++ fill else fill ++ text

/-- A number in its width, of which zeros may fill the part behind the sign. -/
def fitNumber (zeros : Bool) (front digits : Octets) : Octets :=
  if zeros && d.flags.contains '0' && !d.flags.contains '-' then
    front ++ List.replicate (d.width - front.length - digits.length) '0' ++ digits
  else d.fit (front ++ digits)

/-- The sign of a number. -/
def sign (negative : Bool) : Octets :=
  if negative then ['-']
  else if d.flags.contains '+' then ['+']
  else if d.flags.contains ' ' then [' ']
  else []

/-- Digits, at least as many as the precision says. -/
def atLeast (digits : Octets) : Octets :=
  match d.precision with
  | none => digits
  | some n =>
    if n = 0 && digits = ['0'] then [] else List.replicate (n - digits.length) '0' ++ digits

/-- A number without a point. -/
def intText (n : Int) : Octets :=
  let bits : Nat := (n % (Nat.pow 2 64 : Nat)).toNat
  let alternate := d.flags.contains '#'
  let (front, digits) : Octets × Octets := match d.conversion with
    | 'o' =>
      let digits := d.atLeast (Nat.toDigits 8 bits)
      ([], if alternate && digits.head? != some '0' then '0' :: digits else digits)
    | 'x' => (if alternate && bits != 0 then ['0', 'x'] else [], d.atLeast (Nat.toDigits 16 bits))
    | 'X' =>
      (if alternate && bits != 0 then ['0', 'X'] else [],
        d.atLeast ((Nat.toDigits 16 bits).map Char.toUpper))
    | 'u' => ([], d.atLeast (Decimal.natText bits))
    | _ => (d.sign (n < 0), d.atLeast (Decimal.natText n.natAbs))
  d.fitNumber d.precision.isNone front digits

/-- A number with a point. -/
def realText {f : Decimal.Format} (x : Decimal.Binary f) : Octets :=
  let magnitude : Decimal.Binary f := { x with negative := false }
  let digits := match d.conversion.toLower with
    | 'e' => magnitude.scientific (d.precision.getD 6)
    | 'g' => magnitude.general (d.flags.contains '#') (d.precision.getD 6)
    | _ => magnitude.fixed (d.precision.getD 6)
  let digits := if d.conversion.isUpper then digits.map Char.toUpper else digits
  d.fitNumber (!x.isInfinite) (d.sign x.negative) digits

end Directive

/-- A character that means itself in a script. -/
def isPlainInScript (first : Bool) (c : Char) : Bool :=
  c.isAlphanum || "%+,-./:]_@".toList.contains c || (!first && (c = '#' || c = '~'))

/-- A text as it can be written in a script. -/
def shellQuoted (text : Octets) : Octets :=
  match text with
  | [] => ['\'', '\'']
  | c :: cs =>
    if isPlainInScript true c && cs.all (isPlainInScript false) then text
    else if !text.contains '\'' then quoted text
    else if text.all fun c => c = ' ' || c = '\'' || (c != '@' && isPlainInScript true c) then
      '"' :: text ++ ['"']
    else quoted (text.flatMap fun c => if c = '\'' then ['\'', '\\', '\'', '\''] else [c])

/-- The precision of numbers with a point in the `printf` of its own. -/
def binary80 : Decimal.Format := ⟨63, 15⟩

/-- Writes the next argument as a directive says. -/
def Printing.write (p : Printing) (d : Directive) : Option Printing :=
  let cut (text : Octets) : Octets := match d.precision with
    | some n => text.take n
    | none => text
  match d.conversion with
  | 's' =>
    let (a, p) := p.next
    some (p.add (d.fit (cut (a.getD []))))
  | 'q' =>
    let (a, p) := p.next
    if p.separate then some (p.add (d.fit (cut (shellQuoted (a.getD []))))) else none
  | 'b' =>
    let (a, p) := p.next
    let a := a.getD []
    let (text, on) := unescape { echoEscapes with hasHex := p.separate } a
    let p := p.add (d.fit (cut text))
    some { p with isOver := !on }
  | 'c' =>
    let (a, p) := p.next
    some (p.add (d.fit [(a.getD []).headD (Char.ofNat 0)]))
  | c =>
    if "diouxX".toList.contains c then
      let (n, p) := p.int (c = 'd' || c = 'i')
      some (p.add (d.intText n))
    else if "eEfFgG".toList.contains c then
      if p.separate then
        let (x, p) := p.real binary80
        some (p.add (d.realText x))
      else
        let (x, p) := p.real Decimal.binary64
        some (p.add (d.realText x))
    else none

/-- A number in a format: digits, or the next argument. -/
def Printing.number (p : Printing) (text : Octets) : Option Int × Octets × Printing :=
  match text with
  | '*' :: rest =>
    let (n, p) := p.int true
    (some n, rest, p)
  | _ =>
    let digits := text.takeWhile Char.isDigit
    ((natOf? digits).map fun n => (n : Int), text.drop digits.length, p)

/-- The directive after a percent sign, the text after it, and the arguments after those that it
took its width from. -/
def Printing.directive (p : Printing) (text : Octets) : Option (Directive × Octets) × Printing :=
  let flags := text.takeWhile fun c => "-0+ #".toList.contains c
  let (width, text, p) := p.number (text.drop flags.length)
  let flags := if width.any (· < 0) then '-' :: flags else flags
  let (precision, text, p) : Option Nat × Octets × Printing := match text with
    | '.' :: rest =>
      let (n, rest, p) := p.number rest
      (if n.any (· < 0) then none else some ((n.getD 0).toNat), rest, p)
    | _ => (none, text, p)
  let text := if p.separate then text.dropWhile fun c => "hlLjzt".toList.contains c else text
  match text with
  | c :: rest => (some (⟨flags, ((width.getD 0).natAbs), precision, c⟩, rest), p)
  | [] => (none, p)

/-- Goes through a format once. It is given up at a directive that there is not. The first argument
is above the length of the format. -/
def Printing.fill : Nat → Octets → Printing → Except (Octets × Printing) Printing
  | 0, _, p => .ok p
  | _, [], p => .ok p
  | n + 1, '%' :: '%' :: rest, p => fill n rest (p.add ['%'])
  | n + 1, '%' :: rest, p =>
    match p.directive rest with
    | (none, p) =>
      .error (if p.separate then octets "%: invalid conversion specification"
        else octets "missing format character", p)
    | (some (d, after), p) =>
      match p.write d with
      | none =>
        let shown := '%' :: rest.take (rest.length - after.length)
        .error (shown ++ octets (if p.separate then ": invalid conversion specification"
          else ": invalid directive"), p)
      | some p => if p.isOver then .ok p else fill n after p
  | n + 1, '\\' :: rest, p =>
    match escape? { hasHex := p.separate, hasEscape := true, stops := p.separate } rest with
    | none => .ok { p with isOver := true }
    | some (['\\', '"'], rest) => fill n rest (p.add (if p.separate then ['"'] else ['\\', '"']))
    | some (cs, rest) => fill n rest (p.add cs)
  | n + 1, text, p =>
    let plain := text.takeWhile fun c => c != '%' && c != '\\'
    fill n (text.drop plain.length) (p.add plain)

/-- Goes through a format as long as there are arguments and it takes some. -/
def Printing.fillAll (format : Octets) : Nat → Printing → Except (Octets × Printing) Printing
  | 0, p => .ok p
  | n + 1, p => do
    let before := p.args.length
    let p ← p.fill (format.length + 1) format
    if p.isOver || p.args.isEmpty || p.args.length = before then return p
    else fillAll format n p

/-- Writes arguments in a format: what to write, what to complain about, and the code. -/
def printf (separate : Bool) (format : Octets) (args : List Octets) :
    Octets × List Octets × Nat :=
  let report (p : Printing) (faults : List Octets) : Octets × List Octets × Nat :=
    (p.pieces.reverse.flatten, faults.reverse, if faults.isEmpty then 0 else 1)
  match (Printing.mk separate args [] [] false).fillAll format (args.length + 1) with
  | .ok p =>
    if separate && !p.args.isEmpty && !p.isOver && p.args.length = args.length then
      let (text, faults, code) := report p p.faults
      (text, faults ++ [octets "warning: ignoring excess arguments, starting with "
        ++ quoted (p.args.headD [])], code)
    else report p p.faults
  | .error (message, p) =>
    let (text, faults, code) := report p (message :: p.faults)
    (text, faults, if separate then code else 2)

/-- The program that writes its arguments in a format. -/
def printfProgram : Program := fun name args => do
  let args := if args.head? = some ['-', '-'] then args.drop 1 else args
  match args with
  | [] => misuse name 1 (octets "missing operand")
  | format :: args => do
    let (text, faults, code) := printf true format args
    say text
    faults.forM fun fault => put 2 (name ++ octets ": " ++ fault ++ ['\n'])
    return code

end MutationTesting.Tool
