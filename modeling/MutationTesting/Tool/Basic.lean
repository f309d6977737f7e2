import MutationTesting.Decimal.Digits
import MutationTesting.Machine.Program
import MutationTesting.Text.Octets
/-!
# Tools: options and inputs

Programs read options from their arguments: letters after a hyphen, several of them in one word, or
long names after two hyphens, which can be cut short as long as they stay unique. An option can have
an argument. Two hyphens alone end the options. What is no option is an operand.

## Main definitions

* `OptionForm`, `Options`, `readOptions`, `withOptions`
* `eachInput` — the contents of files, or of the input
-/

namespace MutationTesting.Tool

open Act

/-- The characters of a text. -/
def octets (text : String) : Octets := text.toList

/-- A text between quotes, as messages show it. -/
def quoted (text : Octets) : Octets := Quote.inMessage text

/-- The name of a file between quotes. -/
def named (path : Octets) : Octets := Quote.inShell path

/-- The name of a file at the beginning of a message, between quotes if it has to be. -/
def plain (path : Octets) : Octets := Quote.beforeColon path

/-! ### Options -/

/-- Whether an option has an argument. -/
inductive ArgumentNeed where
  | never
  /-- It has one if it stands in the same word. -/
  | attached
  | always

/-- How an option is written. -/
structure OptionForm where
  /-- The letter of the option, or what stands for it if it has none. -/
  key : Char
  long : String
  argument : ArgumentNeed
  /-- The key is a letter with which the option can be written. -/
  isLetter : Bool

/-- An option without an argument. -/
def flag (key : Char) (long : String := "") : OptionForm := ⟨key, long, .never, true⟩

/-- An option with an argument. -/
def valued (key : Char) (long : String := "") : OptionForm := ⟨key, long, .always, true⟩

/-- An option that can have an argument. -/
def extended (key : Char) (long : String := "") : OptionForm := ⟨key, long, .attached, true⟩

/-- An option without an argument that has only a long name. -/
def longFlag (key : Char) (long : String) : OptionForm := ⟨key, long, .never, false⟩

/-- An option with an argument that has only a long name. -/
def longValued (key : Char) (long : String) : OptionForm := ⟨key, long, .always, false⟩

/-- An option that can have an argument and has only a long name. -/
def longExtended (key : Char) (long : String) : OptionForm := ⟨key, long, .attached, false⟩

/-- The options that were given, with their arguments, in their order. -/
abbrev Options := List (Char × Octets)

namespace Options

/-- An option was given. -/
def has (o : Options) (key : Char) : Bool := o.any (·.1 = key)

/-- The argument of an option; the last one counts. -/
def last? (o : Options) (key : Char) : Option Octets :=
  ((o.filter (·.1 = key)).getLast?).map (·.2)

/-- All arguments of an option. -/
def every (o : Options) (key : Char) : List Octets := (o.filter (·.1 = key)).map (·.2)

/-- Which of several options was given last. -/
def latest? (o : Options) (keys : List Char) : Option Char :=
  ((o.filter fun e => keys.contains e.1).getLast?).map (·.1)

end Options

/-- Options and operands, or what is wrong. -/
abbrev OptionsRead := Except Octets (Options × List Octets)

/-- An option or an operand before others. -/
def OptionsRead.before (option : Option (Char × Octets)) (operand : Option Octets)
    (rest : OptionsRead) : OptionsRead :=
  rest.map fun (options, operands) => (option.toList ++ options, operand.toList ++ operands)

/-- The options that letters mean. If the argument of the last one is missing it is the next word.
-/
def letterOptions (forms : List OptionForm) (next : Option Octets) :
    Octets → Except Octets (Options × Bool)
  | [] => .ok ([], false)
  | c :: rest =>
    match forms.find? fun f => f.isLetter && f.key = c with
    | none => .error (octets "invalid option -- '" ++ [c, '\''])
    | some f =>
      match f.argument, rest, next with
      | .never, _, _ =>
        (letterOptions forms next rest).map fun (options, used) => ((c, []) :: options, used)
      | .always, [], some argument => .ok ([(c, argument)], true)
      | .always, [], none => .error (octets "option requires an argument -- '" ++ [c, '\''])
      | _, argument, _ => .ok ([(c, argument)], false)

/-- The option that a long name means, and whether its argument is the next word. -/
def longOption (forms : List OptionForm) (next : Option Octets) (text : Octets) :
    Except Octets ((Char × Octets) × Bool) :=
  let name := text.takeWhile (· != '=')
  let value := if name.length = text.length then none else some (text.drop (name.length + 1))
  let shown := octets "'--" ++ name ++ ['\'']
  let found : List OptionForm := match forms.filter fun f => f.long.toList = name with
    | [] => forms.filter fun f => !f.long.isEmpty && name.isPrefixOf f.long.toList
    | exact => exact
  match found.map (·.key) |>.eraseDups, found with
  | [_], f :: _ =>
    match f.argument, value, next with
    | .never, some _, _ =>
      .error (octets "option '--" ++ f.long.toList ++ octets "' doesn't allow an argument")
    | _, some v, _ => .ok ((f.key, v), false)
    | .always, none, some v => .ok ((f.key, v), true)
    | .always, none, none =>
      .error (octets "option '--" ++ f.long.toList ++ octets "' requires an argument")
    | _, none, _ => .ok ((f.key, []), false)
  | _ :: _ :: _, _ =>
    .error (octets "option " ++ shown ++ octets " is ambiguous; possibilities:"
      ++ (found.map (·.long) |>.mergeSort fun a b => a ≤ b).flatMap fun long =>
        octets (" '--" ++ long ++ "'"))
  | _, _ => .error (octets "unrecognized option " ++ '\'' :: '-' :: '-' :: text ++ ['\''])

/-- Reads options and operands. If operands end the options, nothing after the first one is an
option. The first argument is at least the number of words. -/
def readWords (forms : List OptionForm) (operandsEnd : Bool) : Nat → List Octets → OptionsRead
  | 0, _ | _, [] => .ok ([], [])
  | _, ['-', '-'] :: rest => .ok ([], rest)
  | n + 1, ('-' :: '-' :: text) :: rest => do
    let (option, used) ← longOption forms rest.head? text
    OptionsRead.before (some option) none
      (readWords forms operandsEnd n (if used then rest.drop 1 else rest))
  | n + 1, ('-' :: c :: cs) :: rest => do
    let (options, used) ← letterOptions forms rest.head? (c :: cs)
    let (more, operands) ← readWords forms operandsEnd n (if used then rest.drop 1 else rest)
    return (options ++ more, operands)
  | n + 1, word :: rest =>
    if operandsEnd then .ok ([], word :: rest)
    else OptionsRead.before none (some word) (readWords forms operandsEnd n rest)

/-- Reads options and operands. -/
def readOptions (forms : List OptionForm) (operandsEnd : Bool) (args : List Octets) : OptionsRead :=
  readWords forms operandsEnd (args.length + 1) args

/-- The end of a program that was called in a wrong way. -/
def misuse (name : Octets) (code : Nat) (message : Octets) : Act Nat :=
  complain code (name ++ octets ": " ++ message ++ octets "\nTry '" ++ name
    ++ octets " --help' for more information.")

/-- Does something with options and operands; a wrong option ends the program with a code. -/
def withOptions (name : Octets) (forms : List OptionForm) (code : Nat) (args : List Octets)
    (act : Options → List Octets → Act Nat) : Act Nat :=
  match readOptions forms false args with
  | .error message => misuse name code message
  | .ok (options, operands) => act options operands

/-- Which of several choices an argument names, each of which has some names; they can be cut short
as long as they mean one choice. The place of the choice, or what is wrong with the argument. -/
def chosen (option : String) (choices : List (List String)) (word : Octets) : Except Octets Nat :=
  let places (p : List Char → Bool) : List Nat :=
    (choices.zipIdx.filter fun (names, _) => names.any fun name => p name.toList).map (·.2)
  let lines := choices.flatMap fun names =>
    octets ("\n  - " ++ ", ".intercalate (names.map fun name => "'" ++ name ++ "'"))
  let fault (what : String) : Octets :=
    octets (what ++ " argument ") ++ quoted word ++ octets (" for '" ++ option
      ++ "'\nValid arguments are:") ++ lines
  match places (· = word), places (word.isPrefixOf ·) with
  | n :: _, _ => .ok n
  | [], [n] => .ok n
  | [], [] => .error (fault "invalid")
  | [], _ => .error (fault "ambiguous")

/-! ### Numbers -/

/-- The natural number that decimal digits are. -/
def natOf? (text : Octets) : Option Nat :=
  if text.isEmpty then none else (text.mapM Decimal.digitValue?).map Decimal.ofDigits

/-- The integer that decimal digits after a sign are. -/
def intOf? (text : Octets) : Option Int :=
  match text with
  | '-' :: digits => (natOf? digits).map fun n => -(n : Int)
  | '+' :: digits => (natOf? digits).map fun n => (n : Int)
  | digits => (natOf? digits).map fun n => (n : Int)

/-- A whole number within limits, or what is wrong with it. -/
def wholeNumber (what : String) (low high : Int) (word : Octets) : Except Octets Int :=
  let fault (why : String) : Octets := octets (what ++ ": ") ++ quoted word ++ octets why
  match intOf? (word.dropWhile fun c => c = ' ' || c = '\t') with
  | none => .error (fault "")
  | some n =>
    if low ≤ n && n ≤ high then .ok n
    else if 0 ≤ low && word.contains '-' then .error (fault "")
    else if n.natAbs ≤ 1073741823 then .error (fault ": Numerical result out of range")
    else .error (fault ": Value too large for defined data type")

/-- Factors that can be written after a number. -/
def factors : List (String × Nat) :=
  [("", 1), ("c", 1), ("w", 2), ("b", 512), ("kB", 1000), ("k", 1024), ("K", 1024),
    ("KiB", 1024), ("MB", 1000000), ("M", 1048576), ("MiB", 1048576), ("GB", 1000000000),
    ("G", 1073741824), ("GiB", 1073741824)]

/-- A number of bytes, possibly with a factor. -/
def sizeOf? (text : Octets) : Option Nat := do
  let digits := text.takeWhile Char.isDigit
  let n ← natOf? digits
  let factor ← factors.lookup (String.ofList (text.drop digits.length))
  return n * factor

/-! ### Inputs -/

/-- A complaint about a file. -/
def complainOf (name path : Octets) (e : FileError) : Act Nat :=
  complain 1 (name ++ octets ": " ++ path ++ octets ": " ++ octets e.message)

/-- The operands, or the input if there are none. -/
def pathsOrInput (paths : List Octets) : List Octets := if paths.isEmpty then [['-']] else paths

/-- The content of a file, or of the input if the path is a hyphen. -/
def inputContent (path : Octets) : Act (Except FileError Bytes) :=
  if path = ['-'] then readAll 0 else contentOf path

/-- The file was there, and something was wrong when it was read. -/
def isReadFault (e : FileError) : Bool := e = .isDirectory || e = .badDescriptor

/-- A path leads through what is no directory. -/
def isThroughFile {α : Type} : Except FileError α → Bool
  | .error .notDirectory => true
  | _ => false

/-- How a program names a file with which something was wrong. -/
abbrev Blame := Octets → FileError → Octets

/-- A file is named by its path. -/
def plainBlame : Blame := fun path _ => plain path

/-- Does something with the content of each file in turn. What cannot be read is complained about
by a program, in its own words if it has any; the code is the highest one. -/
def eachInput (name : Octets) (act : Octets → Bytes → Act Nat) (paths : List Octets)
    (blame : Blame := plainBlame) : Act Nat :=
  go paths
where
  /-- The same for the files that are left. -/
  go : List Octets → Act Nat
    | [] => return 0
    | path :: rest => do
      let code ← match ← inputContent path with
        | .ok content => act path content
        | .error e => complainOf name (blame path e) e
      let later ← go rest
      return max code later

/-- The pieces of a text that end with a character, without it; what stands after the last one is a
piece unless it is empty. -/
def piecesOf (ending : Char) (text : Octets) : List Octets :=
  let rec go (piece : Octets) : Octets → List Octets
    | [] => if piece.isEmpty then [] else [piece.reverse]
    | c :: rest => if c = ending then piece.reverse :: go [] rest else go (c :: piece) rest
  go [] text

/-- The lines of a text, without line feeds; what stands after the last line feed is a line unless
it is empty. -/
def linesOf (text : Octets) : List Octets := piecesOf '\n' text

/-- Lines with line feeds. -/
def ofLines (lines : List Octets) : Octets := lines.flatMap (· ++ ['\n'])

/-- Writes to the output; the exit code. -/
def sayAll (text : Octets) : Act Nat := do
  say text
  return 0

/-- Does something with each operand in turn; the highest code. -/
def eachOperand (act : Octets → Act Nat) : List Octets → Act Nat
  | [] => return 0
  | word :: rest => do
    let code ← act word
    let later ← eachOperand act rest
    return max code later

end MutationTesting.Tool
