import MutationTesting.Text.Glob
import MutationTesting.Text.Pattern
import MutationTesting.Tool.Describe
/-!
# Conditions on files

The conditions with which files are searched for, and the words in which they are written. Each word
with its arguments is a test, an action or an operator; operators are a negation, a conjunction,
which can be left out, a disjunction and a sequence, from those that bind tightly to those that do
not.

What is wrong with a word is found before what is wrong with the order of the words.

## Main definitions

* `FindCondition` — what is asked about a file
* `FindToken.ofWords` — tests, actions and operators
* `FindCondition.ofTokens` — the condition that they are
* `FindLimits.ofWords` — what applies to the whole search
-/

namespace MutationTesting.Tool

open Act

/-- How programs are started for what is found. -/
inductive ExecManner where
  /-- For each file. -/
  | each
  /-- For all files at once. -/
  | together
  /-- For each file, if someone who is asked agrees. -/
  | asking
  /-- For each file, in its directory. -/
  | inPlace
  deriving DecidableEq

/-- What is asked about something that was found. -/
inductive FindCondition where
  | name (g : Glob) (caseless : Bool)
  | path (g : Glob) (caseless : Bool)
  | regex (p : Pattern) (caseless : Bool)
  | target (g : Glob) (caseless : Bool)
  | form (letters : Octets)
  /-- The form of what a link leads to, or the other way round. -/
  | otherForm (letters : Octets)
  /-- A size in blocks of so many bytes: exactly, more or less. -/
  | size (sign : Option Char) (n block : Nat)
  | empty
  | newer (time : Int)
  /-- How many units of time have passed since the latest change: exactly, more or less. In days the
  last one counts only if it is full. -/
  | aged (sign : Option Char) (n unit : Nat) (wholeUnits : Bool)
  | mode (sign : Option Char) (bits : Nat)
  | number (sign : Option Char) (n : Nat)
  | names (sign : Option Char) (n : Nat)
  | constant (b : Bool)
  | print (ending : Char)
  | printf (format : Octets)
  | list
  | exec (words : List Octets) (manner : ExecManner)
  | delete
  | prune
  | quit
  | not (a : FindCondition)
  | both (a b : FindCondition)
  | either (a b : FindCondition)
  | second (a b : FindCondition)

/-- A test or an action, or what stands between them, with its word. -/
inductive FindToken where
  | test (c : FindCondition)
  | negation (word : Octets)
  | conjunction (word : Octets)
  | disjunction (word : Octets)
  | comma
  | opening
  | closing

/-- What applies to the whole search. -/
structure FindLimits where
  least : Nat
  most : Option Nat
  /-- Directories come after what is in them. -/
  depthFirst : Bool
  /-- Something is done, so that paths need not be shown by themselves. -/
  acts : Bool

namespace FindToken

/-- A number with a sign. -/
def signed (text : Octets) : Option Char × Octets :=
  match text with
  | '+' :: rest => (some '+', rest)
  | '-' :: rest => (some '-', rest)
  | _ => (none, text)

/-- The ways in which patterns can be written, and whether these are the extended ones. -/
def writings : List (String × Bool) := [("findutils-default", false), ("ed", false),
  ("emacs", false), ("gnu-awk", true), ("grep", false), ("posix-awk", true), ("awk", true),
  ("posix-basic", false), ("posix-egrep", true), ("egrep", true), ("posix-extended", true),
  ("posix-minimal-basic", false), ("sed", false)]

/-- A pattern in which some operators are written without backslashes, with them. -/
def withBackslashes : Octets → Octets
  | '\\' :: c :: rest =>
    if c = '+' || c = '?' then c :: withBackslashes rest else '\\' :: c :: withBackslashes rest
  | c :: rest =>
    if c = '+' || c = '?' then '\\' :: c :: withBackslashes rest else c :: withBackslashes rest
  | [] => []

/-- The pattern of whole paths that a text is, in a way of writing. -/
def pathPattern (writing text : Octets) : Except Octets Pattern :=
  let extended := (writings.lookup (String.ofList writing)).getD false
  let plain := writing = octets "findutils-default" || writing = octets "emacs"
  match Pattern.ofText? ⟨extended, false, false⟩ (if plain then withBackslashes text else text) with
  | .ok p => .ok p.wholeLine
  | .error message => .error (octets message)

/-- The letters of forms, which are parted by commas. -/
def formLetters (word text : Octets) : Except Octets Octets :=
  let go : Octets → Except Octets Octets := fun text =>
    let rec each : Octets → Except Octets Octets
      | [] => .ok []
      | [','] => .error (octets "Last file type in list argument to " ++ word
          ++ octets " is missing, i.e., list is ending on: ','")
      | c :: rest =>
        if !(octets "bcdpflsD").contains c then
          .error (octets "Unknown argument to " ++ word ++ octets ": " ++ [c])
        else
          match rest with
          | [] => .ok [c]
          | [','] => .error (octets "Last file type in list argument to " ++ word
              ++ octets " is missing, i.e., list is ending on: ','")
          | ',' :: rest => (each rest).map (c :: ·)
          | _ => .error (octets "Must separate multiple arguments to " ++ word
              ++ octets " using: ','")
    each text
  if text.isEmpty then
    .error (octets "Arguments to " ++ word ++ octets " should contain at least one letter")
  else go text

/-- A size with a unit. -/
def sizeTest (word text : Octets) : Except Octets FindCondition :=
  let (sign, text) := signed text
  let digits := text.takeWhile Char.isDigit
  let unit := text.drop digits.length
  let units : List (Octets × Nat) := [([], 512), (['b'], 512), (['c'], 1), (['w'], 2),
    (['k'], 1024), (['M'], 1048576), (['G'], 1073741824)]
  match units.lookup unit, natOf? digits with
  | some block, some n => .ok (.size sign n block)
  | none, _ => .error (octets "invalid " ++ word ++ octets " type `" ++ unit ++ ['\''])
  | some _, none => .error (octets "Invalid argument `" ++ text ++ octets "' to " ++ word)

/-- What is wrong with an argument. -/
def badArgument (word argument : Octets) : Octets :=
  octets "invalid argument `" ++ argument ++ octets "' to `" ++ word ++ ['\'']

/-- A number that is compared. -/
def numberTest (word text : Octets) (make : Option Char → Nat → FindCondition) :
    Except Octets FindCondition :=
  let (sign, digits) := signed text
  match natOf? digits with
  | some n => .ok (make sign n)
  | none => .error (badArgument word text)

/-- The words of a program and those after it: a semicolon ends them, or a plus after the mark of
the path. -/
def execWords : List Octets → Option (List Octets × Bool × List Octets)
  | [] => none
  | [';'] :: rest => some ([], false, rest)
  | ['{', '}'] :: ['+'] :: rest => some ([['{', '}']], true, rest)
  | word :: rest =>
    (execWords rest).map fun (words, together, rest) => (word :: words, together, rest)

/-- The program that is to be started. -/
def execTest (word : Octets) (manner : ExecManner) (rest : List Octets) :
    Except Octets (FindCondition × List Octets) :=
  match execWords rest with
  | none => .error (octets "missing argument to `" ++ word ++ ['\''])
  | some ([], _, _) => .error (badArgument word [';'])
  | some (words, true, rest) =>
    if 1 < (words.filter (· = ['{', '}'])).length then
      .error (octets "Only one instance of \x7b\x7d is supported with " ++ word ++ octets " ... +")
    else .ok (.exec words .together, rest)
  | some (words, false, rest) => .ok (.exec words manner, rest)

variable (k : Kernel)

/-- The time of what a path leads to. -/
def timeOf (path : Octets) : Except Octets Int :=
  match k.files.find .follow k.here path with
  | .ok n => .ok (((k.files.node? n).map (·.time)).getD 0)
  | .error e => .error (quoted path ++ octets ": " ++ octets e.message)

/-- The test or action that words begin with, and the words after it. Patterns are written in the
given way. -/
def single (writing : Octets) : List Octets → Except Octets (FindCondition × List Octets)
  | [] => .error (octets "expected an expression")
  | word :: rest =>
    let argument (make : Octets → Except Octets FindCondition) :
        Except Octets (FindCondition × List Octets) :=
      match rest with
      | a :: rest => (make a).map (·, rest)
      | [] => .error (octets "missing argument to `" ++ word ++ ['\''])
    let small (text : Octets) : Octets := text.map Char.toLower
    let depthTest (a : Octets) : Except Octets FindCondition :=
      match natOf? a with
      | some _ => .ok (.constant true)
      | none => .error (octets "Expected a positive decimal integer argument to " ++ word
          ++ octets ", but got " ++ quoted a)
    let owner (kind : String) (a : Octets) : Except Octets FindCondition :=
      if a = octets "root" || a = ['0'] then .ok (.constant true)
      else if (natOf? a).isSome then .ok (.constant false)
      else .error (quoted a ++ octets " is not the name of " ++ octets kind)
    match String.ofList word with
    | "-name" => argument fun a => .ok (.name (Glob.ofText a) false)
    | "-iname" => argument fun a => .ok (.name (Glob.ofText (small a)) true)
    | "-path" | "-wholename" => argument fun a => .ok (.path (Glob.ofText a) false)
    | "-ipath" | "-iwholename" => argument fun a => .ok (.path (Glob.ofText (small a)) true)
    | "-lname" => argument fun a => .ok (.target (Glob.ofText a) false)
    | "-ilname" => argument fun a => .ok (.target (Glob.ofText (small a)) true)
    | "-regex" => argument fun a => (pathPattern writing a).map (.regex · false)
    | "-iregex" => argument fun a => (pathPattern writing (small a)).map (.regex · true)
    | "-regextype" => argument fun a =>
      if (writings.lookup (String.ofList a)).isSome then .ok (.constant true)
      else
        let names := List.intercalate (octets ", ") (writings.map fun w => quoted (octets w.1))
        .error (octets "Unknown regular expression type " ++ quoted a
          ++ octets "; valid types are " ++ names ++ ['.'])
    | "-type" => argument fun a => (formLetters word a).map .form
    | "-xtype" => argument fun a => (formLetters word a).map .otherForm
    | "-empty" => .ok (.empty, rest)
    | "-true" | "-readable" | "-writable" => .ok (.constant true, rest)
    | "-false" | "-nouser" | "-nogroup" => .ok (.constant false, rest)
    | "-executable" => .ok (.mode (some '/') 0o111, rest)
    | "-print" => .ok (.print '\n', rest)
    | "-print0" => .ok (.print '\x00', rest)
    | "-printf" => argument fun a => .ok (.printf a)
    | "-ls" => .ok (.list, rest)
    | "-delete" => .ok (.delete, rest)
    | "-prune" => .ok (.prune, rest)
    | "-quit" => .ok (.quit, rest)
    | "-depth" | "-d" | "-follow" | "-xdev" | "-mount" | "-noleaf" | "-daystart" | "-warn"
    | "-nowarn" | "-ignore_readdir_race" => .ok (.constant true, rest)
    | "-maxdepth" | "-mindepth" => argument depthTest
    | "-user" => argument (owner "a known user")
    | "-group" => argument (owner "an existing group")
    | "-uid" | "-gid" => argument fun a =>
      (numberTest word a fun _ n => .constant (n = 0))
    | "-links" => argument fun a => numberTest word a .names
    | "-inum" => argument fun a => numberTest word a .number
    | "-samefile" => argument fun a =>
      match k.files.find .stay k.here a with
      | .ok n => .ok (.number none n)
      | .error e => .error (quoted a ++ octets ": " ++ octets e.message)
    | "-size" => argument (sizeTest word)
    | "-perm" => argument fun a =>
      let (sign, text) := match a with
        | '-' :: rest => (some '-', rest)
        | '/' :: rest => (some '/', rest)
        | _ => (none, a)
      match modeFunction? 0 text with
      | some f => .ok (.mode sign (f false 0))
      | none => .error (octets "invalid mode " ++ quoted a)
    | "-newer" | "-anewer" | "-cnewer" | "-newermm" | "-newerma" | "-newermc" | "-newercm"
    | "-neweram" => argument fun a => (timeOf k a).map .newer
    | "-newermt" | "-newerct" | "-newerat" => argument fun a =>
      match momentOf? (momentIn k) a with
      | some moment => .ok (.newer (moment - firstMoment))
      | none => .error (octets "I cannot figure out how to interpret " ++ quoted a
          ++ octets " as a date or time")
    | "-mtime" | "-atime" | "-ctime" => argument fun a =>
      numberTest word a fun sign n => .aged sign n dayLength true
    | "-mmin" | "-amin" | "-cmin" => argument fun a =>
      numberTest word a fun sign n => .aged sign n (60 * secondLength) false
    | "-exec" => execTest word .each rest
    | "-ok" => execTest word .asking rest
    | "-execdir" => execTest word .inPlace rest
    | _ => .error (octets "unknown predicate `" ++ word ++ ['\''])

/-- Tests, actions and operators that words are, after a word before them, if there is one. Patterns
are written in the given way. The first argument is above the number of words. -/
def ofWords (writing : Octets) (before : Option Octets) :
    Nat → List Octets → Except Octets (List FindToken)
  | 0, _ | _, [] => .ok []
  | n + 1, word :: rest =>
    let one (token : FindToken) : Except Octets (List FindToken) :=
      (ofWords writing (some word) n rest).map (token :: ·)
    match String.ofList word with
    | "!" | "-not" => one (.negation word)
    | "-a" | "-and" => one (.conjunction word)
    | "-o" | "-or" => one (.disjunction word)
    | "," => one .comma
    | "(" => one .opening
    | ")" => one .closing
    | _ =>
      if word.head? != some '-' then
        let hint := match before, k.files.find .stay k.here word with
          | some last, .ok _ => octets "\nfind: possible unquoted pattern after predicate `" ++ last
              ++ octets "'?"
          | _, _ => []
        .error (octets "paths must precede expression: `" ++ word ++ ['\''] ++ hint)
      else do
        let (c, after) ← single k writing (word :: rest)
        let writing := if word = octets "-regextype" then rest.headD writing else writing
        return .test c :: (← ofWords writing (some word) n after)

end FindToken

namespace FindCondition

/-- A reader of tokens: a condition, and the tokens after it; or what is wrong. It knows the
operator before the tokens, if there is one. -/
abbrev Parser := Option Octets → List FindToken → Except Octets (FindCondition × List FindToken)

/-- A condition in brackets, or negated, or by itself. -/
def unary (whole : Parser) : Nat → Parser
  | 0, _, _ => .error (octets "invalid expression")
  | n + 1, before, tokens =>
    let unfounded (word : Octets) : Octets := octets "invalid expression; you have used a binary "
      ++ octets "operator " ++ quoted word ++ octets " with nothing before it."
    match tokens with
    | [] => .error (octets "expected an expression after " ++ quoted (before.getD []))
    | .test c :: rest => .ok (c, rest)
    | .conjunction word :: _ | .disjunction word :: _ => .error (unfounded word)
    | .comma :: _ => .error (unfounded [','])
    | .negation word :: rest =>
      (unary whole n (some word) rest).map fun (c, rest) => (.not c, rest)
    | .closing :: _ =>
      match before with
      | some word => .error (octets "expected an expression between " ++ quoted word
          ++ octets " and ')'")
      | none => .error (octets "invalid expression; you have too many ')'")
    | [.opening] => .error (octets "invalid expression; expected to find a ')' but didn't see one. "
        ++ octets "Perhaps you need an extra predicate after '('")
    | .opening :: .closing :: _ =>
      .error (octets "invalid expression; empty parentheses are not allowed.")
    | .opening :: rest => do
      let (c, rest) ← whole none rest
      match rest with
      | .closing :: rest => return (c, rest)
      | _ => throw (octets "invalid expression; I was expecting to find a ')' somewhere but did "
          ++ octets "not see one.")

/-- Conditions that all have to hold. -/
def conjunctions (whole : Parser) : Nat → Parser
  | 0, _, _ => .error (octets "invalid expression")
  | n + 1, before, tokens => do
    let (a, rest) ← unary whole (tokens.length + 1) before tokens
    match rest with
    | .conjunction word :: rest =>
      (conjunctions whole n (some word) rest).map fun (b, rest) => (.both a b, rest)
    | .test _ :: _ | .negation _ :: _ | .opening :: _ =>
      (conjunctions whole n none rest).map fun (b, rest) => (.both a b, rest)
    | _ => return (a, rest)

/-- Conditions of which one has to hold. -/
def disjunctions (whole : Parser) : Nat → Parser
  | 0, _, _ => .error (octets "invalid expression")
  | n + 1, before, tokens => do
    let (a, rest) ← conjunctions whole (tokens.length + 1) before tokens
    match rest with
    | .disjunction word :: rest =>
      (disjunctions whole n (some word) rest).map fun (b, rest) => (.either a b, rest)
    | _ => return (a, rest)

/-- Conditions of which the last one counts. -/
def sequences (whole : Parser) : Nat → Parser
  | 0, _, _ => .error (octets "invalid expression")
  | n + 1, before, tokens => do
    let (a, rest) ← disjunctions whole (tokens.length + 1) before tokens
    match rest with
    | .comma :: rest =>
      (sequences whole n (some [',']) rest).map fun (b, rest) => (.second a b, rest)
    | _ => return (a, rest)

/-- A condition with brackets nested to the given depth. -/
def nested : Nat → Parser
  | 0, _, _ => .error (octets "invalid expression")
  | depth + 1, before, tokens => sequences (nested depth) (tokens.length + 1) before tokens

/-- The condition that tokens are. -/
def ofTokens (tokens : List FindToken) : Except Octets FindCondition := do
  let (c, rest) ← nested (tokens.length + 1) none tokens
  match rest with
  | [] => return c
  | _ => throw (octets "you have too many ')'")

end FindCondition

namespace FindLimits

/-- The words that do something. -/
def actions : List String := ["-print", "-print0", "-printf", "-ls", "-exec", "-ok", "-execdir",
  "-delete", "-quit"]

/-- The argument after a word; the last one counts. -/
def argument? (name : String) : List Octets → Option Octets
  | word :: a :: rest =>
    (argument? name (a :: rest)).orElse fun _ => if word = name.toList then some a else none
  | _ => none

/-- What applies to the whole search, as words tell. -/
def ofWords (words : List Octets) : FindLimits :=
  let number (name : String) : Option Nat := (argument? name words).bind natOf?
  let has (names : List String) : Bool := words.any fun w => names.contains (String.ofList w)
  ⟨(number "-mindepth").getD 0, number "-maxdepth", has ["-depth", "-d", "-delete"],
    has actions⟩

end FindLimits

end MutationTesting.Tool
