import MutationTesting.Device.Configuration
/-!
# Arguments and options

Reading the words of a command line by a table of options. An option is written `--name value` or
`--name=value`; a switch takes no value and may have a letter, and letters may share a dash. After
`--` every word is an operand. A word that begins with a dash, other than the dash by itself, is
no value of an option unless it is written behind an equals sign. The first fault among the words is
decisive, and so is the first call for help.

An option that is not given takes the value of its environment variable, an empty one as well, and
else its default. Only a list may be given more than once, and its values are cut at commas.

## Main definitions

* `OptionForm`, `Arguments`
* `Arguments.read` — the words of a command line
* `Arguments.has`, `Arguments.written` — whether an option is given, and its values
* `Arguments.required`, `Arguments.optional`, `Arguments.listed` — the values as they are used
-/

namespace MutationTesting.CommandLine

/-- What may follow an option. -/
inductive Arity where
  /-- Nothing: it is a switch. -/
  | switch
  | single
  | list
  deriving DecidableEq

/-- An option of a command. -/
structure OptionForm where
  name : String
  arity : Arity
  letter : Option Char := none
  variableName : Option String := none
  default : Option String := none
  /-- Which texts are values. -/
  accepts : String → Bool := fun _ => true

/-- Why the words of a command line are not taken as a request. -/
inductive Refusal where
  /-- They do not make sense. -/
  | usage
  /-- They ask for an explanation. -/
  | help
  deriving DecidableEq

/-- The words of a command line, told apart. -/
structure Arguments where
  /-- Options in the order in which they were given, switches with an empty value. -/
  options : List (String × String)
  operands : List String

/-- How a word of a command line is written. -/
inductive WordForm where
  | operand
  /-- Two dashes by themselves. -/
  | divider
  | long (name : String) (value : Option String)
  | letters (cs : List Char)

/-- The text before the first equals sign and the text after it, if there is one. -/
def splitEquals (cs : List Char) : List Char × Option String :=
  match cs.dropWhile (· != '=') with
  | [] => (cs, none)
  | _ :: value => (cs.takeWhile (· != '='), some (String.ofList value))

/-- The form of a word. -/
def WordForm.of (word : String) : WordForm :=
  match word.toList with
  | ['-', '-'] => .divider
  | '-' :: '-' :: rest =>
    let (name, value) := splitEquals rest
    .long (String.ofList name) value
  | ['-'] => .operand
  | '-' :: cs => .letters cs
  | _ => .operand

/-- The word can be the value of the option before it. -/
def isValueWord (word : String) : Bool := word.toList.head? != some '-' || word == "-"

namespace Arguments

/-- No words. -/
def empty : Arguments := ⟨[], []⟩

/-- The option was given. -/
def has (a : Arguments) (name : String) : Bool := a.options.any (·.1 == name)

/-- Adds an option; only a list may be given again. -/
def add (a : Arguments) (form : OptionForm) (value : String) : Except Refusal Arguments :=
  if form.arity != .list && a.has form.name then .error .usage
  else if form.arity != .switch && !form.accepts value then .error .usage
  else .ok { a with options := a.options ++ [(form.name, value)] }

/-- Adds switches by their letters. -/
def addLetters (forms : List OptionForm) : List Char → Arguments → Except Refusal Arguments
  | [], a => .ok a
  | c :: rest, a =>
    if c = 'h' then .error .help
    else
      match forms.find? (·.letter == some c) with
      | none => .error .usage
      | some form => (a.add form "").bind (addLetters forms rest)

/-- Adds an operand; there are not more than `limit`. -/
def addOperand (limit : Nat) (a : Arguments) (word : String) : Except Refusal Arguments :=
  if a.operands.length < limit then .ok { a with operands := a.operands ++ [word] }
  else .error .usage

/-- Reads the words of a command line, of which `limit` at most are operands. -/
def read (forms : List OptionForm) (limit : Nat) :
    List String → Arguments → Except Refusal Arguments
  | [], a => .ok a
  | word :: rest, a =>
    match WordForm.of word with
    | .operand => (a.addOperand limit word).bind (read forms limit rest)
    | .divider => rest.foldlM (addOperand limit) a
    | .letters cs => (addLetters forms cs a).bind (read forms limit rest)
    | .long name value =>
      match forms.find? (·.name == name) with
      | none => .error (if name == "help" && value.isNone then .help else .usage)
      | some form =>
        match form.arity, value with
        | .switch, none => (a.add form "").bind (read forms limit rest)
        | .switch, some _ => .error .usage
        | _, some value => (a.add form value).bind (read forms limit rest)
        | _, none =>
          match rest with
          | [] => .error .usage
          | value :: rest =>
            if isValueWord value then (a.add form value).bind (read forms limit rest)
            else .error .usage

variable (a : Arguments) (env : Environment)

/-- The values of an option as they are written: on the command line, in the environment or by
default. -/
def written (form : OptionForm) : List String :=
  match (a.options.filter (·.1 == form.name)).map (·.2) with
  | [] =>
    match form.variableName.bind (List.lookup · env) with
    | some value => [value]
    | none => form.default.toList
  | values => values

/-- The values of a list. -/
def listed (form : OptionForm) : List String :=
  (written a env form).flatMap fun value => (splitAt ',' value.toList).map String.ofList

/-- The value of an option that may be missing; where it is there it has to be acceptable. -/
def optional (form : OptionForm) : Except Refusal (Option String) :=
  match (written a env form).head? with
  | none => .ok none
  | some value => if form.accepts value then .ok (some value) else .error .usage

/-- The value of an option that must not be missing. -/
def required (form : OptionForm) : Except Refusal String := do
  match ← optional a env form with
  | some value => .ok value
  | none => .error .usage

end Arguments

end MutationTesting.CommandLine
