import MutationTesting.Shell.Interpreter
/-!
# The shell as a program

A shell carries out a script that is given as an argument, as a file or as its input. It knows the
variables of its environment as parameters, which it hands on to the programs that it starts.

## Main definitions

* `Call`, `readCall` — how a shell is called
* `initial` — what it knows at its start
* `shellProgram`
-/

namespace MutationTesting.Shell

/-- How a shell is called. -/
structure Call where
  options : List Char
  /-- The script is the first argument after the options. -/
  inArguments : Bool
  args : List Octets

/-- Reads how a shell is called. -/
def readCall (options : List Char) (inArguments : Bool) : List Octets → Except Octets Call
  | [] => .ok ⟨options, inArguments, []⟩
  | ['-', '-'] :: rest | ['-'] :: rest => .ok ⟨options, inArguments, rest⟩
  | [sign, 'o'] :: rest =>
    if sign = '-' || sign = '+' then
      match rest with
      | name :: rest =>
        match optionNames.lookup (String.ofList name) with
        | some letter =>
          let others := options.filter (· != letter)
          readCall (if sign = '-' then others ++ [letter] else others) inArguments rest
        | none => .error (octets "Illegal option -o " ++ name)
      | [] => .ok ⟨options, inArguments, []⟩
    else .ok ⟨options, inArguments, [sign, 'o'] :: rest⟩
  | ('-' :: letters) :: rest =>
    match letters.find? fun c => c != 'c' && c != 'l' && !optionNames.any (·.2 = c) with
    | some c => .error (octets "Illegal option -" ++ [c])
    | none =>
      readCall (options ++ letters.filter fun c => c != 'c' && c != 'l')
        (inArguments || letters.contains 'c') rest
  | ('+' :: letters) :: rest =>
    readCall (options.filter (!letters.contains ·)) inArguments rest
  | args => .ok ⟨options, inArguments, args⟩

/-- What a shell knows at its start. -/
def initial (k : Kernel) (options : List Char) (name : Octets) (arguments : List Octets)
    (extended : Bool) : State :=
  let environment := ((k.self?.map (·.environment)).getD []).filter fun v => isName v.1
  let directory := (k.files.pathTo? k.here).getD ['/']
  let directory := match environment.lookup (octets "PWD") with
    | some path =>
      if path.head? = some '/' && normalPath path = path
        && (k.files.find .follow k.here path).toOption = some k.here then path
      else directory
    | none => directory
  let inherited := environment.map fun (name, value) => (name, Variable.mk (some value) true false)
  let fresh (name value : String) : Octets × Variable :=
    (octets name, ⟨some (octets value), false, false⟩)
  let own := [fresh "IFS" " \t\n", fresh "OPTIND" "1", fresh "PS1" "# ", fresh "PS2" "> ",
    fresh "PS4" "+ ",
    (octets "PPID", ⟨some (Decimal.natText ((k.self?.map (·.parent)).getD 0)), false, false⟩)]
  let own := own ++ if environment.any (·.1 = octets "PATH") then []
    else [(octets "PATH", ⟨some defaultSearchPath, false, false⟩)]
  { name
    arguments
    bindings := own ++ (inherited.filter fun v => !own.any (·.1 = v.1) && v.1 != octets "PWD")
      ++ [(octets "PWD", ⟨some directory, true, false⟩)]
    functions := []
    aliases := []
    tracked := []
    documents := []
    nextDocument := 0
    status := 0
    inner := 0
    line := 0
    options
    traps := []
    jobs := []
    lastJob := none
    taken := []
    loops := 0
    pending := []
    lenient := false
    optionOffset := 0
    number := k.active
    directory
    extended }

/-- The program that carries out scripts. -/
def shellProgram (table : ProgramTable) (extended : Bool) : Program := fun name args => do
  let x := context table
  let k ← Act.look
  let fail (code : Nat) (message : Octets) : Act Nat :=
    Act.complain code (name ++ octets ": 0: " ++ message)
  let carry (call : Call) (scriptName : Octets) (arguments : List Octets) (origin : Origin)
      (script : Octets) : Act Nat :=
    asProcess x (evaluate x origin ⟨false, !origin.isRead⟩ script 1)
      (initial k call.options scriptName arguments extended)
  match readCall [] false args with
  | .error message => fail 2 message
  | .ok call =>
    if call.inArguments then
      match call.args with
      | [] => fail 2 (octets "-c requires an argument")
      | script :: rest => carry call (rest.headD name) (rest.drop 1) .text script
    else
      match call.args, call.options.contains 's' with
      | path :: rest, false =>
        match ← scriptOf path with
        | .error e => fail 2 (openFault false path e)
        | .ok content => carry call path rest .file (Octets.ofBytes content)
      | arguments, _ =>
        match ← Act.readAll 0 with
        | .error _ => return 0
        | .ok content => carry call name arguments .file (Octets.ofBytes content)

end MutationTesting.Shell
