import MutationTesting.Shell.Builtin
import MutationTesting.Tool.Basic
/-!
# Surroundings

The programs that say where one is: which programs there are, who is at work and what machine this
is; and `kill`, which sends signals to other processes.

## Main definitions

* `kill`, `which`
* `identity`, `uname`, `tty`, `pwd`, `saying`
-/

namespace MutationTesting.Tool

open Act

/-- Sends signals to processes. -/
def kill : Program := fun name args => do
  let send (signal : Nat) (targets : List Octets) : Act Nat :=
    eachOperand (fun word => do
      match intOf? word with
      | none =>
        complain 1 (name ++ octets ": failed to parse argument: " ++ quoted word)
      | some target =>
        if ← Shell.sendSignal target signal then return 0
        else complain 1 (name ++ octets ": (" ++ word ++ octets "): No such process")) targets
  match args with
  | ['-', 's'] :: word :: targets | ['-', 'n'] :: word :: targets =>
    match Signal.numberOfAny? word with
    | some n => send n targets
    | none => complain 1 (name ++ octets ": unknown signal name " ++ word)
  | ['-', 'l'] :: _ => sayAll (octets (" ".intercalate Signal.nameList) ++ ['\n'])
  | ['-', '-'] :: targets => send Signal.terminate targets
  | ('-' :: c :: cs) :: targets =>
    match Signal.numberOfAny? (c :: cs) with
    | some n => send n targets
    | none => complain 1 (name ++ octets ": unknown signal name " ++ c :: cs)
  | [] => misuse name 1 (octets "not enough arguments")
  | targets => send Signal.terminate targets

/-- Says where programs are. -/
def which : Program := fun _ args => do
  let k ← look
  let isProgram (path : Octets) : Bool :=
    match k.files.nodeAt? .follow k.here path with
    | some ⟨.file _, mode, _⟩ => mode &&& 0o111 != 0
    | _ => false
  match readOptions [flag 'a', flag 's'] true args with
  | .error _ =>
    let letters := (args.filter fun word => word.head? = some '-').flatMap (·.drop 1)
    let bad := (letters.find? fun c => c != 'a' && c != 's').getD '-'
    let _ ← complain 2 (octets "Illegal option -" ++ [bad])
    say (octets "Usage: /usr/bin/which [-as] args\n")
    return 2
  | .ok (_, []) => return 1
  | .ok (o, names) =>
    let searchPath := (k.variableValue? "PATH".toList).getD defaultSearchPath
    eachOperand (fun name => do
      let paths := if name.contains '/' then [name]
        else (splitAt ':' searchPath).map fun directory =>
          (if directory.isEmpty then ['.'] else directory) ++ '/' :: name
      let found := paths.filter isProgram
      let shown := if o.has 'a' then found else found.take 1
      if !o.has 's' then say (ofLines shown)
      return if found.isEmpty then 1 else 0) names

/-- The users that there are, with their numbers. -/
def users : List (String × Nat) := [("root", 0), ("daemon", 1), ("bin", 2), ("sys", 3),
  ("nobody", 65534)]

/-- Says who is at work, or who users are. -/
def identity : Program := fun name args =>
  withOptions name [flag 'u' "user", flag 'g' "group", flag 'G' "groups", flag 'n' "name",
      flag 'r' "real", flag 'a', flag 'z' "zero", flag 'Z' "context"] 1 args fun o names => do
    let fail (message : String) : Act Nat := complain 1 (name ++ octets (": " ++ message))
    let kinds := (['u', 'g', 'G'].filter o.has).length
    if o.has 'Z' then fail "--context (-Z) works only on an SELinux-enabled kernel"
    else if 1 < kinds then fail "cannot print \"only\" of more than one choice"
    else if kinds = 0 && (o.has 'n' || o.has 'r') then
      fail "cannot print only names or real IDs in default format"
    else if kinds = 0 && o.has 'z' then fail "option --zero not permitted in default format"
    else
      let user? (word : Octets) : Option (String × Nat) :=
        users.find? fun (user, n) => octets user = word || octets (toString n) = word
      let shown (user : String) (n : Nat) : Octets :=
        if kinds = 0 then octets s!"uid={n}({user}) gid={n}({user}) groups={n}({user})\n"
        else
          octets (if o.has 'n' then user else toString n)
            ++ (if o.has 'z' then ['\x00'] else ['\n'])
            ++ if o.has 'z' && o.has 'G' && 1 < names.length then ['\x00'] else []
      if names.isEmpty then sayAll (shown "root" 0)
      else
        eachOperand (fun word => do
          match user? word with
          | some (user, n) => sayAll (shown user n)
          | none =>
            complain 1 (name ++ octets ": " ++ quoted word ++ octets ": no such user")) names

/-- A program without operands. -/
def withoutOperands (forms : List OptionForm) (act : Options → Act Nat) : Program :=
  fun name args =>
    withOptions name forms 1 args fun o operands =>
      match operands with
      | [] => act o
      | extra :: _ => misuse name 1 (octets "extra operand " ++ quoted extra)

/-- Says what machine this is. -/
def uname : Program :=
  withoutOperands [flag 'a' "all", flag 's' "kernel-name", flag 'n' "nodename",
      flag 'r' "kernel-release", flag 'v' "kernel-version", flag 'm' "machine",
      flag 'p' "processor", flag 'i' "hardware-platform", flag 'o' "operating-system"] fun o =>
    let parts : List (Char × String) := [('s', "Linux"), ('n', "localhost"), ('r', "6.1.0"),
      ('v', "#1 SMP"), ('m', "x86_64"), ('p', "x86_64"), ('i', "x86_64"), ('o', "GNU/Linux")]
    let wanted := parts.filter fun (c, _) => o.has 'a' || o.has c || (c = 's' && o.isEmpty)
    sayAll (List.intercalate [' '] (wanted.map fun p => octets p.2) ++ ['\n'])

/-- A program that always says the same. -/
def saying (text : String) : Program :=
  withoutOperands [] fun _ => sayAll (octets text ++ ['\n'])

/-- Says that the input is no terminal. -/
def tty : Program := fun name args =>
  withOptions name [flag 's' "silent", flag 's' "quiet"] 2 args fun o operands => do
    match operands with
    | extra :: _ => misuse name 2 (octets "extra operand " ++ quoted extra)
    | [] =>
      if !o.has 's' then say (octets "not a tty\n")
      return 1

/-- Shows the directory. -/
def pwd : Program := fun _ _ => do
  let k ← look
  sayAll ((k.files.pathTo? k.here).getD ['/'] ++ ['\n'])

end MutationTesting.Tool
