import MutationTesting.Tool.Launch
/-!
# Environments

The programs `env`, which starts another one with changed variables in another directory or shows
the variables, and `printenv`. Several arguments of `env` can be written as one text, in which there
are quotes, backslashes and variables.

## Main definitions

* `SplitState`, `splitText` — the words of such a text
* `env`, `printenv`
-/

namespace MutationTesting.Tool

open Act

/-! ### Words in a text -/

/-- A text that is being split into words. -/
structure SplitState where
  /-- The words that are finished, the last first. -/
  words : List Octets := []
  /-- The characters of the word that is being read, the last first. -/
  word : Option Octets := none
  quote : Option Char := none

namespace SplitState

/-- The state after a character of a word. -/
def add (s : SplitState) (c : Char) : SplitState := { s with word := some (c :: s.word.getD []) }

/-- The state after the end of a word. -/
def finish (s : SplitState) : SplitState :=
  { s with words := (s.word.map (·.reverse)).toList ++ s.words, word := none }

/-- All words. -/
def all (s : SplitState) : List Octets := s.finish.words.reverse

end SplitState

/-- What a character means after a backslash. -/
def splitEscape? : Char → Option Char
  | 'f' => some '\x0c'
  | 'n' => some '\n'
  | 'r' => some '\r'
  | 't' => some '\t'
  | 'v' => some '\x0b'
  | c => if ['"', '#', '$', '\'', '\\'].contains c then some c else none

/-- The words of a text, or what is wrong with it. The number is above the length of the text. -/
def splitText (value? : Octets → Option Octets) (s : SplitState) :
    Nat → Octets → Except Octets (List Octets)
  | 0, _ | _, [] =>
    if s.quote.isSome then .error (octets "no terminating quote in -S string") else .ok s.all
  | n + 1, c :: rest =>
    let isSpace (c : Char) : Bool := c = ' ' || ('\t' ≤ c && c ≤ '\r')
    if (c = '\'' || c = '"') && s.quote = some c then
      splitText value? { s with quote := none } n rest
    else if (c = '\'' || c = '"') && s.quote.isNone then
      splitText value? { s with quote := some c, word := some (s.word.getD []) } n rest
    else if isSpace c && s.quote.isNone then splitText value? s.finish n rest
    else if c = '#' && s.quote.isNone && s.word.isNone then .ok s.all
    else if c = '\\' then
      match s.quote, rest with
      | some '\'', next :: rest' =>
        if next = '\\' || next = '\'' then splitText value? (s.add next) n rest'
        else splitText value? (s.add c) n rest
      | _, [] => .error (octets "invalid backslash at end of string in -S")
      | quote, '_' :: rest' =>
        if quote.isSome then splitText value? (s.add ' ') n rest'
        else splitText value? s.finish n rest'
      | quote, 'c' :: _ =>
        if quote.isSome then .error (octets "'\\c' must not appear in double-quoted -S string")
        else .ok s.all
      | _, next :: rest' =>
        match splitEscape? next with
        | some c => splitText value? (s.add c) n rest'
        | none => .error (octets "invalid sequence '\\" ++ [next] ++ octets "' in -S")
    else if c = '$' && s.quote != some '\'' then
      let fault := octets "only $\x7bVARNAME\x7d expansion is supported, error at: " ++ c :: rest
      let name := (rest.drop 1).takeWhile fun c => c.isAlphanum || c = '_'
      let isName := name.head?.any (!·.isDigit)
      if rest.head? = some '\x7b' && isName && rest[name.length + 1]? = some '\x7d' then
        let s := (value? name).elim s fun value => value.foldl SplitState.add s
        splitText value? s n (rest.drop (name.length + 2))
      else .error fault
    else splitText value? (s.add c) n rest

/-! ### Starting a program -/

/-- The options of `env`. -/
def envForms : List OptionForm :=
  [flag 'i' "ignore-environment", valued 'u' "unset", valued 'C' "chdir", flag '0' "null",
    valued 'S' "split-string", flag 'v' "debug"]

/-- Arguments with the words of a text in the place of the option that holds it, and words that
come before. The number bounds the options. -/
def withSplitText (value? : Octets → Option Octets) : Nat → List Octets →
    Except Octets (List Octets)
  | 0, args => .ok args
  | _, [] => .ok []
  | n + 1, word :: rest => do
    let replaced (before : List Octets) (text : Octets) (rest : List Octets) :
        Except Octets (List Octets) := do
      let words ← splitText value? {} (text.length + 1) text
      return before ++ (← withSplitText value? n (words ++ rest))
    match word with
    | ['-'] | ['-', '-'] => return word :: rest
    | '-' :: '-' :: text =>
      let name := text.takeWhile (· != '=')
      let isNamed (long : String) : Bool := name.isPrefixOf long.toList
      if !name.isEmpty && isNamed "split-string" then
        match text.drop name.length, rest with
        | _ :: value, rest => replaced [] value rest
        | [], value :: rest => replaced [] value rest
        | [], [] => return word :: rest
      else if text.contains '=' || !(isNamed "unset" || isNamed "chdir") then
        return word :: (← withSplitText value? n rest)
      else return word :: rest.take 1 ++ (← withSplitText value? n (rest.drop 1))
    | '-' :: letters =>
      let plain := letters.takeWhile fun c => c = 'i' || c = '0' || c = 'v'
      let before := if plain.isEmpty then [] else ['-' :: plain]
      match letters.drop plain.length, rest with
      | 'S' :: c :: cs, _ => replaced before (c :: cs) rest
      | ['S'], text :: rest => replaced before text rest
      | ['u'], value :: rest | ['C'], value :: rest =>
        return word :: value :: (← withSplitText value? n rest)
      | _, _ => return word :: (← withSplitText value? n rest)
    | _ => return word :: rest

/-- The variables of the environment. -/
def environment : Act (List (Octets × Octets)) := do
  return (((← look).self?).map (·.environment)).getD []

/-- Variables with one of them set, where it was if it was there. -/
def withVariable (vs : List (Octets × Octets)) (name value : Octets) : List (Octets × Octets) :=
  if vs.any (·.1 = name) then vs.map fun v => if v.1 = name then (name, value) else v
  else vs ++ [(name, value)]

/-- Starts a program with a changed environment, or shows the environment. -/
def env (table : ProgramTable) : Program := fun name args => do
  let before ← environment
  let fail (message : Octets) : Act Nat := complain 125 (name ++ octets ": " ++ message)
  match withSplitText (fun v => before.lookup v) 1000 args with
  | .error message => fail message
  | .ok args =>
  match readOptions envForms true args with
  | .error message => misuse name 125 message
  | .ok (o, operands) =>
    let isBare := o.has 'i' || operands.head? = some ['-']
    let operands := if operands.head? = some ['-'] then operands.drop 1 else operands
    let note (text : Octets) : Act Unit := if o.has 'v' then put 2 (text ++ ['\n']) else return ()
    let isUnfit (v : Octets) : Bool := v.isEmpty || v.contains '='
    if isBare then note (octets "cleaning environ")
    else
      if let some bad := (o.every 'u').find? isUnfit then
        return (← fail (octets "cannot unset " ++ quoted bad ++ octets ": Invalid argument"))
      let _ ← eachOperand (fun v => do
        note (octets "unset:    " ++ v)
        return 0) (o.every 'u')
    let kept := if isBare then [] else before.filter fun v => !(o.every 'u').contains v.1
    let assigned := operands.takeWhile (·.contains '=')
    let _ ← eachOperand (fun word => do
      note (octets "setenv:   " ++ word)
      return 0) assigned
    let environment := assigned.foldl (fun vs word =>
      let name := word.takeWhile (· != '=')
      withVariable vs name (word.drop (name.length + 1))) kept
    change (·.adjustSelf fun p => { p with environment })
    match operands.drop assigned.length with
    | [] =>
      if o.has 'C' then misuse name 125 (octets "must specify command with --chdir (-C)")
      else
        let ending := if o.has '0' then '\x00' else '\n'
        sayAll (environment.flatMap fun (name, value) => name ++ '=' :: value ++ [ending])
    | program :: args => do
      if o.has '0' then
        return (← misuse name 125 (octets "cannot specify --null (-0) with command"))
      if let some directory := o.last? 'C' then
        note (octets "chdir:    " ++ named directory)
        let moved : Except FileError Unit ← access fun k =>
          match k.files.find .follow k.here directory with
          | .ok n =>
            if k.files.isDirectory n then (.ok (), k.adjustSelf fun p => { p with directory := n })
            else (.error .notDirectory, k)
          | .error e => (.error e, k)
        if let .error e := moved then
          return (← fail (octets "cannot change directory to " ++ named directory ++ octets ": "
            ++ octets e.message))
      note (octets "executing: " ++ program)
      let _ ← eachOperand (fun line => do
        note line
        return 0) ((program :: args).zipIdx.map fun (word, i) =>
          octets "   arg[" ++ Decimal.natText i ++ octets "]= " ++ quoted word)
      let code ← replaceBy table name (program :: args)
      if code = 127 && program.contains ' ' then
        complain code (name ++ octets ": use -[v]S to pass options in shebang lines")
      else return code

/-- Shows variables of the environment. -/
def printenv : Program := fun name args => do
  match readOptions [flag '0' "null"] true args with
  | .error message => misuse name 2 message
  | .ok (o, names) =>
    let ending := if o.has '0' then '\x00' else '\n'
    let environment ← environment
    if names.isEmpty then
      sayAll (environment.flatMap fun (name, value) => name ++ '=' :: value ++ [ending])
    else
      eachOperand (fun name => do
        match environment.lookup name with
        | some value => sayAll (value ++ [ending])
        | none => return 1) names

end MutationTesting.Tool
