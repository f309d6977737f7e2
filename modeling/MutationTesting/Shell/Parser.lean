import MutationTesting.Shell.Scanner
/-!
# Reading scripts: commands

A script is read a line at a time, or as many lines as its commands go on for, so that what comes
before a fault is carried out. Commands are nested; a reader of nested commands is handed down, and
how deep they are nested is bounded by the length of the script.

## Main definitions

* `Peeking` — a reader that sees the next token
* `readLine` — the commands of the next line
* `readDocument` — a text with values in it
-/

namespace MutationTesting.Shell

/-- A cursor with the next token and the place behind it, if that has been looked at. -/
structure Peek where
  cursor : Cursor
  ahead : Option (Token × Cursor)

/-- A reader that sees the next token. -/
abbrev Peeking := StateT Peek (Except SyntaxFault)

/-- A reader of a list of commands. -/
abbrev ListReader := Peeking ShellCommand

namespace Peeking

section

variable (nested : Reader Unit)

/-- The next token, which stays where it is. -/
def peek : Peeking Token := do
  let p ← get
  match p.ahead with
  | some (token, _) => return token
  | none =>
    let (token, cursor) ← (nextToken nested).run p.cursor
    set { p with ahead := some (token, cursor) }
    return token

/-- The next token. -/
def take : Peeking Token := do
  let token ← peek nested
  modify fun p =>
    match p.ahead with
    | some (_, cursor) => ⟨cursor, none⟩
    | none => p
  return token

/-- The token as it is shown in messages. -/
def shown : Token → String
  | .word w =>
    let plain := (Word.plain? w).map String.ofList
    match plain.filter fun s => ["!", "case", "do", "done", "elif", "else", "esac", "fi", "for",
        "if", "in", "then", "until", "while", "\x7b", "\x7d"].contains s with
    | some s => "\"" ++ s ++ "\""
    | none => "word"
  | .operator cs => "\"" ++ cs ++ "\""
  | .redirect .. | .announce .. => "redirection"
  | .newline => "newline"
  | .finish => "end of file"

/-- The next token is not one that can stand here. -/
def unexpected {α : Type} (wanted : Option String) : Peeking α := do
  let token ← peek nested
  let line := match (← get).ahead with
    | some (_, cursor) => cursor.line
    | none => 0
  let line := match token with
    | .newline => line - 1
    | _ => line
  throw ⟨line, ("Syntax error: " ++ shown token ++ " unexpected" ++
    (match wanted with
      | some w => " (expecting " ++ w ++ ")"
      | none => "")).toList⟩

/-- The next token is the given word. -/
def isAtWord (s : String) : Peeking Bool := do
  match ← peek nested with
  | .word w => return Word.plain? w = some s.toList
  | _ => return false

/-- The next token is the given operator. -/
def isAtOperator (s : String) : Peeking Bool := do
  match ← peek nested with
  | .operator cs => return cs = s
  | _ => return false

/-- Takes the given word. -/
def expectWord (s : String) : Peeking Unit := do
  if ← isAtWord nested s then let _ ← take nested else unexpected nested (some ("\"" ++ s ++ "\""))

/-- Takes the given operator. -/
def expectOperator (s : String) : Peeking Unit := do
  if ← isAtOperator nested s then let _ ← take nested
  else unexpected nested (some ("\"" ++ s ++ "\""))

/-- Goes on after the ends of lines. -/
def skipNewlines : Nat → Peeking Unit
  | 0 => return ()
  | n + 1 => do
    match ← peek nested with
    | .newline =>
      let _ ← take nested
      skipNewlines n
    | _ => return ()

/-- A bound for what is left to read. -/
def bound : Peeking Nat := do return (← get).cursor.rest.length + 2

/-- The words after which no command follows in a list. -/
def closingWords : List String := ["then", "do", "done", "fi", "else", "elif", "esac", "\x7d"]

/-- The next token ends a list of commands. -/
def isAtEnd : Peeking Bool := do
  match ← peek nested with
  | .finish => return true
  | .operator cs => return cs = ")" || cs = ";;"
  | .word w => return (Word.plain? w).any fun cs => closingWords.contains (String.ofList cs)
  | _ => return false

/-! ### Simple commands -/

/-- The redirection that a token begins. -/
def redirection (token : Token) : Peeking Redirection := do
  match token with
  | .redirect descriptor connection =>
    match ← peek nested with
    | .word target =>
      let _ ← take nested
      return ⟨descriptor, connection, target⟩
    | _ => unexpected nested none
  | .announce descriptor strip =>
    match ← peek nested with
    | .word w =>
      let _ ← take nested
      let (last, literal) := Word.unquoted w
      let p ← get
      let number := p.cursor.nextDocument
      set { p with cursor := { p.cursor with
        nextDocument := number + 1
        announced := p.cursor.announced ++ [(⟨number, last, literal, strip⟩ : Announcement)] } }
      return ⟨descriptor, .document number, []⟩
    | _ => unexpected nested none
  | _ => unexpected nested none

/-- Redirections at the cursor. -/
def redirections : Nat → Peeking (List Redirection)
  | 0 => return []
  | n + 1 => do
    match ← peek nested with
    | .redirect .. | .announce .. =>
      let r ← redirection nested (← take nested)
      return r :: (← redirections n)
    | _ => return []

/-- The words and redirections of a simple command. -/
def simpleParts : Nat → Peeking (List Word × List Redirection)
  | 0 => return ([], [])
  | n + 1 => do
    match ← peek nested with
    | .redirect .. | .announce .. =>
      let r ← redirection nested (← take nested)
      let (ws, rs) ← simpleParts n
      return (ws, r :: rs)
    | .word w =>
      let _ ← take nested
      let (ws, rs) ← simpleParts n
      return (w :: ws, rs)
    | _ => return ([], [])

/-- The words at the cursor. -/
def wordsHere : Nat → Peeking (List Word)
  | 0 => return []
  | n + 1 => do
    match ← peek nested with
    | .word w =>
      let _ ← take nested
      return w :: (← wordsHere n)
    | _ => return []

/-! ### Commands -/

section

variable (list : ListReader)

/-- A list of commands that is not empty. -/
def fullList : Peeking ShellCommand := do
  skipNewlines nested (← bound)
  if ← isAtEnd nested then unexpected nested none else list

/-- A condition after its first word. -/
def condition : Nat → Peeking ShellCommand
  | 0 => unexpected nested none
  | n + 1 => do
    let test ← fullList nested list
    expectWord nested "then"
    let yes ← fullList nested list
    if ← isAtWord nested "elif" then
      let _ ← take nested
      return .cond test yes (some (← condition n))
    else if ← isAtWord nested "else" then
      let _ ← take nested
      let no ← fullList nested list
      expectWord nested "fi"
      return .cond test yes (some no)
    else
      expectWord nested "fi"
      return .cond test yes none

/-- The patterns of an arm of a choice, up to the closing bracket. -/
def patterns : Nat → Peeking (List Word)
  | 0 => return []
  | n + 1 => do
    let pattern : Word := match ← take nested with
      | .word w => w
      | _ => []
    if ← isAtOperator nested "|" then
      let _ ← take nested
      return pattern :: (← patterns n)
    else
      expectOperator nested ")"
      return [pattern]

/-- The arms of a choice, up to its last word. -/
def arms : Nat → Peeking (List (List Word × ShellCommand))
  | 0 => return []
  | n + 1 => do
    skipNewlines nested (← bound)
    if ← isAtWord nested "esac" then
      let _ ← take nested
      return []
    else
      if ← isAtOperator nested "(" then let _ ← take nested
      let ps ← patterns nested (← bound)
      let body ← list
      if ← isAtOperator nested ";;" then
        let _ ← take nested
        return (ps, body) :: (← arms n)
      else
        expectWord nested "esac"
        return [(ps, body)]

/-- A body between `do` and `done`. -/
def body : Peeking ShellCommand := do
  expectWord nested "do"
  let c ← fullList nested list
  expectWord nested "done"
  return c

/-- A loop over words, after its first word. -/
def eachLoop : Peeking ShellCommand := do
  let line := (← get).cursor.line
  match ← peek nested with
  | .word w =>
    match (Word.plain? w).filter isName with
    | none => throw ⟨line, "Syntax error: Bad for loop variable".toList⟩
    | some name =>
      let _ ← take nested
      skipNewlines nested (← bound)
      if ← isAtWord nested "in" then
        let _ ← take nested
        let words ← wordsHere nested (← bound)
        match ← peek nested with
        | .newline | .operator ";" =>
          let _ ← take nested
          skipNewlines nested (← bound)
          return .each line name words (← body nested list)
        | _ => unexpected nested none
      else
        if ← isAtOperator nested ";" then
          let _ ← take nested
          skipNewlines nested (← bound)
        return .each line name [[.parameter ['@'] .value [] true]] (← body nested list)
  | _ => throw ⟨line, "Syntax error: Bad for loop variable".toList⟩

/-- A command that begins with a word or bracket of its own, if there is one. -/
def compound? : Peeking (Option ShellCommand) := do
  let line := (← get).cursor.line
  match ← peek nested with
  | .operator "(" =>
    let _ ← take nested
    let c ← fullList nested list
    expectOperator nested ")"
    return some (.subshell c)
  | .word w =>
    match (Word.plain? w).map String.ofList with
    | some "if" =>
      let _ ← take nested
      return some (← condition nested list (← bound))
    | some "while" =>
      let _ ← take nested
      let test ← fullList nested list
      return some (.loop true test (← body nested list))
    | some "until" =>
      let _ ← take nested
      let test ← fullList nested list
      return some (.loop false test (← body nested list))
    | some "for" =>
      let _ ← take nested
      return some (← eachLoop nested list)
    | some "case" =>
      let _ ← take nested
      match ← take nested with
      | .word w =>
        skipNewlines nested (← bound)
        expectWord nested "in"
        return some (.choose line w (← arms nested list (← bound)))
      | _ => unexpected nested none
    | some "\x7b" =>
      let _ ← take nested
      let c ← fullList nested list
      expectWord nested "\x7d"
      return some c
    | _ => return none
  | _ => return none

/-- Puts the text in the place of the word at the cursor that takes it, if there is one and the word
does not come from this text itself; whether it did. -/
def expandAlias : Peeking Bool := do
  match ← peek nested with
  | .word w =>
    let p ← get
    match Word.plain? w, p.ahead with
    | some name, some (_, after) =>
      let isActive := p.cursor.active.any fun (known, size) =>
        known = name && size < p.cursor.rest.length
      match after.aliases.lookup name with
      | some text =>
        if isActive then return false
        else
          set (⟨{ after with
            rest := text ++ after.rest
            active := (name, after.rest.length) :: after.active }, none⟩ : Peek)
          return true
      | none => return false
    | _, _ => return false
  | _ => return false

/-- Puts texts in the places of words as long as there are any. -/
def expandAliases : Nat → Peeking Unit
  | 0 => return ()
  | n + 1 => do if ← expandAlias nested then expandAliases n

/-- What may not be the name of a command that a script defines. -/
def isReserved (name : Octets) : Bool :=
  [".", ":", "break", "continue", "eval", "exec", "exit", "export", "readonly", "return", "set",
    "shift", "times", "trap", "unset"].contains (String.ofList name)

/-- A single command. The first argument bounds how often a definition may be that of a
definition. -/
def command : Nat → Peeking ShellCommand
  | 0 => unexpected nested none
  | n + 1 => do
    expandAliases nested ((← get).cursor.aliases.length + 1)
    let line := (← get).cursor.line
    match ← compound? nested list with
    | some c =>
      match ← redirections nested (← bound) with
      | [] => return c
      | rs => return .redirected line c rs
    | none =>
      if ← isAtEnd nested then unexpected nested none
      if (← isAtWord nested "!") || (← isAtWord nested "in") then unexpected nested none
      match ← peek nested with
      | .word w =>
        let _ ← take nested
        if w.assignment?.isNone && (← isAtOperator nested "(") then
          let _ ← take nested
          expectOperator nested ")"
          match (Word.plain? w).filter fun name => isName name && !isReserved name with
          | none => throw ⟨line, "Syntax error: Bad function name".toList⟩
          | some name =>
            skipNewlines nested (← bound)
            return .define name (← command n)
        else
          let (ws, rs) ← simpleParts nested (← bound)
          return .simple line (w :: ws) rs
      | .redirect .. | .announce .. =>
        let (ws, rs) ← simpleParts nested (← bound)
        return .simple line ws rs
      | _ => unexpected nested none

/-- The stages of a pipe. -/
def stages : Nat → Peeking (List ShellCommand)
  | 0 => return []
  | n + 1 => do
    let c ← command nested list (← bound)
    if ← isAtOperator nested "|" then
      let _ ← take nested
      skipNewlines nested (← bound)
      return c :: (← stages n)
    else return [c]

/-- A pipe, possibly of one stage and possibly negated. -/
def pipeline : Peeking ShellCommand := do
  let negated ← isAtWord nested "!"
  if negated then let _ ← take nested
  let c ← match ← stages nested list (← bound) with
    | [c] => pure c
    | cs => pure (.pipe cs)
  return if negated then .negated c else c

/-- Pipes after a first one, each of them tried or not as the outcome of what is before it says. -/
def conjunction : Nat → ShellCommand → Peeking ShellCommand
  | 0, c => return c
  | n + 1, c => do
    if ← isAtOperator nested "&&" then
      let _ ← take nested
      skipNewlines nested (← bound)
      conjunction n (.both c (← pipeline nested list))
    else if ← isAtOperator nested "||" then
      let _ ← take nested
      skipNewlines nested (← bound)
      conjunction n (.either c (← pipeline nested list))
    else return c

/-- What follows a separator in a list, given how the list goes on if it does. -/
def onward (lineOnly : Bool) (next : Peeking (List ShellCommand)) :
    Peeking (List ShellCommand) := do
  match ← peek nested with
  | .newline =>
    let _ ← take nested
    if lineOnly then return []
    else
      skipNewlines nested (← bound)
      if ← isAtEnd nested then return [] else next
  | .finish => return []
  | _ =>
    if ← isAtEnd nested then
      if lineOnly then unexpected nested none else return []
    else next

/-- The commands of a list: of a line only, or as long as there are any. -/
def commands (lineOnly : Bool) : Nat → Peeking (List ShellCommand)
  | 0 => return []
  | n + 1 => do
    let c ← conjunction nested list (← bound) (← pipeline nested list)
    match ← peek nested with
    | .operator "&" =>
      let _ ← take nested
      return .background c :: (← onward nested lineOnly (commands lineOnly n))
    | .operator ";" =>
      let _ ← take nested
      return c :: (← onward nested lineOnly (commands lineOnly n))
    | .newline => return c :: (← onward nested lineOnly (commands lineOnly n))
    | .finish => return [c]
    | _ => if lineOnly then unexpected nested none else return [c]

end

end

end Peeking

/-- Several commands as one. -/
def ShellCommand.ofList : List ShellCommand → ShellCommand
  | [c] => c
  | cs => .sequence cs

/-- Reads a script up to the bracket that closes it, and not the bracket, as a list of commands. -/
def enclosed (list : ListReader) : Reader Unit := do
  let c ← get
  let (_, p) ← list.run ⟨{ c with announced := [] }, none⟩
  match p.ahead with
  | some (.operator ")", _) =>
    set { p.cursor with announced := c.announced, nextDocument := c.nextDocument }
  | some (token, after) =>
    throw ⟨after.line, ("Syntax error: " ++ Peeking.shown token
      ++ " unexpected (expecting \")\")").toList⟩
  | none => throw ⟨p.cursor.line, "Syntax error: end of file unexpected".toList⟩

/-- A list of commands, nested to the given depth. It may be empty. -/
def listReader : Nat → ListReader
  | 0 => throw ⟨0, "Syntax error: nested too deep".toList⟩
  | n + 1 => do
    let nested := enclosed (listReader n)
    Peeking.skipNewlines nested (← Peeking.bound)
    if ← Peeking.isAtEnd nested then return .sequence []
    else return .ofList (← Peeking.commands nested (listReader n) false (← Peeking.bound))

/-- The commands of the next line; none at the end of the script. -/
def readLine (c : Cursor) : Except SyntaxFault (Option ShellCommand × Cursor) := do
  let list := listReader (c.rest.length + 2)
  let nested := enclosed list
  let line : Peeking (Option ShellCommand) := do
    match ← Peeking.peek nested with
    | .finish => return none
    | .newline =>
      let _ ← Peeking.take nested
      return some (.sequence [])
    | _ => return some (.ofList (← Peeking.commands nested list true (← Peeking.bound)))
  let (result, p) ← line.run ⟨c, none⟩
  return (result, p.cursor)

/-- A text into which values are put as into a document, if it is well formed. -/
def readDocument (text : Octets) : Option Word :=
  let reader := scan (enclosed (listReader (text.length + 2))) (text.length + 1) .document []
  ((reader.run (Cursor.start text 1 0)).toOption).map (·.1)

end MutationTesting.Shell
