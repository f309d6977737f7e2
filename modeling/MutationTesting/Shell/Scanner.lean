import MutationTesting.Decimal.Digits
import MutationTesting.Shell.Syntax
/-!
# Reading scripts: tokens

A script is read from its beginning, a token at a time. The lines of a document that is written
into a script follow the line in which it is announced; they are read with the end of that line.

A script inside a word ends with the bracket that closes it. To find the bracket the script has to
be read, and therefore the readers here are given one for such scripts.

## Main definitions

* `Cursor`, `SyntaxFault`, `Reader`
* `scan` — the parts of a word, by the place where it stands
* `Token`, `nextToken`
-/

namespace MutationTesting.Shell

/-- What is wrong with a script, and where. -/
structure SyntaxFault where
  line : Nat
  message : Octets

/-- A document that a script announced. -/
structure Announcement where
  number : Nat
  /-- The line that ends it. -/
  last : Octets
  /-- Nothing is put into the places of its parameters. -/
  literal : Bool
  /-- Tabs at the beginning of its lines do not count. -/
  strip : Bool

/-- How far a script has been read. -/
structure Cursor where
  rest : Octets
  line : Nat
  announced : List Announcement
  /-- The documents that were read, by their numbers. -/
  documents : List (Nat × Word)
  /-- The number of the next document. -/
  nextDocument : Nat
  /-- Texts that take the places of words with which commands begin. -/
  aliases : List (Octets × Octets)
  /-- The words that had such a text, with the number of characters after it. -/
  active : List (Octets × Nat)

namespace Cursor

/-- The beginning of a script. -/
def start (script : Octets) (line nextDocument : Nat) : Cursor :=
  ⟨script, line, [], [], nextDocument, [], []⟩

end Cursor

/-- A reader of scripts. -/
abbrev Reader := StateT Cursor (Except SyntaxFault)

namespace Reader

/-- Gives up reading. -/
def fail {α : Type} (message : String) : Reader α := do
  throw ⟨(← get).line, message.toList⟩

/-- Goes on after so many characters. -/
def skip (n : Nat) : Reader Unit :=
  modify fun c => { c with rest := c.rest.drop n, line := c.line + (c.rest.take n).count '\n' }

/-- Takes the characters as long as they are of a kind. -/
def takeWhile (p : Char → Bool) : Reader Octets := do
  let taken := (← get).rest.takeWhile p
  skip taken.length
  return taken

end Reader

/-! ### Words -/

/-- Where the parts of a word stand. -/
inductive Place where
  /-- By themselves, up to a character that ends words. -/
  | bare
  /-- Up to a double quote. -/
  | double
  /-- Up to a closing brace, in double quotes or not, and there as a pattern or not. -/
  | brace (inDouble pattern : Bool)
  /-- Up to the brackets that close a formula, so many brackets being open in it. -/
  | formula (depth : Nat)
  /-- In a document, up to its end. -/
  | document
  deriving DecidableEq

namespace Place

/-- Parts in the place are quoted. -/
def quotes : Place → Bool
  | .bare => false
  | .brace inDouble pattern => inDouble && !pattern
  | _ => true

/-- Single quotes have a meaning in the place. -/
def hasSingle : Place → Bool
  | .bare | .brace false _ | .brace true true => true
  | _ => false

/-- Double quotes have a meaning in the place. -/
def hasDouble : Place → Bool
  | .document => false
  | _ => true

end Place

/-- A word is ended by the character. -/
def endsWord (c : Char) : Bool := " \t\n;&|<>()".toList.contains c

/-- The character means nothing but itself anywhere. -/
def isOrdinary (c : Char) : Bool := !("'\"\\$`\x7d()".toList.contains c || endsWord c)

/-- The character is a name of a parameter by itself. -/
def isParameter (c : Char) : Bool := c.isDigit || "?$#@*!-".toList.contains c

/-- Text at the end of parts, the last first. -/
def addText (quoted : Bool) (cs : Octets) (parts : List WordPart) : List WordPart :=
  match parts with
  | .text before q :: rest =>
    if q = quoted then .text (before ++ cs) q :: rest else .text cs quoted :: parts
  | _ => .text cs quoted :: parts

/-- The operation that is written after the name of a parameter, and the number of its
characters. -/
def operation (text : Octets) : Operation × Nat :=
  match text with
  | '}' :: _ => (.value, 0)
  | ':' :: '-' :: _ => (.default true, 2)
  | '-' :: _ => (.default false, 1)
  | ':' :: '=' :: _ => (.assign true, 2)
  | '=' :: _ => (.assign false, 1)
  | ':' :: '?' :: _ => (.demand true, 2)
  | '?' :: _ => (.demand false, 1)
  | ':' :: '+' :: _ => (.replace true, 2)
  | '+' :: _ => (.replace false, 1)
  | '#' :: '#' :: _ => (.cutFront true, 2)
  | '#' :: _ => (.cutFront false, 1)
  | '%' :: '%' :: _ => (.cutBack true, 2)
  | '%' :: _ => (.cutBack false, 1)
  | _ => (.unknown, 0)

/-- The operation makes use of a pattern. -/
def Operation.hasPattern : Operation → Bool
  | .cutFront _ | .cutBack _ => true
  | _ => false

/-- The name of a parameter at the beginning of a text; none if there is none. -/
def parameterName (text : Octets) : Octets :=
  match text with
  | c :: rest =>
    if beginsName c then c :: rest.takeWhile continuesName
    else if c.isDigit then c :: rest.takeWhile Char.isDigit
    else if isParameter c then [c]
    else []
  | [] => []

/-- A script between grave accents, from after the first of them. A backslash is taken away before
a dollar sign, a grave accent, a backslash, and before a double quote if the script stands in
them. -/
def graveScript (inDouble : Bool) : Octets → Octets → Option (Octets × Octets)
  | _, [] => none
  | inner, '`' :: rest => some (inner.reverse, rest)
  | inner, '\\' :: c :: rest =>
    if "$`\\".toList.contains c || (inDouble && c = '"') then graveScript inDouble (c :: inner) rest
    else graveScript inDouble (c :: '\\' :: inner) rest
  | inner, c :: rest => graveScript inDouble (c :: inner) rest

section

/-! The argument `nested` reads a script up to the bracket that closes it, and not the bracket. -/

variable (nested : Reader Unit)

/-- What follows a dollar sign. -/
def dollarPart (scan : Place → Reader (List WordPart)) (place : Place) : Reader WordPart := do
  let quoted := place.quotes
  match (← get).rest with
  | '(' :: '(' :: _ =>
    Reader.skip 2
    return .formula (← scan (.formula 0)) quoted
  | '(' :: _ =>
    Reader.skip 1
    let before ← get
    nested
    let after ← get
    Reader.skip 1
    return .output (before.rest.take (before.rest.length - after.rest.length)) quoted
  | '{' :: rest =>
    Reader.skip 1
    let inBraces (length : Bool) (name : Octets) : Reader WordPart := do
      Reader.skip name.length
      let (op, size) := operation (← get).rest
      Reader.skip size
      let argument ← scan (.brace quoted op.hasPattern)
      return .parameter name (if length then (if op = .value then .length else .unknown) else op)
        argument quoted
    match rest with
    | '#' :: '}' :: _ => inBraces false ['#']
    | '#' :: more =>
      let name := parameterName more
      if name.isEmpty || (more.drop name.length).head? != some '}' then inBraces false ['#']
      else
        Reader.skip 1
        inBraces true name
    | _ => inBraces false (parameterName rest)
  | rest =>
    let name := match rest with
      | c :: _ => if c.isDigit then [c] else parameterName rest
      | [] => []
    if name.isEmpty then return .text ['$'] quoted
    else
      Reader.skip name.length
      return .parameter name .value [] quoted

/-- The parts of a word up to its end, which is read if it is a character of its own; those that
are known already come last. -/
def scan : Nat → Place → List WordPart → Reader (List WordPart)
  | 0, _, parts => return parts.reverse
  | n + 1, place, parts => do
    let quoted := place.quotes
    let goOn (size : Nat) (cs : Octets) (quoted : Bool) : Reader (List WordPart) := do
      Reader.skip size
      scan n place (addText quoted cs parts)
    match (← get).rest with
    | [] =>
      match place with
      | .bare | .document => return parts.reverse
      | .double => Reader.fail "Syntax error: Unterminated quoted string"
      | .brace .. => Reader.fail "Syntax error: Missing '\x7d'"
      | .formula _ => Reader.fail "Syntax error: Missing '))'"
    | '\\' :: '\n' :: _ =>
      Reader.skip 2
      scan n place parts
    | '\\' :: c :: _ =>
      let means := match place with
        | .bare | .brace false _ | .brace true true => true
        | .brace true false => "$`\"\\\x7d".toList.contains c
        | .document => "$`\\".toList.contains c
        | _ => "$`\"\\".toList.contains c
      if means then goOn 2 [c] true else goOn 1 ['\\'] true
    | ['\\'] => goOn 1 ['\\'] quoted
    | '$' :: _ =>
      Reader.skip 1
      let part ← dollarPart nested (fun place => scan n place []) place
      match part with
      | .text cs quoted => scan n place (addText quoted cs parts)
      | part => scan n place (part :: parts)
    | '`' :: rest =>
      match graveScript (place = .double) [] rest with
      | none => Reader.fail "Syntax error: EOF in backquote substitution"
      | some (inner, after) =>
        Reader.skip (rest.length + 1 - after.length)
        scan n place (.output inner quoted :: parts)
    | c :: rest =>
      if c = '\'' && place.hasSingle then
        let inner := rest.takeWhile (· != '\'')
        if inner.length = rest.length then
          Reader.fail "Syntax error: Unterminated quoted string"
        else
          Reader.skip (inner.length + 2)
          scan n place (.text inner true :: parts)
      else if c = '"' && place.hasDouble then
        Reader.skip 1
        match place with
        | .double => return parts.reverse
        | .formula _ => scan n place parts
        | _ =>
          let inner ← scan n .double []
          scan n place (inner.reverse ++ .text [] true :: parts)
      else
        match place with
        | .bare =>
          if endsWord c then return parts.reverse
          else
            let run := rest.takeWhile isOrdinary
            goOn (run.length + 1) (c :: run) false
        | .brace .. =>
          if c = '}' then
            Reader.skip 1
            return parts.reverse
          else
            let run := rest.takeWhile isOrdinary
            goOn (run.length + 1) (c :: run) quoted
        | .formula depth =>
          if c = '(' then
            Reader.skip 1
            scan n (.formula (depth + 1)) (addText quoted [c] parts)
          else if c = ')' then
            match depth with
            | depth + 1 =>
              Reader.skip 1
              scan n (.formula depth) (addText quoted [c] parts)
            | 0 =>
              if rest.head? = some ')' then
                Reader.skip 2
                return parts.reverse
              else goOn 1 [c] quoted
          else
            let run := rest.takeWhile isOrdinary
            goOn (run.length + 1) (c :: run) quoted
        | _ =>
          let run := rest.takeWhile isOrdinary
          goOn (run.length + 1) (c :: run) quoted

/-- The word at the cursor. -/
def scanWord : Reader Word := do
  scan nested ((← get).rest.length + 1) .bare []

/-! ### Documents -/

/-- The lines of a document up to its last one, and the text after that. -/
def documentLines (a : Announcement) : Nat → Octets → Octets × Octets
  | 0, text => ([], text)
  | n + 1, text =>
    if text = [] then ([], [])
    else
      let line := text.takeWhile (· != '\n')
      let feed := (text.drop line.length).take 1
      let rest := text.drop (line.length + 1)
      let line := if a.strip then line.dropWhile (· = '\t') else line
      if line = a.last then ([], rest)
      else
        let (more, rest) := documentLines a n rest
        (line ++ feed ++ more, rest)

/-- Reads the documents that were announced. -/
def readDocuments : Reader Unit := do
  let c ← get
  set { c with announced := [] }
  c.announced.forM fun a => do
    let text := (← get).rest
    let (body, rest) := documentLines a (text.length + 1) text
    Reader.skip (text.length - rest.length)
    let word ←
      if a.literal then pure [.text body true]
      else do
        let c ← get
        set { c with rest := body }
        let word ← scan nested (body.length + 1) .document []
        set c
        pure word
    modify fun c => { c with documents := (a.number, word) :: c.documents }

/-! ### Tokens -/

/-- A token of a script. -/
inductive Token where
  | word (w : Word)
  | operator (cs : String)
  | redirect (descriptor : Nat) (connection : Connection)
  /-- Announces a document, whose lines may be stripped. -/
  | announce (descriptor : Nat) (strip : Bool)
  | newline
  | finish

/-- The redirection at the beginning of a text, with the number of its characters. -/
def redirection? (text : Octets) : Option (Token × Nat) :=
  let (digit, text) : Option Nat × Octets := match text with
    | c :: rest =>
      if c.isDigit && (rest.head? = some '<' || rest.head? = some '>') then
        (Decimal.digitValue? c, rest)
      else (none, text)
    | [] => (none, text)
  let found (default : Nat) (make : Nat → Token) (size : Nat) : Option (Token × Nat) :=
    some (make (digit.getD default), size + if digit.isSome then 1 else 0)
  match text with
  | '>' :: '>' :: _ => found 1 (.redirect · .append) 2
  | '>' :: '&' :: _ => found 1 (.redirect · .duplicate) 2
  | '>' :: '|' :: _ => found 1 (.redirect · .overwrite) 2
  | '>' :: _ => found 1 (.redirect · .write) 1
  | '<' :: '<' :: '-' :: _ => found 0 (.announce · true) 3
  | '<' :: '<' :: _ => found 0 (.announce · false) 2
  | '<' :: '&' :: _ => found 0 (.redirect · .duplicate) 2
  | '<' :: '>' :: _ => found 0 (.redirect · .both) 2
  | '<' :: _ => found 0 (.redirect · .read) 1
  | _ => none

/-- The operator at the beginning of a text. -/
def operator? (text : Octets) : Option String :=
  match text with
  | '&' :: '&' :: _ => some "&&"
  | '|' :: '|' :: _ => some "||"
  | ';' :: ';' :: _ => some ";;"
  | c :: _ => if ";&|()".toList.contains c then some (String.singleton c) else none
  | [] => none

/-- Goes on after blanks, joined lines and a comment. -/
def skipBlanks : Nat → Reader Unit
  | 0 => return ()
  | n + 1 => do
    match (← get).rest with
    | ' ' :: _ | '\t' :: _ =>
      let _ ← Reader.takeWhile fun c => c = ' ' || c = '\t'
      skipBlanks n
    | '\\' :: '\n' :: _ =>
      Reader.skip 2
      skipBlanks n
    | '#' :: _ =>
      let _ ← Reader.takeWhile (· != '\n')
      skipBlanks n
    | _ => return ()

/-- The next token. -/
def nextToken : Reader Token := do
  skipBlanks ((← get).rest.length + 1)
  let text := (← get).rest
  match text with
  | [] =>
    readDocuments nested
    return .finish
  | '\n' :: _ =>
    Reader.skip 1
    readDocuments nested
    return .newline
  | _ =>
    match redirection? text with
    | some (token, size) =>
      Reader.skip size
      return token
    | none =>
      match operator? text with
      | some op =>
        Reader.skip op.length
        return .operator op
      | none => return .word (← scanWord nested)

end

end MutationTesting.Shell
