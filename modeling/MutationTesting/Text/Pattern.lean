import MutationTesting.Decimal.Digits
import MutationTesting.Text.Expression
/-!
# Search patterns

Regular expressions as they are written, with groups, and with references to what the groups
matched. Of the matches of a pattern the one counts that begins first, and of those the longest.

Patterns are written in two ways. In the extended one `( ) | + ? { }` have a meaning and lose it
after a backslash; in the basic one it is the other way round.

## Main definitions

* `Pattern`, `Pattern.ofText?`
* `Pattern.expression?` — the same without groups, if there are no references
* `Pattern.matchAt?`, `Pattern.search?` — a match and what its groups matched
-/

namespace MutationTesting

/-- A regular expression as it is written. -/
inductive Pattern where
  | empty
  | one (s : CharSet)
  | lineStart
  | lineEnd
  /-- Between characters of which exactly the second one belongs to a word, or exactly the first
  one, or either of them, or neither. -/
  | wordStart
  | wordEnd
  | wordEdge
  | noWordEdge
  | seq (a b : Pattern)
  | alt (a b : Pattern)
  | times (a : Pattern) (least : Nat) (most : Option Nat)
  | group (n : Nat) (a : Pattern)
  /-- What a group matched. -/
  | again (n : Nat)

/-- Where the groups of a match begin and end. -/
abbrev Groups := List (Nat × Nat × Nat)

/-- A match: where it begins and ends, and its groups. -/
structure PatternMatch where
  start : Nat
  stop : Nat
  groups : Groups

namespace Pattern

/-- The character belongs to words. -/
def isWordCharacter (c : Char) : Bool := c.isAlphanum || c = '_'

/-! ### Matching -/

/-- The pattern without groups; none if there are references or edges of words in it. -/
def expression? : Pattern → Option Expression
  | .empty => some .empty
  | .one s => some (.one s)
  | .lineStart => some .lineStart
  | .lineEnd => some .lineEnd
  | .seq a b => do return (← expression? a).andThen (← expression? b)
  | .alt a b => do return (← expression? a).or (← expression? b)
  | .times a least most => do return (← expression? a).times least most
  | .group _ a => expression? a
  | .wordStart | .wordEnd | .wordEdge | .noWordEdge | .again _ => none

/-- What is tried with the end of a match and its groups. -/
abbrev Onward (α : Type) := Nat → Groups → Option α

/-- Matches a part as often as wanted, rather more often than less. The first argument bounds how
often. -/
def repeatedly {α : Type} (step : Nat → Groups → Onward α → Option α) :
    Nat → Nat → Option Nat → Nat → Groups → Onward α → Option α
  | 0, _, _, _, _, _ => none
  | n + 1, least, most, i, gs, next =>
    let fewer := most.map (· - 1)
    if 0 < least then step i gs fun j gs => repeatedly step n (least - 1) fewer j gs next
    else
      let more? :=
        if most = some 0 then none
        else step i gs fun j gs => if j = i then none else repeatedly step n 0 fewer j gs next
      match more? with
      | some a => some a
      | none => next i gs

/-- Matches a pattern at a place, and goes on with what follows. -/
def follow {α : Type} (text : Array Char) : Pattern → Nat → Groups → Onward α → Option α
  | .empty, i, gs, next => next i gs
  | .one s, i, gs, next =>
    match text[i]? with
    | some c => if s c then next (i + 1) gs else none
    | none => none
  | .lineStart, i, gs, next => if i = 0 then next i gs else none
  | .lineEnd, i, gs, next => if i = text.size then next i gs else none
  | .wordStart, i, gs, next => if !before i && after i then next i gs else none
  | .wordEnd, i, gs, next => if before i && !after i then next i gs else none
  | .wordEdge, i, gs, next => if before i != after i then next i gs else none
  | .noWordEdge, i, gs, next => if before i = after i then next i gs else none
  | .seq a b, i, gs, next => follow text a i gs fun j gs => follow text b j gs next
  | .alt a b, i, gs, next =>
    match follow text a i gs next with
    | some r => some r
    | none => follow text b i gs next
  | .times a least most, i, gs, next =>
    repeatedly (follow text a) (text.size + least + 2) least most i gs next
  | .group n a, i, gs, next =>
    follow text a i gs fun j gs => next j ((n, i, j) :: gs.filter (·.1 != n))
  | .again n, i, gs, next =>
    match gs.lookup n with
    | none => none
    | some (low, high) =>
      let size := high - low
      if text.extract low high = text.extract i (i + size) then next (i + size) gs
      else none
where
  /-- The character before a place belongs to a word. -/
  before (i : Nat) : Bool := i != 0 && (text[i - 1]?).any isWordCharacter
  /-- The character at a place belongs to a word. -/
  after (i : Nat) : Bool := (text[i]?).any isWordCharacter

/-- The match that begins at a place of a text, with what stands from there on. Without references
it is the longest one. -/
def matchAt? (p : Pattern) (e? : Option Expression) (text : Array Char) (rest : List Char)
    (i : Nat) : Option PatternMatch :=
  match e? with
  | some e =>
    match e.longest? (i = 0) rest with
    | none => none
    | some n =>
      follow text p i [] fun j gs => if j = i + n then some ⟨i, j, gs⟩ else none
  | none => follow text p i [] fun j gs => some ⟨i, j, gs⟩

/-- The first match that begins at a place of a text, with what stands from there on, or later. -/
def searchFrom (p : Pattern) (e? : Option Expression) (text : Array Char) :
    List Char → Nat → Option PatternMatch
  | [], i => p.matchAt? e? text [] i
  | c :: rest, i =>
    match p.matchAt? e? text (c :: rest) i with
    | some m => some m
    | none => searchFrom p e? text rest (i + 1)

/-- The first match in a text. -/
def search? (p : Pattern) (text : List Char) : Option PatternMatch :=
  p.searchFrom p.expression? text.toArray text 0

/-- There is a match in a line. -/
def occursIn (p : Pattern) (line : List Char) : Bool :=
  match p.expression? with
  | some e => e.occursIn line
  | none => (p.search? line).isSome

/-- The pattern without regard to upper and lower case. -/
def caseless : Pattern → Pattern
  | .one s => .one s.caseless
  | .seq a b => .seq a.caseless b.caseless
  | .alt a b => .alt a.caseless b.caseless
  | .times a least most => .times a.caseless least most
  | .group n a => .group n a.caseless
  | p => p

/-- The pattern as a whole line. -/
def wholeLine (p : Pattern) : Pattern := .seq .lineStart (.seq p .lineEnd)

/-- The pattern of a text that stands for itself. -/
def ofLiteral (text : List Char) : Pattern :=
  text.foldr (fun c rest => .seq (.one (CharSet.single c)) rest) .empty

/-! ### Writing -/

/-- A way in which patterns are written. -/
structure Writing where
  extended : Bool
  /-- Letters after a backslash can stand for characters that do not print. -/
  hasEscapes : Bool
  /-- An operator must not stand where there is nothing that it could apply to. -/
  isStrict : Bool

/-- How far a pattern has been read. -/
structure Progress where
  rest : List Char
  /-- How many groups were opened. -/
  opened : Nat
  /-- The groups that were closed. -/
  closed : List Nat

/-- A reader of patterns, which can find something wrong. -/
abbrev PatternReader := StateT Progress (Except String)

namespace PatternReader

variable (w : Writing)

/-- Goes on after so many characters. -/
def skip (n : Nat) : PatternReader Unit := modify fun p => { p with rest := p.rest.drop n }

/-- An operator stands at the beginning of a text: by itself in the extended way of writing, and
after a backslash in the basic one. -/
def isOperator (c : Char) (text : List Char) : Bool :=
  if w.extended then text.head? = some c else text.head? = some '\\' && text[1]? = some c

/-- How many characters an operator has. -/
def operatorSize : Nat := if w.extended then 1 else 2

/-- The numbers of times in braces, after the opening one, and the number of characters with the
closing one. -/
def bounds? (text : List Char) : Option (Nat × Option Nat × Nat) := do
  let number (cs : List Char) : Option Nat := (cs.mapM Decimal.digitValue?).map Decimal.ofDigits
  let low := text.takeWhile Char.isDigit
  let rest := text.drop low.length
  let (high, size, rest) ← match rest with
    | ',' :: rest =>
      let digits := rest.takeWhile Char.isDigit
      some (if digits.isEmpty then none else number digits, low.length + 1 + digits.length,
        rest.drop digits.length)
    | _ => if low.isEmpty then none else some (number low, low.length, rest)
  let closing := if w.extended then ['}'] else ['\\', '}']
  let least := (number low).getD 0
  if closing.isPrefixOf rest && high.all (least ≤ ·) then
    some (least, high, size + closing.length)
  else none

/-- The repetition at the cursor: how often at least and at most, and its size. -/
def repetition? (text : List Char) : Option (Nat × Option Nat × Nat) :=
  let size := operatorSize w
  if text.head? = some '*' then some (0, none, 1)
  else if isOperator w '+' text then some (1, none, size)
  else if isOperator w '?' text then some (0, some 1, size)
  else if isOperator w '{' text then
    (bounds? w (text.drop size)).map fun (low, high, n) => (low, high, n + size)
  else none

/-- What is said of an operator where there is nothing that it could apply to. -/
def misplaced : String := "Invalid preceding regular expression"

/-- The repetitions after a part. -/
def repetitions : Nat → Pattern → PatternReader Pattern
  | 0, p => return p
  | n + 1, p => do
    let text := (← get).rest
    match repetition? w text, p with
    | some (least, most, size), p =>
      match p with
      | .times .. => if w.isStrict && !w.extended then throw misplaced
      | .lineStart => if w.isStrict then throw misplaced
      | _ => pure ()
      skip size
      repetitions n (.times p least most)
    | none, _ =>
      if isOperator w '{' text then
        let rest := text.drop (operatorSize w)
        let numbers := rest.takeWhile fun c => c.isDigit || c = ','
        let isClosed := isOperator w '}' (rest.drop numbers.length)
        if isClosed && !numbers.isEmpty then throw "Invalid content of \\\x7b\\\x7d"
        else if w.extended && !w.isStrict then return p
        else if numbers.length = rest.length then throw "Unmatched \\\x7b"
        else throw "Invalid content of \\\x7b\\\x7d"
      else return p

/-- The character behind a backslash and a letter, where that is one that does not print. -/
def controlCharacter? (c : Char) : Option Char :=
  match c with
  | 'n' => some '\n'
  | 't' => some '\t'
  | 'f' => some '\x0c'
  | 'v' => some '\x0b'
  | 'a' => some '\x07'
  | 'r' => some '\r'
  | _ => none

/-- What a character after a backslash means. -/
def escaped (c : Char) : PatternReader Pattern := do
  let isBlank (c : Char) : Bool := c = ' ' || CharSet.range '\t' '\r' c
  match c with
  | 'w' => return .one isWordCharacter
  | 'W' => return .one fun c => !isWordCharacter c
  | 's' => return .one isBlank
  | 'S' => return .one fun c => !isBlank c
  | '<' => return .wordStart
  | '>' => return .wordEnd
  | 'b' => return .wordEdge
  | 'B' => return .noWordEdge
  | '`' => return .lineStart
  | '\'' => return .lineEnd
  | c =>
    match Decimal.digitValue? c with
    | some (n + 1) =>
      if (← get).closed.contains (n + 1) then return .again (n + 1)
      else throw "Invalid back reference"
    | _ =>
      match if w.hasEscapes then controlCharacter? c else none with
      | some d => return .one (CharSet.single d)
      | none => return .one (CharSet.single c)

/-- The end of a part, or of the pattern. -/
def isAtEnd (depth : Nat) (text : List Char) : Bool :=
  text.isEmpty || isOperator w '|' text
    || (isOperator w ')' text && (depth != 0 || (w.extended && w.isStrict)))

/-- A single part, the first of several or not, given how a list of alternatives is read. -/
def atom (depth : Nat) (first : Bool) (alternatives : PatternReader Pattern) :
    PatternReader Pattern := do
  let text := (← get).rest
  if isOperator w '(' text then
    skip (operatorSize w)
    let n := (← get).opened + 1
    modify fun p => { p with opened := n }
    let inner ← alternatives
    if isOperator w ')' (← get).rest then
      skip (operatorSize w)
      modify fun p => { p with closed := n :: p.closed }
      return .group n inner
    else throw "Unmatched ( or \\("
  else
    match text with
    | [] => return .empty
    | ['\\'] => throw "Trailing backslash"
    | '\\' :: c :: _ =>
      if !w.extended && c = ')' && depth = 0 then throw "Unmatched ) or \\)"
      else if !w.extended && w.isStrict && c = '{' then throw misplaced
      else
        skip 2
        escaped w c
    | '.' :: _ =>
      skip 1
      return .one fun _ => true
    | '[' :: rest =>
      match CharSet.bracketFault? rest, CharSet.bracket? ['^'] rest with
      | some fault, _ => throw fault
      | none, some (s, after) =>
        skip (rest.length - after.length + 1)
        if w.hasEscapes then return .one (withEscapes s (rest.take (rest.length - after.length)))
        else return .one s
      | none, none => throw "Unmatched [, [^, [:, [., or [="
    | '^' :: _ =>
      skip 1
      if w.extended || first then return .lineStart else return .one (CharSet.single '^')
    | '$' :: rest =>
      skip 1
      if w.extended || isAtEnd w depth rest then return .lineEnd
      else return .one (CharSet.single '$')
    | c :: _ =>
      skip 1
      return .one (CharSet.single c)
where
  /-- In a set too the letter after a backslash can stand for another character. -/
  withEscapes (s : CharSet) (text : List Char) : CharSet :=
    let hasPair (a b : Char) : Bool :=
      (text.zip (text.drop 1)).any fun pair => pair = (a, b)
    let negative := text.head? = some '^'
    let s := if hasPair '\\' 'n' then fun c => if c = '\n' then !negative else s c else s
    if hasPair '\\' 't' then fun c => if c = '\t' then !negative else s c else s

/-- Parts one after the other. -/
def parts (depth : Nat) (alternatives : PatternReader Pattern) :
    Nat → Bool → PatternReader Pattern
  | 0, _ => return .empty
  | n + 1, first => do
    let text := (← get).rest
    if isAtEnd w depth text then
      if w.extended && depth = 0 && isOperator w ')' text then throw "Unmatched ) or \\)"
      else return .empty
    else if first && w.extended && (repetition? w text).isSome then
      if w.isStrict then throw misplaced
      skip (((repetition? w text).map (·.2.2)).getD 1)
      parts depth alternatives n true
    else if first && !w.extended && text.head? = some '*' then
      skip 1
      let p ← repetitions w (text.length + 1) (.one (CharSet.single '*'))
      return .seq p (← parts depth alternatives n false)
    else
      let p ← atom w depth first alternatives
      match p with
      | .lineStart =>
        if w.extended then
          let p ← repetitions w (text.length + 1) p
          return .seq p (← parts depth alternatives n false)
        else return .seq p (← parts depth alternatives n true)
      | p =>
        let p ← repetitions w (text.length + 1) p
        return .seq p (← parts depth alternatives n false)

/-- Alternatives, given how those inside brackets are read. -/
def choices (depth : Nat) (inner : PatternReader Pattern) : Nat → PatternReader Pattern
  | 0 => return .empty
  | n + 1 => do
    let a ← parts w depth inner ((← get).rest.length + 1) true
    if isOperator w '|' (← get).rest then
      skip (operatorSize w)
      return .alt a (← choices depth inner n)
    else return a

/-- A pattern inside so many brackets, with brackets nested to the given depth. -/
def nested : Nat → Nat → PatternReader Pattern
  | 0, _ => throw "Regular expression too big"
  | n + 1, depth => do
    choices w depth (nested n (depth + 1)) ((← get).rest.length + 1)

end PatternReader

/-- The pattern that a text is, or what is wrong with it. -/
def ofText? (w : Writing) (text : List Char) : Except String Pattern :=
  match (PatternReader.nested w (text.length + 2) 0).run ⟨text, 0, []⟩ with
  | .ok (p, _) => .ok p
  | .error e => .error e

end Pattern

namespace PatternMatch

/-- The text that a group of a match matched; zero is the whole match. -/
def textOf (m : PatternMatch) (text : Array Char) (n : Nat) : List Char :=
  let (low, high) := if n = 0 then (m.start, m.stop) else (m.groups.lookup n).getD (0, 0)
  (text.extract low high).toList

end PatternMatch

end MutationTesting
