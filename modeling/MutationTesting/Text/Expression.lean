import MutationTesting.Text.CharSet
/-!
# Search expressions

Regular expressions over the characters of a line, with marks for its beginning and its end. What
an expression may still match after a character is an expression again, so that a line is searched
without going back.

## Main definitions

* `Expression`, `Expression.accepts`, `Expression.after`
* `Expression.longest?`, `Expression.occursIn`, `Expression.matchesIn`
* `Expression.lengths` — all matches at a place
-/

namespace MutationTesting

/-- A set of stretches of lines. -/
inductive Expression where
  | never
  | empty
  /-- Nothing, at the beginning of the line. -/
  | lineStart
  /-- Nothing, at the end of the line. -/
  | lineEnd
  | one (s : CharSet)
  | seq (a b : Expression)
  | alt (a b : Expression)
  | many (a : Expression)

namespace Expression

/-- One expression after the other. -/
def andThen : Expression → Expression → Expression
  | .never, _ => .never
  | .empty, b => b
  | _, .never => .never
  | a, b => .seq a b

/-- Either of two expressions. -/
def or : Expression → Expression → Expression
  | .never, b => b
  | a, .never => a
  | a, b => .alt a b

/-- Nothing can be matched any more. -/
def isNever : Expression → Bool
  | .never => true
  | _ => false

/-- The empty stretch is matched, at the beginning or the end of a line if so said. -/
def accepts (start stop : Bool) : Expression → Bool
  | .never => false
  | .empty => true
  | .lineStart => start
  | .lineEnd => stop
  | .one _ => false
  | .seq a b => accepts start stop a && accepts start stop b
  | .alt a b => accepts start stop a || accepts start stop b
  | .many _ => true

/-- What may follow a character. -/
def after (start : Bool) (c : Char) : Expression → Expression
  | .never | .empty | .lineStart | .lineEnd => .never
  | .one s => if s c then .empty else .never
  | .seq a b =>
    ((after start c a).andThen b).or (if accepts start false a then after start c b else .never)
  | .alt a b => (after start c a).or (after start c b)
  | .many a => (after start c a).andThen (.many a)

/-- The length of the longest match at the beginning of a text that ends a line. -/
def longest? (start : Bool) (e : Expression) : List Char → Option Nat
  | [] => if e.accepts start true then some 0 else none
  | c :: rest =>
    if e.isNever then none
    else
      match longest? false (e.after start c) rest with
      | some n => some (n + 1)
      | none => if e.accepts start false then some 0 else none

/-- The lengths of all matches at the beginning of a text that ends a line, the longest first. -/
def lengths (start : Bool) (e : Expression) (text : List Char) : List Nat :=
  go start e text 0 []
where
  /-- The lengths of the matches from a length on, before those that were found. -/
  go (start : Bool) (e : Expression) : List Char → Nat → List Nat → List Nat
    | [], n, found => if e.accepts start true then n :: found else found
    | c :: rest, n, found =>
      if e.isNever then found
      else
        go false (e.after start c) rest (n + 1)
          (if e.accepts start false then n :: found else found)

/-- There is a match in a text that ends a line. -/
def occursFrom (e : Expression) (start : Bool) : List Char → Bool
  | [] => e.accepts start true
  | c :: rest => (e.longest? start (c :: rest)).isSome || occursFrom e false rest

/-- There is a match in a line. -/
def occursIn (e : Expression) (line : List Char) : Bool := e.occursFrom true line

/-- The matches in a text that ends a line, each as early and then as long as possible; empty ones
do not count. -/
def matchesFrom (e : Expression) (start : Bool) : List Char → List (List Char)
  | [] => []
  | c :: rest =>
    match e.longest? start (c :: rest) with
    | some (n + 1) => (c :: rest.take n) :: matchesFrom e false (rest.drop n)
    | _ => matchesFrom e false rest
termination_by text => text.length

/-- The matches in a line. -/
def matchesIn (e : Expression) (line : List Char) : List (List Char) := e.matchesFrom true line

/-- An expression at least and at most so many times. -/
def times (e : Expression) (least : Nat) : Option Nat → Expression
  | none => (List.replicate least e).foldr andThen (.many e)
  | some most =>
    (List.replicate least e).foldr andThen
      ((List.replicate (most - least) e).foldr (fun e rest => Expression.or .empty (e.andThen rest))
        .empty)

/-- The expression of a text that stands for itself. -/
def ofText (text : List Char) : Expression :=
  text.foldr (fun c rest => (Expression.one (CharSet.single c)).andThen rest) .empty

/-- The expression without regard to upper and lower case. -/
def caseless : Expression → Expression
  | .one s => .one s.caseless
  | .seq a b => .seq a.caseless b.caseless
  | .alt a b => .alt a.caseless b.caseless
  | .many a => .many a.caseless
  | e => e

/-- The expression as a whole line. -/
def wholeLine (e : Expression) : Expression := .seq .lineStart (.seq e .lineEnd)

end Expression

end MutationTesting
