import MutationTesting.Text.Pattern
import MutationTesting.Tool.Basic
/-!
# Values

The program `expr`: the value of an expression whose operators and operands are arguments. Values
are texts; those that are integers can be added and compared as such.

## Main definitions

* `Value.value` — the value of words, or what is wrong
* `expr`
-/

namespace MutationTesting.Tool

open Act

namespace Value

/-- What came of the first words, and the words after them. -/
abbrev Result := Except Octets (Octets × List Octets)

/-- A reader of operands. -/
abbrev Operand := List Octets → Result

/-- A value that counts as false. -/
def isNull (v : Octets) : Bool := v.isEmpty || (intOf? v).any (· = 0)

/-- The integer that a value is. -/
def integer (v : Octets) : Except Octets Int :=
  match v.head? with
  | some '+' => .error (octets "non-integer argument")
  | _ =>
    match intOf? v with
    | some n => .ok n
    | none => .error (octets "non-integer argument")

/-- A truth value. -/
def truth (b : Bool) : Octets := if b then ['1'] else ['0']

/-- What a pattern matches at the beginning of a text: its first group, or how much. -/
def matched (text pattern : Octets) : Except Octets Octets :=
  match Pattern.ofText? ⟨false, false, false⟩ pattern with
  | .error e => .error (octets e)
  | .ok p =>
    let hasGroup := (pattern.zip (pattern.drop 1)).contains ('\\', '(')
    let all := text.toArray
    match p.matchAt? p.expression? all text 0 with
    | some m => .ok (if hasGroup then m.textOf all 1 else Decimal.natText m.stop)
    | none => .ok (if hasGroup then [] else ['0'])

/-- An operator on two values. -/
def combine (op : String) (a b : Octets) : Except Octets Octets := do
  let compared (o : Ordering) : Octets :=
    truth (match op with
      | "<" => o = .lt
      | "<=" => o != .gt
      | "=" | "==" => o = .eq
      | "!=" => o != .eq
      | ">=" => o != .lt
      | _ => o = .gt)
  match op with
  | "|" => return if isNull a then (if isNull b then ['0'] else b) else a
  | "&" => return if isNull a || isNull b then ['0'] else a
  | "+" => return Decimal.intText ((← integer a) + (← integer b))
  | "-" => return Decimal.intText ((← integer a) - (← integer b))
  | "*" => return Decimal.intText ((← integer a) * (← integer b))
  | "/" | "%" =>
    let x ← integer a
    let y ← integer b
    if y = 0 then throw (octets "division by zero")
    return Decimal.intText (if op = "/" then x.tdiv y else x.tmod y)
  | ":" => matched a b
  | _ =>
    match intOf? a, intOf? b with
    | some x, some y => return compared (compare x y)
    | _, _ => return compared (if a = b then .eq else if a < b then .lt else .gt)

/-- The operators, those that bind most loosely first. -/
def levels : List (List String) :=
  [["|"], ["&"], ["<", "<=", "=", "==", "!=", ">=", ">"], ["+", "-"], ["*", "/", "%"], [":"]]

/-- Operands joined by some operators, from left to right, after a first value. -/
def chain (operand : Operand) (ops : List String) : Nat → Octets → Operand
  | 0, a, words => .ok (a, words)
  | n + 1, a, words =>
    match words with
    | op :: rest =>
      if ops.contains (String.ofList op) then do
        if rest.isEmpty then throw (octets "syntax error: missing argument after " ++ quoted op)
        let (b, rest) ← operand rest
        chain operand ops n (← combine (String.ofList op) a b) rest
      else .ok (a, words)
    | [] => .ok (a, words)

/-- An expression with operators of the given levels. -/
def levelled (operand : Operand) : List (List String) → Operand
  | [], words => operand words
  | ops :: rest, words => do
    let (a, more) ← levelled operand rest words
    chain (levelled operand rest) ops (words.length + 1) a more

/-- The place of the first of some characters in a text, from one on; zero if there is none. -/
def placeOf (text characters : Octets) : Nat :=
  match text.findIdx? characters.contains with
  | some i => i + 1
  | none => 0

/-- A part of a text from a place on. -/
def part (text : Octets) (start count : Int) : Octets :=
  if start < 1 || count < 1 then [] else (text.drop (start - 1).toNat).take count.toNat

/-- A whole expression, with brackets nested to the given depth. -/
def whole : Nat → Operand
  | 0, _ => .error (octets "syntax error")
  | depth + 1, words =>
    let rec operand : Nat → Operand
      | 0, _ => .error (octets "syntax error")
      | n + 1, words => do
        match words with
        | [] => throw (octets "syntax error: missing argument after ''")
        | ['('] :: rest => do
          let (v, rest) ← whole depth rest
          match rest with
          | [')'] :: rest => return (v, rest)
          | [] => throw (octets "syntax error: expecting ')' after " ++ quoted v)
          | word :: _ => throw (octets "syntax error: expecting ')' instead of " ++ quoted word)
        | [')'] :: _ => throw (octets "syntax error: unexpected ')'")
        | ['+'] :: word :: rest => return (word, rest)
        | word :: rest =>
          match String.ofList word, rest with
          | "length", _ :: _ => do
            let (v, rest) ← operand n rest
            return (Decimal.natText v.length, rest)
          | "match", _ :: _ :: _ => do
            let (a, rest) ← operand n rest
            let (b, rest) ← operand n rest
            return (← matched a b, rest)
          | "index", _ :: _ :: _ => do
            let (a, rest) ← operand n rest
            let (b, rest) ← operand n rest
            return (Decimal.natText (placeOf a b), rest)
          | "substr", _ :: _ :: _ :: _ => do
            let (a, rest) ← operand n rest
            let (b, rest) ← operand n rest
            let (c, rest) ← operand n rest
            let v := match intOf? b, intOf? c with
              | some start, some count => part a start count
              | _, _ => []
            return (v, rest)
          | _, _ => return (word, rest)
    levelled (operand (words.length + 1)) levels words

/-- The value of words. -/
def value (words : List Octets) : Except Octets Octets := do
  let (v, rest) ← whole (words.length + 1) words
  match rest with
  | [] => return v
  | word :: _ => throw (octets "syntax error: unexpected argument " ++ quoted word)

end Value

/-- Writes the value of an expression. -/
def expr : Program := fun name args => do
  let args := if args.head? = some ['-', '-'] then args.drop 1 else args
  if args.isEmpty then misuse name 2 (octets "missing operand")
  else
    match Value.value args with
    | .ok v =>
      sayLine v
      return if Value.isNull v then 1 else 0
    | .error e => complain 2 (name ++ octets ": " ++ e)

end MutationTesting.Tool
