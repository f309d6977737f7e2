import MutationTesting.Decimal.Digits
import MutationTesting.Shell.Syntax
/-!
# Formulas

Integer formulas between double brackets. Operators bind as in C, numbers wrap around in 64 bits,
and division goes toward zero. A name stands for the number that its parameter holds, and a formula
can give a parameter a value.

## Main definitions

* `Formula`, `Formula.ofText`, `Formula.value`
* `number?` — the number that a text is
-/

namespace MutationTesting.Shell

/-- The digits of a number in a base of at most sixteen. -/
def digitsIn? (base : Nat) (text : Octets) : Option Nat :=
  if text.isEmpty then none
  else
    (text.mapM fun c => (Decimal.hexValue? c).filter (· < base)).map
      (·.foldl (fun n d => n * base + d) 0)

/-- A blank of the C locale. -/
def isSpace (c : Char) : Bool := c = ' ' || ('\t' ≤ c && c ≤ '\r')

/-- The number at the beginning of a text, if there is one: decimal, octal after a zero, hexadecimal
after `0x`; and the text after it. -/
def leadingNatural? (text : Octets) : Option (Nat × Octets) :=
  let digits (base : Nat) (text : Octets) : Octets :=
    text.takeWhile fun c => (Decimal.hexValue? c).any (· < base)
  let read (base : Nat) (text : Octets) : Option (Nat × Octets) :=
    let ds := digits base text
    (digitsIn? base ds).map (·, text.drop ds.length)
  match text with
  | '0' :: x :: more =>
    if (x = 'x' || x = 'X') && !(digits 16 more).isEmpty then read 16 more else read 8 text
  | _ => read 10 text

/-- The least number of 64 bits. -/
def leastInt : Int := -(Nat.pow 2 63 : Nat)

/-- The greatest number of 64 bits. -/
def greatestInt : Int := (Nat.pow 2 63 : Nat) - 1

/-- The number that a text is, with a sign and blanks around it; blanks alone are zero. A number
has to fit into 64 bits. -/
def number? (text : Octets) : Option Int :=
  let text := text.dropWhile isSpace
  if text.isEmpty then some 0
  else
    let (negative, digits) := match text with
      | '-' :: rest => (true, rest)
      | '+' :: rest => (false, rest)
      | _ => (false, text)
    match leadingNatural? digits with
    | none => none
    | some (n, rest) =>
      let value : Int := if negative then -(n : Int) else n
      if rest.all isSpace && leastInt ≤ value && value ≤ greatestInt then some value else none

/-- What is wrong with a formula. -/
inductive Formula.Fault where
  | division
  /-- The value of a parameter is no number. -/
  | badNumber (text : Octets)
  /-- Something else was expected. -/
  | expecting (what : String)

/-- A formula, as far as it could be read. -/
inductive Formula where
  | number (n : Int)
  | name (cs : Octets)
  | unary (op : String) (a : Formula)
  | binary (op : String) (a b : Formula)
  | choice (test yes no : Formula)
  /-- A parameter gets the value of the operator on its old value and the formula. -/
  | assign (name : Octets) (op : Option String) (a : Formula)
  /-- After a formula something else was expected. -/
  | broken (a : Formula) (what : String)

namespace Formula

/-- A token of a formula. -/
inductive Token where
  | number (n : Int)
  | name (cs : Octets)
  | sign (s : String)
  /-- A character that has no meaning in a formula. -/
  | other
  deriving DecidableEq

/-- The signs of two characters. -/
def longSigns : List String :=
  ["||", "&&", "==", "!=", "<=", ">=", "<<", ">>", "+=", "-=", "*=", "/=", "%=", "&=", "|=", "^="]

/-- The tokens of a formula. A first argument above its length is enough. -/
def tokens : Nat → Octets → List Token
  | 0, _ | _, [] => []
  | n + 1, c :: rest =>
    if isSpace c then tokens n rest
    else if c.isDigit then
      match leadingNatural? (c :: rest) with
      | some (value, rest) => .number (min value greatestInt) :: tokens n rest
      | none => .other :: tokens n rest
    else if beginsName c then
      let more := rest.takeWhile continuesName
      .name (c :: more) :: tokens n (rest.drop more.length)
    else
      let triple := String.ofList (c :: rest.take 2)
      let pair := String.ofList (c :: rest.take 1)
      if triple = "<<=" || triple = ">>=" then .sign triple :: tokens n (rest.drop 2)
      else if longSigns.contains pair then .sign pair :: tokens n (rest.drop 1)
      else if "+-*/%<>!~&|^()?:=".toList.contains c then .sign (String.singleton c) :: tokens n rest
      else .other :: tokens n rest

/-- The signs of operators between two operands, those that bind most loosely first. -/
def levels : List (List String) :=
  [["||"], ["&&"], ["|"], ["^"], ["&"], ["==", "!="], ["<=", ">=", "<", ">"], ["<<", ">>"],
    ["+", "-"], ["*", "/", "%"]]

/-- The signs that give a parameter a value, with the operators in them. -/
def assignments : List (String × Option String) :=
  [("=", none), ("+=", some "+"), ("-=", some "-"), ("*=", some "*"), ("/=", some "/"),
    ("%=", some "%"), ("&=", some "&"), ("|=", some "|"), ("^=", some "^"), ("<<=", some "<<"),
    (">>=", some ">>")]

/-- A reader of formulas: a formula, and the tokens after it. Nothing is read after a fault. -/
abbrev Parser := List Token → Formula × List Token

/-- Operands joined by the given operators after a first operand, from left to right. -/
def chain (operand : Parser) (ops : List String) : Nat → Formula → Parser
  | 0, a, ts => (a, ts)
  | n + 1, a, ts =>
    match ts with
    | .sign op :: rest =>
      if ops.contains op then
        let (b, rest) := operand rest
        chain operand ops n (.binary op a b) rest
      else (a, ts)
    | _ => (a, ts)

/-- A formula with operators of the given levels. -/
def levelled (operand : Parser) : List (List String) → Parser
  | [], ts => operand ts
  | ops :: rest, ts =>
    let (a, more) := levelled operand rest ts
    chain (levelled operand rest) ops (ts.length + 1) a more

/-- An operand: a number, a parameter, a formula in brackets, or an operand with a sign. -/
def operand (inner : Parser) : Nat → Parser
  | 0, _ => (.broken (.number 0) "primary", [])
  | n + 1, ts =>
    match ts with
    | .number k :: rest => (.number k, rest)
    | .name cs :: rest => (.name cs, rest)
    | .sign "(" :: rest =>
      match inner rest with
      | (a, .sign ")" :: rest) => (a, rest)
      | (a, _) => (.broken a "')'", [])
    | .sign op :: rest =>
      if ["-", "+", "!", "~"].contains op then
        let (a, rest) := operand inner n rest
        (.unary op a, rest)
      else (.broken (.number 0) "primary", [])
    | _ => (.broken (.number 0) "primary", [])

/-- A formula that does not begin with a parameter that gets a value. -/
def conditional (inner : Parser) : Nat → Parser
  | 0, _ => (.broken (.number 0) "primary", [])
  | n + 1, ts =>
    let (test, rest) := levelled (operand inner (ts.length + 1)) levels ts
    match rest with
    | .sign "?" :: rest =>
      match inner rest with
      | (yes, .sign ":" :: rest) =>
        let (no, rest) := conditional inner n rest
        (.choice test yes no, rest)
      | (yes, _) => (.broken (.choice test yes (.number 0)) "':'", [])
    | _ => (test, rest)

/-- A whole formula, with brackets nested to the given depth. -/
def whole : Nat → Parser
  | 0, _ => (.broken (.number 0) "primary", [])
  | n + 1, ts =>
    match ts with
    | .name cs :: .sign op :: rest =>
      match assignments.lookup op with
      | some op =>
        let (a, rest) := whole n rest
        (.assign cs op a, rest)
      | none => conditional (whole n) (ts.length + 1) ts
    | _ => conditional (whole n) (ts.length + 1) ts

/-- The formula that a text is. Nothing at all is zero. -/
def ofText (text : Octets) : Formula :=
  match tokens (text.length + 1) text with
  | [] => .number 0
  | ts =>
    match whole (ts.length + 1) ts with
    | (f, []) => f
    | (f, _) => .broken f "EOF"

/-- A truth value as a number. -/
def truth (b : Bool) : Int := if b then 1 else 0

/-- A number in 64 bits. -/
def wrap (n : Int) : Int := n.bmod (Nat.pow 2 64)

/-- The bits of a number. -/
def bits (n : Int) : Nat := (n % (Nat.pow 2 64 : Nat)).toNat

/-- An operator on two numbers; there is no dividing by zero. -/
def combine? (op : String) (a b : Int) : Option Int :=
  match op with
  | "|" => some (wrap (bits a ||| bits b))
  | "^" => some (wrap (bits a ^^^ bits b))
  | "&" => some (wrap (bits a &&& bits b))
  | "==" => some (truth (a = b))
  | "!=" => some (truth (a != b))
  | "<=" => some (truth (a ≤ b))
  | ">=" => some (truth (b ≤ a))
  | "<" => some (truth (a < b))
  | ">" => some (truth (b < a))
  | "<<" => some (wrap (a * (Nat.pow 2 (b.toNat % 64) : Nat)))
  | ">>" => some (a / (Nat.pow 2 (b.toNat % 64) : Nat))
  | "+" => some (wrap (a + b))
  | "-" => some (wrap (a - b))
  | "*" => some (wrap (a * b))
  | "/" => if b = 0 then none else some (wrap (a.tdiv b))
  | "%" => if b = 0 then none else some (a.tmod b)
  | _ => none

/-- Parameters that got values, the last first. -/
abbrev Assigned := List (Octets × Int)

/-- The number that a parameter holds. -/
def known (lookup : Octets → Option Octets) (cs : Octets) : StateT Assigned (Except Fault) Int := do
  match (← get).lookup cs with
  | some n => return n
  | none =>
    let text := (lookup cs).getD []
    match number? text with
    | some n => return n
    | none => throw (.badNumber text)

/-- An operator on two numbers. -/
def combined (op : String) (a b : Int) : StateT Assigned (Except Fault) Int :=
  match combine? op a b with
  | some n => return n
  | none => throw .division

/-- The value of a formula, given the values of parameters. What is passed over is read all the
same, so that faults in it count. -/
def value (lookup : Octets → Option Octets) (passed : Bool) :
    Formula → StateT Assigned (Except Fault) Int
  | .number n => return n
  | .name cs => if passed then return 0 else known lookup cs
  | .unary op a => do
    let n ← value lookup passed a
    match op with
    | "-" => return wrap (-n)
    | "!" => return truth (n = 0)
    | "~" => return -n - 1
    | _ => return n
  | .binary "||" a b => do
    let left := (← value lookup passed a) != 0
    let right := (← value lookup (passed || left) b) != 0
    return truth (left || right)
  | .binary "&&" a b => do
    let left := (← value lookup passed a) != 0
    let right := (← value lookup (passed || !left) b) != 0
    return truth (left && right)
  | .binary op a b => do
    let left ← value lookup passed a
    let right ← value lookup passed b
    if passed then return right else combined op left right
  | .choice test yes no => do
    let holds := (← value lookup passed test) != 0
    let first ← value lookup (passed || !holds) yes
    let second ← value lookup (passed || holds) no
    return if holds then first else second
  | .assign target op a => do
    let n ← value lookup passed a
    if passed then return n
    let n ← match op with
      | none => pure n
      | some op => do combined op (← known lookup target) n
    modify ((target, n) :: ·)
    return n
  | .broken a what => do
    let _ ← value lookup passed a
    throw (.expecting what)

end Formula

end MutationTesting.Shell
