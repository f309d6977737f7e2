import MutationTesting.Shell.Formula
import MutationTesting.Tool.Basic
/-!
# Conditions

The conditions of `test`: on files, texts and integers, with negation, conjunction, disjunction and
brackets. What a word means depends on the words after it: an operator that nothing follows is a
text.

## Main definitions

* `Condition.holds` — whether a condition is true
* `test`, `testProgram`
-/

namespace MutationTesting.Tool

open Act

namespace Condition

/-- The role of a word in a condition. -/
inductive Role where
  | unary
  | binary
  | negation
  | conjunction
  | disjunction
  | opening
  | closing
  | operand
  | finish
  deriving DecidableEq

/-- Tests of one word. -/
def unaryNames : List String :=
  ["-r", "-w", "-x", "-e", "-f", "-d", "-c", "-b", "-p", "-u", "-g", "-k", "-s", "-t", "-z", "-n",
    "-h", "-O", "-G", "-L", "-S"]

/-- Tests of two words. -/
def binaryNames : List String :=
  ["=", "!=", "<", ">", "-eq", "-ne", "-ge", "-gt", "-le", "-lt", "-nt", "-ot", "-ef"]

/-- What differs between the programs that test conditions. -/
structure Manner where
  /-- Two signs of equality are as good as one. -/
  double : Bool
  /-- What is said about a text that is no number. -/
  badNumber : Octets → Octets

variable (m : Manner)

/-- The operator that a word is by itself. -/
def operatorRole? (word : Octets) : Option Role :=
  let s := String.ofList word
  if unaryNames.contains s then some .unary
  else if binaryNames.contains s || (m.double && s = "==") then some .binary
  else
    match s with
    | "!" => some .negation
    | "-a" => some .conjunction
    | "-o" => some .disjunction
    | "(" => some .opening
    | ")" => some .closing
    | _ => none

/-- The role of the first of some words. -/
def role (words : List Octets) : Role :=
  match words with
  | [] => .finish
  | word :: rest =>
    match operatorRole? m word, rest with
    | none, _ => .operand
    | some .unary, [] => .operand
    | some .unary, [_] => .unary
    | some .unary, next :: _ :: _ =>
      if operatorRole? m next = some .binary then .operand else .unary
    | some .opening, [] => .operand
    | some r, _ => r

/-- The integer that a word is. -/
def integer (word : Octets) : Except Octets Int :=
  let text := (word.dropWhile Shell.isSpace).reverse.dropWhile Shell.isSpace |>.reverse
  match intOf? text with
  | some n => .ok n
  | none => .error (m.badNumber word)

/-- A test of one word. -/
def unaryTest (k : Kernel) (op : String) (word : Octets) : Bool :=
  let node := k.files.nodeAt? .follow k.here word
  let isForm (p : NodeForm → Bool) : Bool := node.any fun n => p n.form
  match op with
  | "-z" => word.isEmpty
  | "-n" => !word.isEmpty
  | "-t" | "-b" | "-S" => false
  | "-h" | "-L" =>
    match k.files.nodeAt? .stay k.here word with
    | some ⟨.link _, _, _⟩ => true
    | _ => false
  | "-f" => isForm fun
    | .file _ => true
    | _ => false
  | "-d" => isForm fun
    | .directory _ _ => true
    | _ => false
  | "-c" => isForm fun
    | .device _ => true
    | _ => false
  | "-p" => isForm fun
    | .pipe => true
    | _ => false
  | "-s" => isForm fun
    | .file content => !content.isEmpty
    | .directory _ _ => true
    | _ => false
  | "-x" => node.any fun n => n.mode &&& 0o111 != 0
  | "-u" => node.any fun n => n.mode &&& 0o4000 != 0
  | "-g" => node.any fun n => n.mode &&& 0o2000 != 0
  | "-k" => node.any fun n => n.mode &&& 0o1000 != 0
  | _ => node.isSome

/-- A test of two words. -/
def binaryTest (k : Kernel) (op : String) (a b : Octets) : Except Octets Bool := do
  let node (path : Octets) := (k.files.find .follow k.here path).toOption
  let time (path : Octets) : Option Int := (k.files.nodeAt? .follow k.here path).map (·.time)
  match op with
  | "=" | "==" => return a = b
  | "!=" => return a != b
  | "<" => return a < b
  | ">" => return b < a
  | "-nt" => return match time a, time b with
    | some x, some y => y < x
    | some _, none => true
    | _, _ => false
  | "-ot" => return match time a, time b with
    | some x, some y => x < y
    | none, some _ => true
    | _, _ => false
  | "-ef" => return (node a).isSome && node a = node b
  | _ =>
    let x ← integer m a
    let y ← integer m b
    match op with
    | "-eq" => return x = y
    | "-ne" => return x != y
    | "-ge" => return y ≤ x
    | "-gt" => return y < x
    | "-le" => return x ≤ y
    | _ => return x < y

/-- What came of the first words of a condition, and the words after them. -/
abbrev Result := Except Octets (Bool × List Octets)

/-- What is said about a word. -/
def fault (word message : Octets) : Octets := word ++ octets ": " ++ message

/-- A condition without negation, conjunction and disjunction. -/
def primary (k : Kernel) (disjunction : List Octets → Result) (words : List Octets) : Result := do
  match role m words, words with
  | .opening, _ :: rest =>
    if role m rest = .closing then return (false, rest.drop 1)
    let (b, rest) ← disjunction rest
    if role m rest = .closing then return (b, rest.drop 1)
    throw (octets "closing paren expected")
  | .unary, op :: word :: rest => return (unaryTest k (String.ofList op) word, rest)
  | .unary, [op] => throw (fault op (octets "argument expected"))
  | _, word :: rest =>
    match role m rest, rest with
    | .binary, op :: other :: rest =>
      return (← binaryTest m k (String.ofList op) word other, rest)
    | .binary, [op] => throw (fault op (octets "argument expected"))
    | _, _ => return (!word.isEmpty, rest)
  | _, [] => return (false, [])

/-- A condition, possibly negated. -/
def negation (k : Kernel) (disjunction : List Octets → Result) : Nat → List Octets → Result
  | 0, words => .ok (false, words)
  | n + 1, words =>
    if role m words = .negation then
      (negation k disjunction n (words.drop 1)).map fun (b, rest) => (!b, rest)
    else primary m k disjunction words

/-- Conditions that all have to hold. -/
def conjunction (k : Kernel) (disjunction : List Octets → Result) : Nat → List Octets → Result
  | 0, words => .ok (false, words)
  | n + 1, words => do
    let (a, rest) ← negation m k disjunction (words.length + 1) words
    if role m rest = .conjunction then
      let (b, rest) ← conjunction k disjunction n (rest.drop 1)
      return (a && b, rest)
    else return (a, rest)

/-- Conditions of which one has to hold. -/
def disjunctionChain (k : Kernel) (inner : List Octets → Result) : Nat → List Octets → Result
  | 0, words => .ok (false, words)
  | n + 1, words => do
    let (a, rest) ← conjunction m k inner (words.length + 1) words
    if role m rest = .disjunction then
      let (b, rest) ← disjunctionChain k inner n (rest.drop 1)
      return (a || b, rest)
    else return (a, rest)

/-- A condition with brackets nested to the given depth. -/
def disjunction (k : Kernel) : Nat → List Octets → Result
  | 0, words => .ok (false, words)
  | depth + 1, words => disjunctionChain m k (disjunction k depth) (words.length + 1) words

/-- Whether a condition is true, or what is wrong with it. -/
def holds (k : Kernel) (words : List Octets) : Except Octets Bool := do
  let whole (words : List Octets) : Except Octets Bool := do
    let (b, rest) ← disjunction m k (words.length + 1) words
    if rest.isEmpty then return b
    else
      throw (fault ((words.take (words.length - rest.length)).getLast?.getD [])
        (octets "unexpected operator"))
  let compared? : Option (Octets × Octets × Octets) := match words with
    | [a, op, b] => if operatorRole? m op = some .binary then some (a, op, b) else none
    | _ => none
  match compared? with
  | some (a, op, b) => binaryTest m k (String.ofList op) a b
  | none =>
    if words.length = 3 || words.length = 4 then
      if words.head? = some ['('] && words.getLast? = some [')'] then
        whole (words.drop 1).dropLast
      else if words.head? = some ['!'] then return !(← whole (words.drop 1))
      else whole words
    else whole words

end Condition

/-- How a shell tests conditions. -/
def shellTest : Condition.Manner := ⟨false, fun word => octets "Illegal number: " ++ word⟩

/-- How a program of its own does. -/
def programTest : Condition.Manner := ⟨true, fun word => octets "invalid integer " ++ quoted word⟩

/-- The words of a condition: under the name of a bracket the last argument has to close it. -/
def conditionWords (name : Octets) (args : List Octets) : Except Octets (List Octets) :=
  if name.getLast? = some '[' then
    if args.getLast? = some [']'] then .ok args.dropLast else .error (octets "missing ]")
  else .ok args

/-- Tests a condition: the code, and a complaint. -/
def test (m : Condition.Manner) (k : Kernel) (name : Octets) (args : List Octets) :
    Nat × Option Octets :=
  match (conditionWords name args).bind (Condition.holds m k) with
  | .ok true => (0, none)
  | .ok false => (1, none)
  | .error message => (2, some message)

/-- The program that tests a condition. -/
def testProgram : Program := fun name args => do
  match test programTest (← look) name args with
  | (code, none) => return code
  | (code, some message) => complain code (name ++ octets ": " ++ message)

end MutationTesting.Tool
