import MutationTesting.Json.Number
import MutationTesting.Json.Token
import MutationTesting.Text.Utf8
/-!
# Reading JSON

A pushdown machine over tokens: each token changes the stack of open containers and what is
expected next. The stack is a list, so nesting of any depth is read.

A structure with named members may be written as an object, where unknown keys are skipped and a
known key must not be repeated, or as a list of its members in order, of which those with a default
may be left out at the end.

A tagged structure has its tag read first, so everything else in it is kept as a value before
anyone knows what it is for. Such a value must be complete text, with numbers a double can hold and
nesting below a limit, also where it turns out to be skipped (`Json.isKeepable`).

## Main definitions

* `Json.Frame`, `Json.Expect`, `Json.step` — the machine
* `Json.ofTokens?`, `Json.ofSymbols?` — reading
* `Members`, `Json.members?` — the members of a structure
* `Members.required`, `Members.nullable`, `Members.optional`, `Members.list` — reading one of them
* `Json.uint?`, `Json.sint?`, `Json.text?`, `Json.list?` — readers of single values
-/

namespace MutationTesting

/-! ### Values -/

namespace Json

/-- JSON as it is read: a string literal may denote no text. -/
abbrev Raw := Json (Option String)

/-- An open container, with what was read of it, last first. -/
inductive Frame where
  | list (done : List Raw)
  | object (done : List (Option String × Raw))
  /-- An object whose next value belongs to the given key. -/
  | field (done : List (Option String × Raw)) (key : Option String)

/-- What may come next. -/
inductive Expect where
  | value
  /-- A value, or the end of a list just opened. -/
  | valueOrEnd
  | key
  /-- A key, or the end of an object just opened. -/
  | keyOrEnd
  /-- The colon after a key. -/
  | colon (key : Option String)
  /-- Whatever may follow a finished value. -/
  | after (value : Raw)

/-- A value begins with the token. -/
def beginValue (stack : List Frame) : Token → Option (List Frame × Expect)
  | .openObject => some (.object [] :: stack, .keyOrEnd)
  | .openList => some (.list [] :: stack, .valueOrEnd)
  | .null => some (stack, .after .null)
  | .bool b => some (stack, .after (.bool b))
  | .number n => some (stack, .after (.number n))
  | .string s => some (stack, .after (.string s))
  | _ => none

/-- The token comes after a finished value. -/
def afterValue (value : Raw) : List Frame → Token → Option (List Frame × Expect)
  | .list done :: stack, .comma => some (.list (value :: done) :: stack, .value)
  | .list done :: stack, .closeList => some (stack, .after (.list (value :: done).reverse))
  | .field done key :: stack, .comma => some (.object ((key, value) :: done) :: stack, .key)
  | .field done key :: stack, .closeObject =>
    some (stack, .after (.object ((key, value) :: done).reverse))
  | _, _ => none

/-- One token: the new stack and what is expected after it. -/
def step : List Frame → Expect → Token → Option (List Frame × Expect)
  | stack, .value, token => beginValue stack token
  | .list [] :: stack, .valueOrEnd, .closeList => some (stack, .after (.list []))
  | stack, .valueOrEnd, token => beginValue stack token
  | .object [] :: stack, .keyOrEnd, .closeObject => some (stack, .after (.object []))
  | stack, .keyOrEnd, .string s => some (stack, .colon s)
  | stack, .key, .string s => some (stack, .colon s)
  | .object done :: stack, .colon key, .colon => some (.field done key :: stack, .value)
  | stack, .after value, token => afterValue value stack token
  | _, _, _ => none

/-- Runs the machine to the end of the tokens. -/
def run : List Frame → Expect → List Token → Option Raw
  | [], .after value, [] => some value
  | _, _, [] => none
  | stack, expect, token :: rest =>
    match step stack expect token with
    | some (stack, expect) => run stack expect rest
    | none => none

/-- The value that the tokens spell. -/
def ofTokens? (tokens : List Token) : Option Raw := run [] .value tokens

/-- The value of a text given as symbols. -/
def ofSymbols? (input : Token.Symbols) : Option Raw := (Token.scan input).bind ofTokens?

/-- The value of a text. -/
def ofText? (text : String) : Option Raw := ofSymbols? (text.toList.map some)

/-- The value of a file. -/
def ofBytes? (bytes : Bytes) : Option Raw := ofSymbols? (Utf8.symbols bytes)

end Json

/-! ### Members -/

namespace Json

/-- The text of a string. -/
def text? : Raw → Option String
  | .string s => s
  | _ => none

/-- A truth value. -/
def bool? : Raw → Option Bool
  | .bool b => some b
  | _ => none

/-- A whole number. -/
def int? : Raw → Option Int
  | .number n => n.toInt?
  | _ => none

/-- A natural number below `bound`. -/
def uint? (bound : Nat) (j : Raw) : Option Nat :=
  j.int?.bind fun n => if 0 ≤ n ∧ n < bound then some n.toNat else none

/-- A whole number from `-half` to below `half`. -/
def sint? (half : Nat) (j : Raw) : Option Int :=
  j.int?.bind fun n => if -(half : Int) ≤ n ∧ n < half then some n else none

/-- An 8-bit word. -/
def uint8? (j : Raw) : Option UInt8 := (uint? (Nat.pow 2 8) j).map UInt8.ofNat

/-- A 16-bit word. -/
def uint16? (j : Raw) : Option UInt16 := (uint? (Nat.pow 2 16) j).map UInt16.ofNat

/-- A 32-bit word. -/
def uint32? (j : Raw) : Option UInt32 := (uint? (Nat.pow 2 32) j).map UInt32.ofNat

/-- A signed 16-bit word. -/
def int16? (j : Raw) : Option Int16 := (sint? (Nat.pow 2 15) j).map Int16.ofInt

/-- A signed 32-bit word. -/
def int32? (j : Raw) : Option Int32 := (sint? (Nat.pow 2 31) j).map Int32.ofInt

/-- A signed 64-bit word. -/
def int64? (j : Raw) : Option Int64 := (sint? (Nat.pow 2 63) j).map Int64.ofInt

/-- A double. -/
def binary64? : Raw → Option Decimal.Binary64
  | .number n => n.toBinary64?
  | _ => none

/-- A float. -/
def binary32? : Raw → Option Decimal.Binary32
  | .number n => n.toBinary32?
  | _ => none

/-- The results of a reader on every item, if it succeeds on each. -/
def allOf? {α β : Type} (read : α → Option β) : List α → Option (List β)
  | [] => some []
  | x :: rest => do
    let y ← read x
    let ys ← allOf? read rest
    some (y :: ys)

/-- A list whose items `read` accepts. -/
def list? {α : Type} (read : Raw → Option α) : Raw → Option (List α)
  | .list items => allOf? read items
  | _ => none

/-- The name of a choice without content: a string, or an object with the name as its only key and
nothing as the value. Inside a value that was kept, nothing may also be an empty object. -/
def choice? (kept : Bool) : Raw → Option String
  | .string s => s
  | .object [(key, .null)] => key
  | .object [(key, .object [])] => if kept then key else none
  | _ => none

/-- The nesting up to which values are kept. -/
def nestingLimit : Nat := 127

/-- The value can be kept where `nesting` containers are open around it. -/
def isKeepable (nesting : Nat) (j : Raw) : Bool :=
  j.texts?.isSome && j.allNumbers (·.machine?.isSome) && nesting + j.depth ≤ nestingLimit

end Json

/-- The members found in a structure. -/
structure Members where
  /-- Members were given by name, not by position. -/
  named : Bool
  values : List (String × Json.Raw)

/-- The keys of an object as texts, if each is one. -/
def Json.keyed? : List (Option String × Json.Raw) → Option (List (String × Json.Raw))
  | [] => some []
  | (some key, value) :: rest => (keyed? rest).map ((key, value) :: ·)
  | (none, _) :: _ => none

/-- No name of the list is the key of two values. -/
def Json.unrepeated (names : List String) (values : List (String × Json.Raw)) : Bool :=
  names.all fun name => (values.filter (·.1 == name)).length ≤ 1

/-- The members of a structure whose members have the given names. -/
def Json.members? (names : List String) : Json.Raw → Option Members
  | .object fields =>
    (keyed? fields).bind fun values =>
      if unrepeated names values then some ⟨true, values⟩ else none
  | .list items => if items.length ≤ names.length then some ⟨false, names.zip items⟩ else none
  | _ => none

namespace Members

variable {α : Type} (m : Members) (name : String)

/-- The value of a member that is present. -/
def get? : Option Json.Raw := (m.values.find? (·.1 == name)).map (·.2)

/-- A member that must be present. -/
def required (read : Json.Raw → Option α) : Option α := (m.get? name).bind read

/-- A value, or nothing for `null`. -/
def orNull (read : Json.Raw → Option α) : Json.Raw → Option (Option α)
  | .null => some none
  | j => (read j).map some

/-- A member that may be `null`, and may be absent where members are named. -/
def nullable (read : Json.Raw → Option α) : Option (Option α) :=
  match m.get? name with
  | some j => orNull read j
  | none => if m.named then some none else none

/-- A member that may be `null` or absent. -/
def optional (read : Json.Raw → Option α) : Option (Option α) :=
  match m.get? name with
  | some j => orNull read j
  | none => some none

/-- A member with a default for its absence. -/
def defaulted (default : α) (read : Json.Raw → Option α) : Option α :=
  match m.get? name with
  | some j => read j
  | none => some default

/-- A list that may be absent. -/
def list (read : Json.Raw → Option α) : Option (List α) := m.defaulted name [] (Json.list? read)

end Members

end MutationTesting
