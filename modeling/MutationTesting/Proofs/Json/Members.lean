import MutationTesting.Proofs.Decimal.Digits
import MutationTesting.Proofs.Json.RoundTrip
/-!
# Members of written values are read back

Whole numbers are read back from their digits, by any reader in whose range they lie. An object
that was written under different names gives each member back by its name.

## Main definitions

* `Number.isReadable` — the literals that can be written and read

## Main results

* `Json.int?_ofInt`, and `Json.int32?_ofInt`, `Json.uint16?_ofNat` and so on for words
* `Json.list?_map` — a list of written items
* `Json.members?_object`, `Members.get?_cons_self`, `Members.get?_cons_of_ne`
-/

namespace MutationTesting

open Json Decimal

/-! ### Digits -/

theorem areDigits_digits (n : Nat) : areDigits (digits n) = true := by
  simpa [areDigits, digits_ne_nil] using digits_lt n

namespace Number

/-- The number has a literal, and this is not too large to be read. -/
def isReadable (n : Number) : Bool := n.isWellFormed && n.machine?.isSome

theorem isWellFormed_digits (negative : Bool) (n : Nat) :
    isWellFormed ⟨negative, digits n, none, none⟩ = true := by
  have hfirst := head?_digits n
  simpa [isWellFormed, areDigits_digits] using hfirst

/-- A whole number is read back from its literal. -/
theorem toInt?_digits {n : Int} (hlow : -(2 ^ 63 : Int) ≤ n) (hhigh : n < 2 ^ 64) :
    toInt? ⟨n < 0, digits n.natAbs, none, none⟩ = some n := by
  have hpow : Nat.pow 2 63 = 2 ^ 63 ∧ Nat.pow 2 64 = 2 ^ 64 := ⟨rfl, rfl⟩
  simp only [toInt?, isPlain, ofDigits_digits, Option.isNone_none, Bool.and_self, Bool.not_true,
    Bool.false_eq_true, if_false, decide_eq_true_eq, Bool.and_eq_true, hpow]
  by_cases hn : n < 0
  · have hrange : 0 < n.natAbs ∧ n.natAbs ≤ 2 ^ 63 := by omega
    have hvalue : -(n.natAbs : Int) = n := by omega
    rw [if_pos hn, if_pos hrange, hvalue]
  · have hrange : n.natAbs < 2 ^ 64 := by omega
    have hvalue : (n.natAbs : Int) = n := by omega
    rw [if_neg hn, if_pos hrange, hvalue]

end Number

namespace Json

/-! ### Words -/

theorem allNumbers_ofInt {n : Int} (hlow : -(2 ^ 63 : Int) ≤ n) (hhigh : n < 2 ^ 64) :
    (ofInt n : Json String).allNumbers Number.isReadable = true := by
  simp [ofInt, allNumbers, Number.isReadable, Number.isWellFormed_digits, Number.machine?,
    Number.toInt?_digits hlow hhigh]

theorem ofNat_eq_ofInt (n : Nat) : (ofNat n : Json String) = ofInt n := by
  simp [ofNat, ofInt]

theorem allNumbers_ofNat {n : Nat} (h : n < 2 ^ 64) :
    (ofNat n : Json String).allNumbers Number.isReadable = true := by
  rw [ofNat_eq_ofInt]
  exact allNumbers_ofInt (by omega) (by omega)

@[simp] theorem allNumbers_uint8 (n : UInt8) :
    (ofNat n.toNat : Json String).allNumbers Number.isReadable = true :=
  allNumbers_ofNat (n.toNat_lt.trans (by decide))

@[simp] theorem allNumbers_uint16 (n : UInt16) :
    (ofNat n.toNat : Json String).allNumbers Number.isReadable = true :=
  allNumbers_ofNat (n.toNat_lt.trans (by decide))

@[simp] theorem allNumbers_uint32 (n : UInt32) :
    (ofNat n.toNat : Json String).allNumbers Number.isReadable = true :=
  allNumbers_ofNat (n.toNat_lt.trans (by decide))

@[simp] theorem allNumbers_int16 (n : Int16) :
    (ofInt n.toInt : Json String).allNumbers Number.isReadable = true :=
  allNumbers_ofInt (le_trans (by decide) n.le_toInt) (n.toInt_lt.trans (by decide))

@[simp] theorem allNumbers_int32 (n : Int32) :
    (ofInt n.toInt : Json String).allNumbers Number.isReadable = true :=
  allNumbers_ofInt (le_trans (by decide) n.le_toInt) (n.toInt_lt.trans (by decide))

@[simp] theorem allNumbers_int64 (n : Int64) :
    (ofInt n.toInt : Json String).allNumbers Number.isReadable = true :=
  allNumbers_ofInt n.le_toInt (n.toInt_lt.trans (by decide))

@[simp] theorem depth_ofInt (n : Int) : (ofInt n : Json String).depth = 0 := rfl

@[simp] theorem depth_ofNat (n : Nat) : (ofNat n : Json String).depth = 0 := rfl

theorem int?_ofInt {n : Int} (hlow : -(2 ^ 63 : Int) ≤ n) (hhigh : n < 2 ^ 64) :
    (ofInt n).raw.int? = some n :=
  Number.toInt?_digits hlow hhigh

theorem uint?_ofNat {n bound : Nat} (hbound : bound ≤ 2 ^ 64) (h : n < bound) :
    uint? bound (ofNat n).raw = some n := by
  have hread : (ofNat n).raw.int? = some (n : Int) := by
    rw [ofNat_eq_ofInt]
    exact int?_ofInt (by omega) (by omega)
  rw [uint?, hread]
  simp [h]

theorem sint?_ofInt {n : Int} {half : Nat} (hhalf : half ≤ 2 ^ 63) (hlow : -(half : Int) ≤ n)
    (hhigh : n < half) : sint? half (ofInt n).raw = some n := by
  rw [sint?, int?_ofInt (by omega) (by omega)]
  simp [hlow, hhigh]

@[simp] theorem uint8?_ofNat (n : UInt8) : uint8? (ofNat n.toNat).raw = some n := by
  rw [uint8?, uint?_ofNat (by decide) n.toNat_lt, Option.map_some, UInt8.ofNat_toNat]

@[simp] theorem uint16?_ofNat (n : UInt16) : uint16? (ofNat n.toNat).raw = some n := by
  rw [uint16?, uint?_ofNat (by decide) n.toNat_lt, Option.map_some, UInt16.ofNat_toNat]

@[simp] theorem uint32?_ofNat (n : UInt32) : uint32? (ofNat n.toNat).raw = some n := by
  rw [uint32?, uint?_ofNat (by decide) n.toNat_lt, Option.map_some, UInt32.ofNat_toNat]

@[simp] theorem int16?_ofInt (n : Int16) : int16? (ofInt n.toInt).raw = some n := by
  rw [int16?, sint?_ofInt (by decide) n.le_toInt n.toInt_lt, Option.map_some, Int16.ofInt_toInt]

@[simp] theorem int32?_ofInt (n : Int32) : int32? (ofInt n.toInt).raw = some n := by
  rw [int32?, sint?_ofInt (by decide) n.le_toInt n.toInt_lt, Option.map_some, Int32.ofInt_toInt]

@[simp] theorem int64?_ofInt (n : Int64) : int64? (ofInt n.toInt).raw = some n := by
  rw [int64?, sint?_ofInt (by decide) n.le_toInt n.toInt_lt, Option.map_some, Int64.ofInt_toInt]

/-! ### Texts and truth values -/

@[simp] theorem text?_string (s : String) : text? (.string s : Json String).raw = some s := rfl

@[simp] theorem allNumbers_string (p : Number → Bool) (s : String) :
    (.string s : Json String).allNumbers p = true := rfl

@[simp] theorem depth_string (s : String) : (.string s : Json String).depth = 0 := rfl

@[simp] theorem bool?_bool (b : Bool) : bool? (.bool b : Json String).raw = some b := rfl

@[simp] theorem allNumbers_bool (p : Number → Bool) (b : Bool) :
    (.bool b : Json String).allNumbers p = true := rfl

@[simp] theorem depth_bool (b : Bool) : (.bool b : Json String).depth = 0 := rfl

@[simp] theorem choice?_string (kept : Bool) (s : String) :
    choice? kept (.string s : Json String).raw = some s := rfl

@[simp] theorem orNull_string (s : String) :
    Members.orNull text? (.string s : Json String).raw = some (some s) := rfl

@[simp] theorem orNull_ofOption (s : Option String) :
    Members.orNull text? (ofOption s : Json String).raw = some s := by
  cases s <;> rfl

/-! ### Lists -/

section AllOf

variable {α β : Type} {read : α → Option β} {as : List α}

theorem isSome_allOf?_iff : (allOf? read as).isSome = true ↔ ∀ a ∈ as, (read a).isSome = true := by
  induction as with
  | nil => simp [allOf?]
  | cons a as ih =>
    rw [allOf?, List.forall_mem_cons, ← ih]
    cases read a <;> cases allOf? read as <;> simp

/-- Every result is that of some item. -/
theorem exists_of_mem_allOf? {bs : List β} (h : allOf? read as = some bs) {b : β} (hb : b ∈ bs) :
    ∃ a ∈ as, read a = some b := by
  induction as generalizing bs with
  | nil =>
    cases h
    cases hb
  | cons a as ih =>
    rw [allOf?] at h
    obtain ⟨b', hb', h⟩ := Option.bind_eq_some_iff.mp h
    obtain ⟨bs', hbs', h⟩ := Option.bind_eq_some_iff.mp h
    cases h
    obtain rfl | hb := List.mem_cons.mp hb
    · exact ⟨a, List.mem_cons_self, hb'⟩
    · obtain ⟨a', ha', hread⟩ := ih hbs' hb
      exact ⟨a', List.mem_cons_of_mem _ ha', hread⟩

theorem allOf?_eq_some {read : α → Option α} (h : ∀ a ∈ as, read a = some a) :
    allOf? read as = some as := by
  induction as with
  | nil => rfl
  | cons a as ih =>
    obtain ⟨ha, has⟩ := List.forall_mem_cons.mp h
    rw [allOf?, ha, ih has]
    rfl

end AllOf

/-- A list of written items is read item by item. -/
theorem list?_map_eq {α β : Type} (read : Raw → Option β) (write : α → Json String) (as : List α) :
    list? read (.list (as.map write) : Json String).raw =
      allOf? (fun a => read (write a).raw) as := by
  rw [raw, list?, rawList_eq_map]
  induction as with
  | nil => rfl
  | cons a as ih => rw [List.map_cons, List.map_cons, allOf?, ih, allOf?]

/-- A list of written items is read back. -/
theorem list?_map {α : Type} {read : Raw → Option α} {write : α → Json String} {as : List α}
    (h : ∀ a ∈ as, read (write a).raw = some a) :
    list? read (.list (as.map write) : Json String).raw = some as := by
  rw [list?_map_eq, allOf?_eq_some h]

theorem allNumbers_list_map {α : Type} {p : Number → Bool} {write : α → Json String} {as : List α}
    (h : ∀ a ∈ as, (write a).allNumbers p = true) :
    (.list (as.map write) : Json String).allNumbers p = true := by
  rw [allNumbers, allNumbersList_eq_all, List.all_map]
  exact List.all_eq_true.mpr h

theorem depth_list_map_le {α : Type} {k : Nat} {write : α → Json String} {as : List α}
    (h : ∀ a ∈ as, (write a).depth ≤ k) : (.list (as.map write) : Json String).depth ≤ k + 1 := by
  rw [depth]
  exact Nat.succ_le_succ (depthList_le (List.forall_mem_map.mpr h))

/-! ### Objects -/

theorem keyed?_rawFields (fields : List (String × Json String)) :
    keyed? (rawFields fields) = some (fields.map fun field => (field.1, field.2.raw)) := by
  induction fields with
  | nil => rfl
  | cons field rest ih => rw [rawFields, keyed?, ih, Option.map_some, List.map_cons]

/-- The members of an object that was written under names of the structure, none of them twice. -/
theorem members?_object {names : List String} {fields : List (String × Json String)}
    (hkeys : (fields.map (·.1)).Sublist names) (hnames : names.Nodup) :
    members? names (.object fields : Json String).raw =
      some ⟨true, fields.map fun field => (field.1, field.2.raw)⟩ := by
  have hunrepeated :
      unrepeated names (fields.map fun field => (field.1, field.2.raw)) = true := by
    refine List.all_eq_true.mpr fun name _ => decide_eq_true ?_
    have hcount : (fields.map (·.1)).count name ≤ 1 :=
      List.nodup_iff_count.mp (hkeys.nodup hnames) name
    rw [List.count, List.countP_map, List.countP_eq_length_filter] at hcount
    rw [List.filter_map, List.length_map]
    exact hcount
  rw [raw, members?, keyed?_rawFields, Option.bind_some, if_pos hunrepeated]

end Json

namespace Members

variable {named : Bool} {values : List (String × Raw)}

@[simp] theorem get?_nil (name : String) : (⟨named, []⟩ : Members).get? name = none := rfl

@[simp] theorem get?_cons_self (name : String) (j : Raw) :
    (⟨named, (name, j) :: values⟩ : Members).get? name = some j := by
  simp [get?]

@[simp] theorem get?_cons_of_ne {key name : String} (h : key ≠ name) (j : Raw) :
    (⟨named, (key, j) :: values⟩ : Members).get? name = (⟨named, values⟩ : Members).get? name := by
  simp [get?, beq_eq_false_iff_ne.mpr h]

end Members

end MutationTesting
