import Mathlib.Data.List.Basic
import Mathlib.Data.List.Induction
import MutationTesting.FileSystem.Basic
import MutationTesting.Proofs.Class.Artifact
import MutationTesting.Proofs.Mutation.Independence
import MutationTesting.Proofs.Mutation.Labels
/-!
# Recycled keys

A lookup by a constant key is a site if an earlier lookup of the method by the same member had
another key. The policy finds this out by a memory that it changes with each item; here it is said
of the whole code before the call, and the memory is shown to hold just what is needed for it.

Only two things are remembered: the text that was loaded last, if nothing but marks came after it,
and for each lookup the keys that it was given so far, each once and in the order of first use. So
the first remembered key other than the one at hand is that of the earliest call with another key.
A call is remembered with the key that it has in the original code, be it a site or not and live or
not.

## Main definitions

* `LooksUp` — a call of a lookup whose key is a constant
* `HasLookedUp`, `IsEarliestOther` — what earlier calls looked up

## Main results

* `otherKey?_memoryAfter_eq_some_iff` — the memory against the code
* `recycled_keys`
-/

namespace MutationTesting

/-! ### Lookups by constant keys -/

/-- The latest instruction of a stream; labels and line markers are none. -/
def latestInstruction? (items : List Instruction) : Option Instruction :=
  (items.filter (!·.isMark)).getLast?

@[simp] theorem latestInstruction?_concat (items : List Instruction) (i : Instruction) :
    latestInstruction? (items ++ [i]) = if i.isMark then latestInstruction? items else some i := by
  rw [latestInstruction?, latestInstruction?, List.filter_append]
  cases h : i.isMark <;> simp [h]

/-- After the items of a stream an item calls a lookup by a key: the instruction before it has
loaded the key. -/
structure LooksUp (before : List Instruction) (item : Instruction) (lookup key : String) :
    Prop where
  call : ∃ op descriptor interface,
    item = .call op ⟨"org/json/JSONObject", lookup, descriptor⟩ interface
  isGet : "get".toList <+: lookup.toList
  loaded : latestInstruction? before = some (.loadText key)

/-- Among the items of a stream there is a lookup by the key. -/
def HasLookedUp (items : List Instruction) (lookup key : String) : Prop :=
  ∃ first call rest, items = first ++ call :: rest ∧ LooksUp first call lookup key

/-- The earliest call of the lookup by another key than the given one had this other key. -/
def IsEarliestOther (items : List Instruction) (lookup key other : String) : Prop :=
  ∃ first call rest, items = first ++ call :: rest ∧ LooksUp first call lookup other ∧
    other ≠ key ∧ ∀ earlier, HasLookedUp first lookup earlier → earlier = key

section

variable {items : List Instruction} {i : Instruction} {lookup key other : String}

/-- A call has one name and one key. -/
theorem LooksUp.iff {lookup' key' : String} (h : LooksUp items i lookup' key') :
    LooksUp items i lookup key ↔ lookup = lookup' ∧ key = key' := by
  constructor
  · rintro ⟨⟨op, descriptor, interface, rfl⟩, -, hloaded⟩
    obtain ⟨⟨op', descriptor', interface', heq⟩, -, hloaded'⟩ := h
    obtain ⟨-, hmember, -⟩ := Instruction.call.inj heq
    rw [hloaded] at hloaded'
    exact ⟨congrArg Member.name hmember,
      Constant.string.inj (Instruction.load.inj (Option.some.inj hloaded'))⟩
  · rintro ⟨rfl, rfl⟩
    exact h

theorem not_hasLookedUp_nil : ¬ HasLookedUp [] lookup key := by
  rintro ⟨first, call, rest, h, -⟩
  simp at h

theorem not_isEarliestOther_nil : ¬ IsEarliestOther [] lookup key other := by
  rintro ⟨first, call, rest, h, -⟩
  simp at h

theorem hasLookedUp_concat : HasLookedUp (items ++ [i]) lookup key ↔
    HasLookedUp items lookup key ∨ LooksUp items i lookup key := by
  constructor
  · rintro ⟨first, call, rest, h, hcall⟩
    obtain ⟨rfl, rfl⟩ | ⟨rest', rfl⟩ := eq_or_exists_of_concat_eq h
    · exact .inr hcall
    · exact .inl ⟨first, call, rest', rfl, hcall⟩
  · rintro (⟨first, call, rest, rfl, hcall⟩ | h)
    · exact ⟨first, call, rest ++ [i], by simp, hcall⟩
    · exact ⟨items, i, [], rfl, h⟩

/-- The earliest other key is known already, or the last call is the first one with another key. -/
theorem isEarliestOther_concat : IsEarliestOther (items ++ [i]) lookup key other ↔
    IsEarliestOther items lookup key other ∨ LooksUp items i lookup other ∧ other ≠ key ∧
      ∀ earlier, HasLookedUp items lookup earlier → earlier = key := by
  constructor
  · rintro ⟨first, call, rest, h, hcall, hother⟩
    obtain ⟨rfl, rfl⟩ | ⟨rest', rfl⟩ := eq_or_exists_of_concat_eq h
    · exact .inr ⟨hcall, hother⟩
    · exact .inl ⟨first, call, rest', rfl, hcall, hother⟩
  · rintro (⟨first, call, rest, rfl, hcall⟩ | h)
    · exact ⟨first, call, rest ++ [i], by simp, hcall⟩
    · exact ⟨items, i, [], rfl, h⟩

end

namespace Policy

/-! ### The memory of the policy -/

namespace LookupMemory

variable {m : LookupMemory} {lookup lookup' key key' other : String}

theorem keys_remember_self : (m.remember lookup key).keys lookup =
    if key ∈ m.keys lookup then m.keys lookup else m.keys lookup ++ [key] := by
  by_cases h : (m.keys lookup).contains key = true
  · rw [if_pos (List.contains_iff_mem.mp h), keys, remember, List.lookup_cons, BEq.rfl]
    exact if_pos h
  · rw [if_neg (mt List.contains_iff_mem.mpr h), keys, remember, List.lookup_cons, BEq.rfl]
    exact if_neg h

theorem keys_remember_of_ne (h : lookup' ≠ lookup) :
    (m.remember lookup key).keys lookup' = m.keys lookup' := by
  have hne : (lookup' == lookup) = false := beq_eq_false_iff_ne.mpr h
  have hkept : (lookup' != lookup) = true := bne_iff_ne.mpr h
  rw [keys, remember, List.lookup_cons, hne]
  dsimp only
  rw [FileSystem.lookup_filter_key (· != lookup), if_pos hkept, keys]

theorem mem_keys_remember : key' ∈ (m.remember lookup key).keys lookup' ↔
    key' ∈ m.keys lookup' ∨ lookup' = lookup ∧ key' = key := by
  by_cases h : lookup' = lookup
  · subst h
    rw [keys_remember_self]
    split
    · next hmem =>
      refine ⟨.inl, ?_⟩
      rintro (h | ⟨-, rfl⟩)
      · exact h
      · exact hmem
    · simp
  · rw [keys_remember_of_ne h]
    simp [h]

theorem otherKey?_eq_none_iff : m.otherKey? lookup key = none ↔ ∀ k ∈ m.keys lookup, k = key := by
  simp [otherKey?]

/-- A key that is remembered becomes the other one if there was none. -/
theorem otherKey?_remember : (m.remember lookup' key').otherKey? lookup key = some other ↔
    m.otherKey? lookup key = some other ∨
      lookup = lookup' ∧ other = key' ∧ other ≠ key ∧ m.otherKey? lookup key = none := by
  by_cases h : lookup = lookup'
  · subst h
    rw [otherKey?, keys_remember_self]
    split
    · next hmem =>
      refine ⟨.inl, ?_⟩
      rintro (h | ⟨-, rfl, hne, hnone⟩)
      · exact h
      · exact absurd (otherKey?_eq_none_iff.mp hnone _ hmem) hne
    · rw [List.find?_append, ← otherKey?, Option.or_eq_some_iff, List.find?_singleton,
        Option.ite_none_right_eq_some, Option.some.injEq, bne_iff_ne]
      refine or_congr_right ⟨?_, ?_⟩
      · rintro ⟨hnone, hne, rfl⟩
        exact ⟨rfl, rfl, hne, hnone⟩
      · rintro ⟨-, rfl, hne, hnone⟩
        exact ⟨hnone, hne, rfl⟩
  · rw [otherKey?, keys_remember_of_ne h, ← otherKey?]
    simp [h]

end LookupMemory

/-! ### The memory after a stream -/

/-- The policy for recycled keys. -/
abbrev lookupInspector : Inspector := ⟨LookupMemory, ⟨[], none⟩, inspectLookup⟩

section

variable {items : List Instruction} {i : Instruction} {lookup key other : String}

/-- The text that an item loads. -/
def loadedText? : Instruction → Option String
  | .load value => value.text?
  | _ => none

theorem loadedText?_eq_some_iff : loadedText? i = some key ↔ i = .loadText key := by
  cases i with
  | load value => cases value <;> simp [loadedText?, Constant.text?, Instruction.loadText]
  | _ => simp [loadedText?, Instruction.loadText]

/-- A call leaves nothing pending. -/
theorem pending_inspectLookup_call (memory : LookupMemory) (op : Opcode) (m : Member)
    (interface : Bool) : (inspectLookup memory (.call op m interface)).1.pending = none := by
  simp only [inspectLookup]
  split
  · split
    · assumption
    · rfl
  · rfl

/-- What is pending is the text that was loaded last, if nothing but marks came after it. -/
theorem pending_memoryAfter (items : List Instruction) :
    (lookupInspector.memoryAfter items).pending = (latestInstruction? items).bind loadedText? := by
  induction items using List.reverseRecOn with
  | nil => rfl
  | append_singleton items i ih =>
    rw [Inspector.memoryAfter_concat, latestInstruction?_concat]
    cases i with
    | call op m interface => exact pending_inspectLookup_call _ op m interface
    | label l => exact ih
    | line n l => exact ih
    | _ => rfl

theorem pending_memoryAfter_eq_some_iff :
    (lookupInspector.memoryAfter items).pending = some key ↔
      latestInstruction? items = some (.loadText key) := by
  rw [pending_memoryAfter, Option.bind_eq_some_iff]
  simp only [loadedText?_eq_some_iff, exists_eq_right]

/-- What the policy finds in a lookup by a key. -/
def recycling (item : Instruction) (lookup other : String) : Finding where
  description := "Changed parameter of " ++ lookup ++ " to " ++ other
  replacement := some [.simple .pop, .loadText other, item]

/-- A lookup by a key is remembered, and it is a site if there is another key. -/
theorem inspect_of_looksUp (h : LooksUp items i lookup key) :
    lookupInspector.inspect (lookupInspector.memoryAfter items) i =
      ((lookupInspector.memoryAfter items).remember lookup key,
        ((lookupInspector.memoryAfter items).otherKey? lookup key).map (recycling i lookup)) := by
  obtain ⟨⟨op, descriptor, interface, rfl⟩, hget, hloaded⟩ := h
  have hlookup : isLookup ⟨"org/json/JSONObject", lookup, descriptor⟩ = true :=
    Bool.and_eq_true_iff.mpr ⟨rfl, List.isPrefixOf_iff_prefix.mpr hget⟩
  simp only [inspectLookup, hlookup, if_true, pending_memoryAfter_eq_some_iff.mpr hloaded]
  rfl

/-- Any other item is no site, and no key is remembered. -/
theorem inspect_of_not_looksUp (h : ∀ lookup key, ¬ LooksUp items i lookup key) :
    (lookupInspector.inspect (lookupInspector.memoryAfter items) i).1.seen =
        (lookupInspector.memoryAfter items).seen ∧
      (lookupInspector.inspect (lookupInspector.memoryAfter items) i).2 = none := by
  cases i with
  | call op m interface =>
    simp only [inspectLookup]
    split
    · next hlookup =>
      obtain ⟨howner, hget⟩ := Bool.and_eq_true_iff.mp hlookup
      split
      · exact ⟨rfl, rfl⟩
      · next key hpending =>
        obtain ⟨owner, name, descriptor⟩ := m
        obtain rfl : owner = "org/json/JSONObject" := eq_of_beq howner
        exact absurd ⟨⟨op, descriptor, interface, rfl⟩, List.isPrefixOf_iff_prefix.mp hget,
          pending_memoryAfter_eq_some_iff.mp hpending⟩ (h name key)
    · exact ⟨rfl, rfl⟩
  | _ => exact ⟨rfl, rfl⟩

theorem keys_congr {m m' : LookupMemory} (h : m.seen = m'.seen) : m.keys = m'.keys := by
  funext lookup
  rw [LookupMemory.keys, LookupMemory.keys, h]

theorem otherKey?_congr {m m' : LookupMemory} (h : m.seen = m'.seen) :
    m.otherKey? = m'.otherKey? := by
  funext lookup key
  rw [LookupMemory.otherKey?, LookupMemory.otherKey?, keys_congr h]

/-- An item adds its key to the memory, or no key. -/
theorem seen_memoryAfter_concat (items : List Instruction) (i : Instruction) :
    (∃ lookup key, LooksUp items i lookup key ∧ lookupInspector.memoryAfter (items ++ [i]) =
        (lookupInspector.memoryAfter items).remember lookup key) ∨
      (∀ lookup key, ¬ LooksUp items i lookup key) ∧
        (lookupInspector.memoryAfter (items ++ [i])).seen =
          (lookupInspector.memoryAfter items).seen := by
  rw [Inspector.memoryAfter_concat]
  by_cases h : ∃ lookup key, LooksUp items i lookup key
  · obtain ⟨lookup, key, h⟩ := h
    exact .inl ⟨lookup, key, h, congrArg Prod.fst (inspect_of_looksUp h)⟩
  · have hnot : ∀ lookup key, ¬ LooksUp items i lookup key := by simpa using h
    exact .inr ⟨hnot, (inspect_of_not_looksUp hnot).1⟩

/-- The keys that are remembered for a lookup are those by which it was called. -/
theorem mem_keys_memoryAfter_iff :
    key ∈ (lookupInspector.memoryAfter items).keys lookup ↔ HasLookedUp items lookup key := by
  induction items using List.reverseRecOn with
  | nil => exact ⟨nofun, fun h => absurd h not_hasLookedUp_nil⟩
  | append_singleton items i ih =>
    rw [hasLookedUp_concat, ← ih]
    obtain ⟨lookup', key', h, hmemory⟩ | ⟨hnot, hseen⟩ := seen_memoryAfter_concat items i
    · rw [hmemory, LookupMemory.mem_keys_remember, h.iff]
    · rw [keys_congr hseen]
      simp [hnot]

/-- **The other key that is found** is that of the earliest call with another key. -/
theorem otherKey?_memoryAfter_eq_some_iff :
    (lookupInspector.memoryAfter items).otherKey? lookup key = some other ↔
      IsEarliestOther items lookup key other := by
  induction items using List.reverseRecOn with
  | nil => exact ⟨nofun, fun h => absurd h not_isEarliestOther_nil⟩
  | append_singleton items i ih =>
    rw [isEarliestOther_concat, ← ih]
    simp only [← mem_keys_memoryAfter_iff, ← LookupMemory.otherKey?_eq_none_iff]
    obtain ⟨lookup', key', h, hmemory⟩ | ⟨hnot, hseen⟩ := seen_memoryAfter_concat items i
    · rw [hmemory, LookupMemory.otherKey?_remember, h.iff, and_assoc]
    · rw [otherKey?_congr hseen]
      simp [hnot]

/-- **The sites of the policy** are the lookups by a key before which there was another key. -/
theorem finding?_lookupInspector_eq_some_iff {f : Finding} :
    lookupInspector.finding? items i = some f ↔
      ∃ lookup key other, LooksUp items i lookup key ∧ IsEarliestOther items lookup key other ∧
        f = recycling i lookup other := by
  rw [Inspector.finding?]
  by_cases h : ∃ lookup key, LooksUp items i lookup key
  · obtain ⟨lookup, key, h⟩ := h
    rw [inspect_of_looksUp h, Option.map_eq_some_iff]
    simp only [h.iff, otherKey?_memoryAfter_eq_some_iff]
    constructor
    · rintro ⟨other, hother, rfl⟩
      exact ⟨lookup, key, other, ⟨rfl, rfl⟩, hother, rfl⟩
    · rintro ⟨_, _, other, ⟨rfl, rfl⟩, hother, rfl⟩
      exact ⟨other, hother, rfl⟩
  · have hnot : ∀ lookup key, ¬ LooksUp items i lookup key := by simpa using h
    rw [(inspect_of_not_looksUp hnot).2]
    simp [hnot]

end

end Policy

/-! ### The memory of a stage -/

/-- A stage whose findings end no body remembers the same in every pass, whichever site is live. -/
theorem Inspector.fst_step_transducer (I : Inspector) (policy : String) {m : I.Memory}
    {i : Instruction} (h : ∀ f, (I.inspect m i).2 = some f → f.endsBody = false) (p : Pass) :
    ((I.transducer policy).step (false, m) i p).1 = (false, (I.inspect m i).1) := by
  cases hf : (I.inspect m i).2 with
  | none => rw [I.step_transducer_of_none policy p hf]
  | some f =>
    by_cases hlive : f.replacement = none ∨
        p.target ≠ some (p.register policy f.description).1
    · rw [I.step_transducer_of_some policy hf hlive]
    · obtain ⟨hr, htarget⟩ := not_or.mp hlive
      obtain ⟨r, hr⟩ := Option.ne_none_iff_exists'.mp hr
      rw [I.step_transducer_of_live policy hf hr (not_not.mp htarget), h f hf]

theorem Inspector.fst_run_transducer (I : Inspector) (policy : String)
    (h : ∀ m i f, (I.inspect m i).2 = some f → f.endsBody = false) (before items : List Instruction)
    (p : Pass) :
    ((I.transducer policy).run (false, I.memoryAfter before) items p).1 =
      (false, I.memoryAfter (before ++ items)) := by
  induction items generalizing before p with
  | nil => rw [List.append_nil]; rfl
  | cons i items ih =>
    obtain ⟨out, p', hstep⟩ : ∃ out p',
        (I.transducer policy).step (false, I.memoryAfter before) i p =
          ((false, I.memoryAfter (before ++ [i])), out, p') :=
      ⟨_, _, Prod.ext (by rw [I.fst_step_transducer policy (h _ _) p, I.memoryAfter_concat]) rfl⟩
    rw [Transducer.run_cons hstep rfl]
    simpa using ih (before ++ [i]) p'

/-- What the stage of the policy remembers in the end of a pass. -/
theorem Policy.fst_run_stage_lookupKey (method : MethodInfo) (items : List Instruction) (p : Pass) :
    ((lookupKey.stage method).run (lookupKey.stage method).start items p).1 =
      (false, lookupInspector.memoryAfter items) :=
  lookupInspector.fst_run_transducer _ (fun _ _ _ h => by
    obtain ⟨_, -, hf⟩ := replaces_inspectLookup h
    rw [hf]) [] items p

/-! ### The mutants -/

/-- The method in which another key is loaded before the call at a place. -/
def Place.withKey (pl : Place) (other : String) : Method :=
  { pl.method with
    instructions := pl.code.before ++ [.simple .pop, .loadText other] ++
      pl.code.item :: pl.code.after }

/-- The code of a method with a live site of the policy. -/
theorem Site.code_of_recycling {s : Site} {lookup other : String}
    (h : s.finding = Policy.recycling s.place.code.item lookup other) :
    s.code = (s.place.withKey other).instructions := by
  have hr : s.finding.replacement = some [.simple .pop, .loadText other, s.place.code.item] :=
    congrArg Finding.replacement h
  have hend : s.finding.endsBody = false := congrArg Finding.endsBody h
  rw [code_of_some hr, hend, Place.withKey, List.append_assoc]
  rfl

section

variable {policies : List Policy} {c : ClassFile} {s : Site}

/-- The policy looks at a class that does not belong to the library of the lookups. -/
theorem Policy.excludes_lookupKey (h : ¬ "org/json/".toList <+: c.name.toList) :
    lookupKey.excludes (.ofClass c) = false := by
  change "org/json/".toList.isPrefixOf c.name.toList = false
  rwa [← Bool.not_eq_true, List.isPrefixOf_iff_prefix]

/-- The sites of the policy in a class. -/
theorem Site.exists_of_lookupKey (hs : s ∈ c.sitesOf policies) (hp : s.policy = .lookupKey) :
    ∃ lookup key other, LooksUp s.place.code.before s.place.code.item lookup key ∧
      IsEarliestOther s.place.code.before lookup key other ∧
      s.finding = Policy.recycling s.place.code.item lookup other := by
  obtain ⟨-, -, -, hf⟩ := ClassFile.mem_sitesOf.mp hs
  rw [hp] at hf
  exact Policy.finding?_lookupInspector_eq_some_iff.mp hf

/-- The method of a live site of the policy. -/
theorem Site.withCode_of_recycling {lookup other : String}
    (hs : s ∈ c.sitesOf policies)
    (h : s.finding = Policy.recycling s.place.code.item lookup other) :
    s.place.method.withCode s.code = (s.place.withKey other).pruneDangling := by
  obtain ⟨-, -, hplace, -⟩ := ClassFile.mem_sitesOf.mp hs
  obtain ⟨-, hcode⟩ := ClassFile.mem_places.mp hplace
  rw [code_of_recycling h, Method.withCode, if_neg]
  · rfl
  · intro heq
    have hlength := congrArg List.length (heq.trans hcode.symm)
    simp only [Place.withKey, Split.whole, List.length_append, List.length_cons] at hlength
    omega

theorem Place.pruneDangling_withKey {pl : Place} (hpl : pl ∈ c.places) (other : String)
    (h : pl.method.pruneDangling = pl.method) :
    (pl.withKey other).pruneDangling = pl.withKey other := by
  obtain ⟨-, hcode⟩ := ClassFile.mem_places.mp hpl
  have hcode' : pl.method.instructions =
      pl.code.before ++ [] ++ pl.code.item :: pl.code.after := by
    rw [List.append_nil, ← hcode, Split.whole]
  refine Method.pruneDangling_exchange hcode' (List.forall_mem_nil _) ?_ h
  simp only [List.forall_mem_cons]
  exact ⟨⟨Instruction.isStraight_simple _, rfl⟩, ⟨Instruction.isStraight_loadText _, rfl⟩,
    List.forall_mem_nil _⟩

end

/-- **Keys are recycled** where an earlier lookup of the method by the same member had another key.
Outside the library of the lookups, the sites are just these calls, one for each of them, and the
description names the key of the earliest other call. In the mutant this key is loaded before the
call in place of the one that is there, and what names labels that the code does not define is
forgotten; nothing else changes. What the policy remembers are the keys that were looked up in what
it reads, in every pass, whatever the target is. -/
theorem recycled_keys {policies : List Policy} (hselection : Policy.IsSelection policies)
    (hpolicy : .lookupKey ∈ policies) {c : ClassFile}
    (hclass : ¬ "org/json/".toList <+: c.name.toList) :
    (∀ pl ∈ c.places, ∀ description,
      (∃ m ∈ findMutations c policies, m.id.policy = "json_get_param" ∧
          m.id.description = description ∧ c.IssuesAt policies pl m.id.index) ↔
        ∃ lookup key other, LooksUp pl.code.before pl.code.item lookup key ∧
          IsEarliestOther pl.code.before lookup key other ∧
          "Changed parameter of " ++ lookup ++ " to " ++ other = description) ∧
    (∀ m ∈ findMutations c policies, ∀ m' ∈ findMutations c policies,
      m.id.policy = "json_get_param" → m'.id.policy = "json_get_param" →
        ∀ pl, c.IssuesAt policies pl m.id.index → c.IssuesAt policies pl m'.id.index → m = m') ∧
    (∀ m ∈ findMutations c policies, m.id.policy = "json_get_param" →
      ∃ pl lookup key other mutant, c.IssuesAt policies pl m.id.index ∧
        m.id.method = pl.method.signature ∧
        LooksUp pl.code.before pl.code.item lookup key ∧
        IsEarliestOther pl.code.before lookup key other ∧
        materialize c policies m.id = .ok mutant ∧
        mutant.artifact =
          { c with methods := pl.methods.before ++ (pl.withKey other).pruneDangling ::
              pl.methods.after }.toBytes ∧
        (pl.method.pruneDangling = pl.method →
          (pl.withKey other).pruneDangling = pl.withKey other)) ∧
    ∀ (method : MethodInfo) (items : List Instruction) (p : Pass) (lookup key : String),
      key ∈ ((Policy.lookupKey.stage method).run (Policy.lookupKey.stage method).start
        items p).1.2.keys lookup ↔ HasLookedUp items lookup key := by
  refine ⟨fun pl hpl description => ?_, fun m hm m' hm' hp hp' pl h h' => ?_, fun m hm hp => ?_,
    fun method items p lookup key => ?_⟩
  · refine (exists_mutation_at_iff hpolicy (Policy.excludes_lookupKey hclass) hpl).trans ⟨?_, ?_⟩
    · rintro ⟨f, hf, rfl⟩
      obtain ⟨lookup, key, other, hcall, hother, rfl⟩ :=
        Policy.finding?_lookupInspector_eq_some_iff.mp hf
      exact ⟨lookup, key, other, hcall, hother, rfl⟩
    · rintro ⟨lookup, key, other, hcall, hother, rfl⟩
      exact ⟨_, Policy.finding?_lookupInspector_eq_some_iff.mpr
        ⟨lookup, key, other, hcall, hother, rfl⟩, rfl⟩
  · exact eq_of_issuesAt (p := .lookupKey) hselection.nodup hm hm' hp hp' h h'
  · obtain ⟨n, s, hs, hpolicy, rfl⟩ := exists_site_of_policy (p := .lookupKey) hm hp
    have hmem := List.mem_of_getElem? hs
    obtain ⟨lookup, key, other, hcall, hother, hfinding⟩ := Site.exists_of_lookupKey hmem hpolicy
    refine ⟨s.place, lookup, key, other, _, (ClassFile.issuesAt_iff_eq_place hs).mpr rfl, rfl,
      hcall, hother, materialize_id hs, ?_,
      Place.pruneDangling_withKey (ClassFile.mem_sitesOf.mp hmem).2.2.1 other⟩
    rw [Site.mutate, Site.withCode_of_recycling hmem hfinding]
  · rw [Policy.fst_run_stage_lookupKey]
    exact Policy.mem_keys_memoryAfter_iff

/-- The second of two lookups gets the key of the first, also with a line marker between the key and
the call. -/
theorem second_lookup_gets_key_of_first :
    let get : Instruction := .call .invokevirtual
      ⟨"org/json/JSONObject", "getString", "(Ljava/lang/String;)Ljava/lang/String;"⟩ false
    let before : List Instruction := [.label 0, .line 7 0, .slot .aload 0, .loadText "id", get,
      .simple .pop, .slot .aload 0, .loadText "token", .line 8 0]
    let parse : Method := .plain "parse" "(Lorg/json/JSONObject;)V" publicFlag
      (before ++ [get, .simple .pop, .simple .returnVoid])
    let c : ClassFile := { ClassFile.empty "a/B" with methods := [parse] }
    let m : Mutation := ⟨⟨"json_get_param", "a/B", "parse(Lorg/json/JSONObject;)V", 0,
      "Changed parameter of getString to id"⟩, 8, none⟩
    let pl : Place := ⟨⟨[], parse, []⟩, before, get, [.simple .pop, .simple .returnVoid]⟩
    Policy.IsSelection Policy.defaults ∧ .lookupKey ∈ Policy.defaults ∧
      ¬ "org/json/".toList <+: c.name.toList ∧ findMutations c Policy.defaults = [m] ∧
      c.IssuesAt Policy.defaults pl 0 ∧ LooksUp before get "getString" "token" ∧
      IsEarliestOther before "getString" "token" "id" ∧
      ∃ mutant, materialize c Policy.defaults m.id = .ok mutant ∧
        mutant.artifact = { c with methods := [pl.withKey "id"] }.toBytes := by
  intro get before parse c m pl
  have hselection : Policy.IsSelection Policy.defaults := .inr (.inl rfl)
  have hclass : ¬ "org/json/".toList <+: c.name.toList := by
    subst c parse before get
    decide
  have hfound : findMutations c Policy.defaults = [m] := by
    subst m c parse before get
    decide
  have hissued : c.IssuesAt Policy.defaults pl 0 := by
    subst pl c parse before get
    constructor <;> decide
  have hcall : LooksUp before get "getString" "token" :=
    ⟨⟨_, _, _, rfl⟩, ⟨"String".toList, by decide⟩, rfl⟩
  have hother : IsEarliestOther before "getString" "token" "id" := by
    refine Policy.otherKey?_memoryAfter_eq_some_iff.mp ?_
    subst before get
    decide
  obtain ⟨-, -, hmutants, -⟩ := recycled_keys hselection (by decide) hclass
  obtain ⟨pl', lookup, key, other, mutant, hissued', -, hcall', hother', hmutant, hartifact,
    hkept⟩ := hmutants m (by rw [hfound]; exact List.mem_cons_self) rfl
  obtain ⟨s, hs, hplace⟩ := ClassFile.issuesAt_iff.mp hissued
  obtain rfl : pl' = pl := ((ClassFile.issuesAt_iff_eq_place hs).mp hissued').trans hplace
  obtain ⟨rfl, rfl⟩ := hcall.iff.mp hcall'
  have hkey : some other = some "id" :=
    (Policy.otherKey?_memoryAfter_eq_some_iff.mpr hother').symm.trans
      (Policy.otherKey?_memoryAfter_eq_some_iff.mpr hother)
  obtain rfl := Option.some.inj hkey
  refine ⟨hselection, by decide, hclass, hfound, hissued, hcall, hother, mutant, hmutant, ?_⟩
  rw [hartifact, hkept (by subst c parse before get; decide)]
  exact congrArg ClassFile.toBytes rfl

/-- A line marker whose label the code does not define is forgotten in the mutant of a lookup. -/
theorem recycled_key_forgets_dangling_line :
    let get : Instruction := .call .invokevirtual
      ⟨"org/json/JSONObject", "getString", "(Ljava/lang/String;)Ljava/lang/String;"⟩ false
    let before : List Instruction := [.line 7 0, .slot .aload 0, .loadText "id", get, .simple .pop,
      .slot .aload 0, .loadText "token"]
    let parse : Method := .plain "parse" "(Lorg/json/JSONObject;)V" publicFlag
      (before ++ [get, .simple .pop, .simple .returnVoid])
    let c : ClassFile := { ClassFile.empty "a/B" with methods := [parse] }
    let m : Mutation := ⟨⟨"json_get_param", "a/B", "parse(Lorg/json/JSONObject;)V", 0,
      "Changed parameter of getString to id"⟩, 7, none⟩
    let pl : Place := ⟨⟨[], parse, []⟩, before, get, [.simple .pop, .simple .returnVoid]⟩
    m ∈ findMutations c Policy.defaults ∧ c.IssuesAt Policy.defaults pl 0 ∧
      ∃ mutant, materialize c Policy.defaults m.id = .ok mutant ∧
        mutant.artifact ≠ { c with methods := [pl.withKey "id"] }.toBytes := by
  intro get before parse c m pl
  have hm : m ∈ findMutations c Policy.defaults := by
    subst m c parse before get
    decide
  have hissued : c.IssuesAt Policy.defaults pl 0 := by
    subst pl c parse before get
    constructor <;> decide
  obtain ⟨mutant, hmutant, hartifact⟩ := exists_mutant_of_mem hm
  refine ⟨hm, hissued, mutant, hmutant, ?_⟩
  rw [hartifact]
  refine fun heq => absurd (congrArg ClassFile.ofBytes? heq) ?_
  rw [ClassFile.ofBytes?_toBytes_eq_reread?, ClassFile.ofBytes?_toBytes_eq_reread?]
  subst pl m c parse before get
  decide

end MutationTesting
