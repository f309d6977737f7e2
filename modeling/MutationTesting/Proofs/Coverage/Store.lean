import Mathlib.Data.List.Induction
import Mathlib.Data.String.Basic
import MutationTesting.Coverage.Store
/-!
# What a coverage store knows

A store comes about by registrations, visits and snapshots. It knows a class under one number only,
with as many hits as lines and one more, and once all probes of a class are hit they stay so until a
snapshot is taken. A snapshot lists the classes that were visited, each with its lines that were
hit.

## Main definitions

* `CoverageStore.Reachable` — the stores that can come about
* `CoverageStore.IsSound` — what is true of all of them
* `CoverageStore.Covers` — all probes of a class are hit

## Main results

* `CoverageStore.Reachable.isSound`, `CoverageStore.Reachable.probeCount?_ne_zero`
* `CoverageStore.Covers.visit`, `CoverageStore.Covers.register`, `CoverageStore.covers_visit_all`
* `CoverageStore.Covers.lookup_snapshot` — a snapshot lists all lines of such a class
-/

namespace MutationTesting

/-! ### Lines in order -/

theorem mem_insertLine {n m : UInt32} {ns : List UInt32} :
    m ∈ insertLine n ns ↔ m = n ∨ m ∈ ns := by
  induction ns with
  | nil => simp [insertLine]
  | cons k ns ih =>
    rw [insertLine]
    split
    · simp
    · split
      · next h => simp [h]
      · simp only [List.mem_cons, ih]
        exact or_left_comm

theorem mem_sortLines {m : UInt32} {ns : List UInt32} : m ∈ sortLines ns ↔ m ∈ ns := by
  induction ns with
  | nil => simp [sortLines]
  | cons n ns ih =>
    change m ∈ insertLine n (sortLines ns) ↔ _
    rw [mem_insertLine, ih, List.mem_cons]

theorem pairwise_insertLine {n : UInt32} {ns : List UInt32} (h : ns.Pairwise (· < ·)) :
    (insertLine n ns).Pairwise (· < ·) := by
  induction ns with
  | nil => exact List.pairwise_singleton _ _
  | cons m ns ih =>
    obtain ⟨hm, hns⟩ := List.pairwise_cons.mp h
    rw [insertLine]
    split
    · next hlt =>
      refine List.pairwise_cons.mpr ⟨fun k hk => ?_, h⟩
      obtain rfl | hk := List.mem_cons.mp hk
      · exact hlt
      · exact UInt32.lt_trans hlt (hm k hk)
    · split
      · exact h
      · next hnlt hne =>
        refine List.pairwise_cons.mpr ⟨fun k hk => ?_, ih hns⟩
        obtain rfl | hk := mem_insertLine.mp hk
        · exact UInt32.lt_of_le_of_ne (UInt32.not_lt.mp hnlt) (Ne.symm hne)
        · exact hm k hk

theorem pairwise_sortLines (ns : List UInt32) : (sortLines ns).Pairwise (· < ·) := by
  induction ns with
  | nil => exact List.Pairwise.nil
  | cons n ns ih => exact pairwise_insertLine ih

/-- Lists in a strict order are told apart by their members. -/
theorem eq_of_pairwise_of_mem_iff {α : Type} {r : α → α → Prop} (hr : ∀ {a b}, r a b → ¬ r b a)
    {as bs : List α} (has : as.Pairwise r) (hbs : bs.Pairwise r) (h : ∀ a, a ∈ as ↔ a ∈ bs) :
    as = bs := by
  have hne : ∀ {a b}, r a b → a ≠ b := by
    rintro a b hab rfl
    exact hr hab hab
  have hperm : as.Perm bs := (List.perm_ext_iff_of_nodup (has.imp hne) (hbs.imp hne)).mpr h
  exact hperm.eq_of_pairwise (fun a b _ _ hab hba => absurd hba (hr hab)) has hbs

/-- To sort lines that are in order does nothing. -/
theorem sortLines_eq_self {ns : List UInt32} (h : ns.Pairwise (· < ·)) : sortLines ns = ns :=
  eq_of_pairwise_of_mem_iff UInt32.lt_asymm (pairwise_sortLines ns) h fun _ => mem_sortLines

/-! ### Line coverage by names -/

namespace LineCoverage

@[simp] theorem lookup_insert_self (name : String) (lines : List UInt32) (found : LineCoverage) :
    (insert name lines found).lookup name = some lines := by
  induction found with
  | nil => simp [insert]
  | cons entry rest ih =>
    obtain ⟨other, old⟩ := entry
    by_cases hother : name = other
    · simp [insert, hother]
    · by_cases hlt : name < other
      · simp [insert, hother, hlt]
      · simp [insert, hother, hlt, List.lookup_cons, beq_eq_false_iff_ne.mpr hother, ih]

theorem lookup_insert_of_ne {name other : String} (h : other ≠ name) (lines : List UInt32)
    (found : LineCoverage) : (insert name lines found).lookup other = found.lookup other := by
  have hbeq : (other == name) = false := beq_eq_false_iff_ne.mpr h
  induction found with
  | nil => simp [insert, List.lookup_cons, hbeq]
  | cons entry rest ih =>
    obtain ⟨key, old⟩ := entry
    by_cases hkey : name = key
    · subst hkey
      simp [insert, List.lookup_cons, hbeq]
    · by_cases hlt : name < key
      · simp [insert, hkey, hlt, List.lookup_cons, hbeq]
      · simp [insert, hkey, hlt, List.lookup_cons, ih]

/-- The names come in their order, each once. -/
def IsOrdered (found : LineCoverage) : Prop := found.Pairwise (·.1 < ·.1)

theorem mem_insert {name : String} {lines : List UInt32} {found : LineCoverage}
    (h : found.IsOrdered) (e : String × List UInt32) :
    e ∈ insert name lines found ↔ e = (name, lines) ∨ e ∈ found ∧ e.1 ≠ name := by
  induction found with
  | nil => simp [insert]
  | cons entry rest ih =>
    obtain ⟨other, old⟩ := entry
    obtain ⟨hother, hrest⟩ := List.pairwise_cons.mp h
    have hne : e ∈ rest → e.1 ≠ other := fun he => (hother e he).ne'
    rw [insert]
    split
    · next heq =>
      subst heq
      simp only [List.mem_cons]
      constructor
      · rintro (he | he)
        · exact .inl he
        · exact .inr ⟨.inr he, hne he⟩
      · rintro (he | ⟨rfl | he, hname⟩)
        · exact .inl he
        · exact absurd rfl hname
        · exact .inr he
    · next heq =>
      split
      · next hlt =>
        have hsmaller : ∀ e ∈ (other, old) :: rest, e.1 ≠ name := by
          intro e he
          obtain rfl | he := List.mem_cons.mp he
          · exact Ne.symm heq
          · exact (hlt.trans (hother e he)).ne'
        rw [List.mem_cons]
        exact or_congr_right ⟨fun he => ⟨he, hsmaller e he⟩, And.left⟩
      · rw [List.mem_cons, ih hrest, List.mem_cons]
        constructor
        · rintro (rfl | rfl | ⟨he, hname⟩)
          · exact .inr ⟨.inl rfl, Ne.symm heq⟩
          · exact .inl rfl
          · exact .inr ⟨.inr he, hname⟩
        · rintro (rfl | ⟨rfl | he, hname⟩)
          · exact .inr (.inl rfl)
          · exact .inl rfl
          · exact .inr (.inr ⟨he, hname⟩)

theorem IsOrdered.insert {found : LineCoverage} (h : found.IsOrdered) (name : String)
    (lines : List UInt32) : (LineCoverage.insert name lines found).IsOrdered := by
  induction found with
  | nil => exact List.pairwise_singleton _ _
  | cons entry rest ih =>
    obtain ⟨other, old⟩ := entry
    obtain ⟨hother, hrest⟩ := List.pairwise_cons.mp h
    rw [LineCoverage.insert]
    split
    · next heq =>
      subst heq
      exact List.pairwise_cons.mpr ⟨hother, hrest⟩
    · next heq =>
      split
      · next hlt =>
        refine List.pairwise_cons.mpr ⟨fun e he => ?_, h⟩
        obtain rfl | he := List.mem_cons.mp he
        · exact hlt
        · exact hlt.trans (hother e he)
      · next hnlt =>
        refine List.pairwise_cons.mpr ⟨fun e he => ?_, ih hrest⟩
        obtain rfl | ⟨he, -⟩ := (mem_insert hrest e).mp he
        · exact lt_of_le_of_ne (not_lt.mp hnlt) (Ne.symm heq)
        · exact hother e he

end LineCoverage

/-! ### Hits -/

/-- Hits stay. -/
theorem raise_replicate_true (offset n : Nat) (probes : List Bool) :
    raise offset (List.replicate n true) probes = List.replicate n true := by
  induction n generalizing offset probes with
  | zero => cases offset <;> rfl
  | succ n ih =>
    rw [List.replicate_succ]
    cases offset with
    | zero =>
      cases probes with
      | nil => rfl
      | cons probe probes => rw [raise, ih, Bool.true_or]
    | succ offset => rw [raise, ih]

/-- Hits everywhere leave nothing to hit. -/
theorem raise_all (hits : List Bool) :
    raise 0 hits (List.replicate hits.length true) = List.replicate hits.length true := by
  induction hits with
  | nil => rfl
  | cons hit hits ih => rw [List.length_cons, List.replicate_succ, raise, ih, Bool.or_true]

@[simp] theorem length_raise (offset : Nat) (hits probes : List Bool) :
    (raise offset hits probes).length = hits.length := by
  induction hits generalizing offset probes with
  | nil => cases offset <;> rfl
  | cons hit hits ih =>
    cases offset with
    | zero => cases probes <;> simp [raise, ih]
    | succ offset => simp [raise, ih]

namespace ClassProbes

/-- There is a probe for the class and one for each line. -/
def IsSound (c : ClassProbes) : Prop := c.hits.length = c.lines.length + 1

/-- All probes are hit. -/
def IsCovered (c : ClassProbes) : Prop := c.hits = List.replicate (c.lines.length + 1) true

theorem isSound_fresh (name : String) (lines : List UInt32) : (fresh name lines).IsSound := by
  simp [IsSound, fresh]

theorem IsSound.visit {c : ClassProbes} (h : c.IsSound) (offset : Nat) (probes : List Bool) :
    (c.visit offset probes).IsSound := by
  cases hhits : c.hits with
  | nil => simp [IsSound, hhits] at h
  | cons hit hits =>
    simp only [IsSound, hhits, List.length_cons] at h
    simp [IsSound, ClassProbes.visit, hhits, h]

theorem IsSound.clear {c : ClassProbes} (h : c.IsSound) : c.clear.IsSound := by
  simpa [IsSound, ClassProbes.clear] using h

theorem IsCovered.visit {c : ClassProbes} (h : c.IsCovered) (offset : Nat) (probes : List Bool) :
    (c.visit offset probes).IsCovered := by
  rw [IsCovered, List.replicate_succ] at h
  simp only [IsCovered, ClassProbes.visit, h, raise_replicate_true, List.replicate_succ]

/-- A visit that hits every line. -/
theorem IsSound.isCovered_visit {c : ClassProbes} (h : c.IsSound) :
    (c.visit 0 (List.replicate (c.hits.length - 1) true)).IsCovered := by
  cases hhits : c.hits with
  | nil => simp [IsSound, hhits] at h
  | cons hit hits =>
    simp only [IsSound, hhits, List.length_cons, Nat.add_right_cancel_iff] at h
    simp only [IsCovered, ClassProbes.visit, hhits, List.length_cons, Nat.add_sub_cancel,
      raise_all, ← h, List.replicate_succ]

theorem IsCovered.visited {c : ClassProbes} (h : c.IsCovered) : c.visited = true := by
  rw [IsCovered, List.replicate_succ] at h
  rw [ClassProbes.visited, h]
  rfl

theorem IsCovered.hitLines {c : ClassProbes} (h : c.IsCovered) : c.hitLines = c.lines := by
  rw [IsCovered, List.replicate_succ] at h
  have hall : ∀ lines : List UInt32,
      ((lines.zip (List.replicate lines.length true)).filter (·.2)).map (·.1) = lines := by
    intro lines
    induction lines with
    | nil => rfl
    | cons n lines ih => simp [List.replicate_succ, ih]
  rw [ClassProbes.hitLines, h, List.drop_one, List.tail_cons, hall]

/-- A line is hit if its probe is. -/
theorem mem_hitLines {c : ClassProbes} {line : UInt32} :
    line ∈ c.hitLines ↔ ∃ i, c.lines[i]? = some line ∧ c.hits[i + 1]? = some true := by
  have hmem : line ∈ c.hitLines ↔ (line, true) ∈ c.lines.zip (c.hits.drop 1) := by
    simp [ClassProbes.hitLines]
  rw [hmem, List.mem_iff_getElem?]
  refine exists_congr fun i => ?_
  rw [List.getElem?_zip_eq_some, List.getElem?_drop, Nat.add_comm 1 i]

end ClassProbes

/-! ### Stores -/

namespace CoverageStore

/-- The stores that come about from one that knows no class. -/
inductive Reachable : CoverageStore → Prop where
  | empty : Reachable .empty
  | register {s : CoverageStore} (h : Reachable s) (name : String) (lines : List UInt32) :
      Reachable (s.register name lines).2
  | visit {s : CoverageStore} (h : Reachable s) (id offset : Nat) (probes : List Bool) :
      Reachable (s.visit id offset probes)
  | snapshot {s : CoverageStore} (h : Reachable s) : Reachable s.snapshot.2

/-- Every class has one number, and as many probes as it should. -/
structure IsSound (s : CoverageStore) : Prop where
  names : (s.classes.map (·.name)).Nodup
  classes : ∀ c ∈ s.classes, c.IsSound

/-- All probes of the class with the name and the lines are hit. -/
def Covers (s : CoverageStore) (name : String) (lines : List UInt32) : Prop :=
  ∃ c ∈ s.classes, c.name = name ∧ c.lines = lines ∧ c.IsCovered

variable {s : CoverageStore} {name : String} {lines : List UInt32}

theorem classId?_eq_none : s.classId? name = none ↔ ∀ c ∈ s.classes, c.name ≠ name := by
  simp [classId?, List.findIdx?_eq_none_iff]

/-- The class of a number. -/
theorem exists_of_classId? {id : Nat} (h : s.classId? name = some id) :
    ∃ c ∈ s.classes, s.classes[id]? = some c ∧ c.name = name := by
  obtain ⟨hlt, hname, -⟩ := List.findIdx?_eq_some_iff_getElem.mp h
  exact ⟨s.classes[id], List.getElem_mem hlt, List.getElem?_eq_getElem hlt, by simpa using hname⟩

/-- A class is registered by adding it, or it is known. -/
theorem register_cases (s : CoverageStore) (name : String) (lines : List UInt32) :
    (s.register name lines).2 = s ∨
      (∀ c ∈ s.classes, c.name ≠ name) ∧
        (s.register name lines).2 = ⟨s.classes ++ [.fresh name lines]⟩ := by
  rw [register]
  cases h : s.classId? name with
  | some id => exact .inl rfl
  | none => exact .inr ⟨classId?_eq_none.mp h, rfl⟩

/-- A visited store has the classes that it had, one of them visited. -/
theorem mem_visit {id offset : Nat} {probes : List Bool} {c : ClassProbes}
    (h : c ∈ (s.visit id offset probes).classes) :
    ∃ c' ∈ s.classes, c = c' ∨ c = c'.visit offset probes := by
  obtain ⟨n, hn⟩ := List.mem_iff_getElem?.mp h
  rw [visit, List.getElem?_modify] at hn
  obtain ⟨c', hc', rfl⟩ := Option.map_eq_some_iff.mp hn
  refine ⟨c', List.mem_of_getElem? hc', ?_⟩
  split
  · exact .inr rfl
  · exact .inl rfl

theorem names_visit (s : CoverageStore) (id offset : Nat) (probes : List Bool) :
    (s.visit id offset probes).classes.map (·.name) = s.classes.map (·.name) := by
  refine List.ext_getElem? fun n => ?_
  rw [List.getElem?_map, List.getElem?_map, visit, List.getElem?_modify]
  cases s.classes[n]? with
  | none => rfl
  | some c =>
    simp only [Option.map_some]
    split <;> rfl

theorem IsSound.register (h : s.IsSound) (name : String) (lines : List UInt32) :
    (s.register name lines).2.IsSound := by
  obtain heq | ⟨hnew, heq⟩ := s.register_cases name lines <;> rw [heq]
  · exact h
  · constructor
    · rw [List.map_append, List.nodup_append]
      refine ⟨h.names, by simp, ?_⟩
      rintro n hn m hm rfl
      obtain ⟨c, hc, rfl⟩ := List.mem_map.mp hn
      exact hnew c hc (by simpa [ClassProbes.fresh] using hm)
    · intro c hc
      obtain hc | hc := List.mem_append.mp hc
      · exact h.classes c hc
      · rw [List.mem_singleton.mp hc]
        exact ClassProbes.isSound_fresh name lines

theorem IsSound.visit (h : s.IsSound) (id offset : Nat) (probes : List Bool) :
    (s.visit id offset probes).IsSound := by
  constructor
  · rw [names_visit]
    exact h.names
  · intro c hc
    obtain ⟨c', hc', rfl | rfl⟩ := mem_visit hc
    · exact h.classes c hc'
    · exact (h.classes c' hc').visit offset probes

/-- A snapshot forgets hits and nothing else. -/
theorem mem_snapshot {c : ClassProbes} (h : c ∈ s.snapshot.2.classes) :
    ∃ c' ∈ s.classes, c = c' ∨ c = c'.clear := by
  obtain ⟨c', hc', rfl⟩ := List.mem_map.mp h
  refine ⟨c', hc', ?_⟩
  split
  · exact .inr rfl
  · exact .inl rfl

theorem IsSound.snapshot (h : s.IsSound) : s.snapshot.2.IsSound := by
  constructor
  · have hnames : s.snapshot.2.classes.map (·.name) = s.classes.map (·.name) := by
      simp only [CoverageStore.snapshot, List.map_map]
      refine List.map_congr_left fun c _ => ?_
      simp only [Function.comp_apply]
      split <;> rfl
    rw [hnames]
    exact h.names
  · intro c hc
    obtain ⟨c', hc', rfl | rfl⟩ := mem_snapshot hc
    · exact h.classes c hc'
    · exact (h.classes c' hc').clear

/-- **Stores are sound.** -/
theorem Reachable.isSound (h : s.Reachable) : s.IsSound := by
  induction h with
  | empty => exact ⟨List.nodup_nil, nofun⟩
  | register _ name lines ih => exact ih.register name lines
  | visit _ id offset probes ih => exact ih.visit id offset probes
  | snapshot _ ih => exact ih.snapshot

/-- The probes of a class are counted. -/
theorem probeCount?_of_getElem? {id : Nat} {c : ClassProbes} (h : s.classes[id]? = some c) :
    (s.probeCount? id).getD 0 = c.hits.length := by
  rw [probeCount?, h]
  rfl

/-- **No class is without probes.** -/
theorem Reachable.probeCount?_ne_zero (h : s.Reachable) {id : Nat}
    (hid : s.classId? name = some id) : (s.probeCount? id).getD 0 ≠ 0 := by
  obtain ⟨c, hc, hget, -⟩ := exists_of_classId? hid
  rw [probeCount?_of_getElem? hget, h.isSound.classes c hc]
  exact Nat.succ_ne_zero _

/-- The number of a class is its only place. -/
theorem IsSound.classId?_eq_some_iff {s : CoverageStore} (h : s.IsSound) {name : String}
    {id : Nat} : s.classId? name = some id ↔ ∃ c, s.classes[id]? = some c ∧ c.name = name := by
  constructor
  · intro hid
    obtain ⟨c, -, hget, hname⟩ := exists_of_classId? hid
    exact ⟨c, hget, hname⟩
  · rintro ⟨c, hget, rfl⟩
    cases hid : s.classId? c.name with
    | none => exact absurd rfl (classId?_eq_none.mp hid c (List.mem_of_getElem? hget))
    | some id' =>
      obtain ⟨c', -, hget', hname⟩ := exists_of_classId? hid
      have hnames : (s.classes.map (·.name))[id']? = (s.classes.map (·.name))[id]? := by
        rw [List.getElem?_map, List.getElem?_map, hget, hget', Option.map_some, Option.map_some,
          hname]
      have hlt : id' < (s.classes.map (·.name)).length := by
        rw [List.length_map]
        exact (List.getElem?_eq_some_iff.mp hget').1
      rw [(List.getElem?_inj hlt h.names).mp hnames]

/-! ### What a snapshot lists -/

/-- The classes that a snapshot lists. -/
theorem foldl_insert_sound {classes : List ClassProbes} (hnames : (classes.map (·.name)).Nodup) :
    let found := classes.foldl
      (fun found c => LineCoverage.insert c.name (sortLines c.hitLines) found) []
    found.IsOrdered ∧
      ∀ e, e ∈ found ↔ ∃ c ∈ classes, e = (c.name, sortLines c.hitLines) := by
  induction classes using List.reverseRecOn with
  | nil => exact ⟨List.Pairwise.nil, by simp⟩
  | append_singleton classes last ih =>
    rw [List.map_append, List.nodup_append] at hnames
    obtain ⟨hfirst, -, hlast⟩ := hnames
    obtain ⟨hordered, hmem⟩ := ih hfirst
    rw [List.foldl_append, List.foldl_cons, List.foldl_nil]
    refine ⟨hordered.insert _ _, fun e => ?_⟩
    rw [LineCoverage.mem_insert hordered, hmem]
    constructor
    · rintro (rfl | ⟨⟨c, hc, rfl⟩, -⟩)
      · exact ⟨last, by simp, rfl⟩
      · exact ⟨c, List.mem_append_left _ hc, rfl⟩
    · rintro ⟨c, hc, rfl⟩
      obtain hc | hc := List.mem_append.mp hc
      · exact .inr ⟨⟨c, hc, rfl⟩, hlast c.name (List.mem_map_of_mem hc) last.name (by simp)⟩
      · rw [List.mem_singleton.mp hc]
        exact .inl rfl

theorem IsSound.isOrdered_snapshot {s : CoverageStore} (h : s.IsSound) :
    s.snapshot.1.IsOrdered :=
  (foldl_insert_sound (h.names.sublist ((List.filter_sublist (l := s.classes)).map _))).1

theorem IsSound.mem_snapshot_iff {s : CoverageStore} (h : s.IsSound) {e : String × List UInt32} :
    e ∈ s.snapshot.1 ↔
      ∃ c ∈ s.classes, c.visited = true ∧ e = (c.name, sortLines c.hitLines) := by
  rw [CoverageStore.snapshot, (foldl_insert_sound
    (h.names.sublist ((List.filter_sublist (l := s.classes)).map _))).2]
  simp only [List.mem_filter, and_assoc]

/-! ### Classes whose probes are all hit -/

theorem Covers.register (h : s.Covers name lines) (name' : String) (lines' : List UInt32) :
    (s.register name' lines').2.Covers name lines := by
  obtain ⟨c, hc, hcovered⟩ := h
  obtain heq | ⟨-, heq⟩ := s.register_cases name' lines' <;> rw [heq]
  · exact ⟨c, hc, hcovered⟩
  · exact ⟨c, List.mem_append_left _ hc, hcovered⟩

theorem Covers.visit (h : s.Covers name lines) (id offset : Nat) (probes : List Bool) :
    (s.visit id offset probes).Covers name lines := by
  obtain ⟨c, hc, hname, hlines, hcovered⟩ := h
  obtain ⟨n, hn⟩ := List.mem_iff_getElem?.mp hc
  have hget : (s.visit id offset probes).classes[n]? =
      some (if id = n then c.visit offset probes else c) := by
    rw [CoverageStore.visit, List.getElem?_modify, hn]
    rfl
  refine ⟨_, List.mem_of_getElem? hget, ?_⟩
  split
  · exact ⟨hname, hlines, hcovered.visit offset probes⟩
  · exact ⟨hname, hlines, hcovered⟩

/-- A class is covered by a visit that hits all of its lines. -/
theorem covers_visit_all {id : Nat} {c : ClassProbes} (hsound : c.IsSound)
    (hid : s.classes[id]? = some c) :
    (s.visit id 0 (List.replicate ((s.probeCount? id).getD 0 - 1) true)).Covers c.name c.lines := by
  have hget : (s.visit id 0 (List.replicate (c.hits.length - 1) true)).classes[id]? =
      some (c.visit 0 (List.replicate (c.hits.length - 1) true)) := by
    rw [CoverageStore.visit, List.getElem?_modify, hid]
    simp only [if_true, Option.map_eq_map, Option.map_some]
  rw [probeCount?_of_getElem? hid]
  exact ⟨_, List.mem_of_getElem? hget, rfl, rfl, hsound.isCovered_visit⟩

/-- What classes with different names are listed under. -/
theorem lookup_foldl_insert {classes : List ClassProbes}
    (hnames : (classes.map (·.name)).Nodup) {c : ClassProbes} (hc : c ∈ classes)
    (found : LineCoverage) :
    (classes.foldl (fun found c => LineCoverage.insert c.name (sortLines c.hitLines) found)
      found).lookup c.name = some (sortLines c.hitLines) := by
  induction classes using List.reverseRecOn with
  | nil => cases hc
  | append_singleton classes last ih =>
    rw [List.map_append, List.nodup_append] at hnames
    obtain ⟨hfirst, -, hlast⟩ := hnames
    rw [List.foldl_append, List.foldl_cons, List.foldl_nil]
    obtain hc | hc := List.mem_append.mp hc
    · rw [LineCoverage.lookup_insert_of_ne (hlast c.name (List.mem_map_of_mem hc) last.name
        (List.mem_singleton_self _)), ih hfirst hc]
    · rw [List.mem_singleton.mp hc, LineCoverage.lookup_insert_self]

/-- **A snapshot lists all lines** of a class whose probes are all hit. -/
theorem Covers.lookup_snapshot (h : s.Covers name lines) (hsound : s.IsSound) :
    s.snapshot.1.lookup name = some (sortLines lines) := by
  obtain ⟨c, hc, rfl, rfl, hcovered⟩ := h
  have hvisited : c ∈ s.classes.filter (·.visited) :=
    List.mem_filter.mpr ⟨hc, hcovered.visited⟩
  have hnames : ((s.classes.filter (·.visited)).map (·.name)).Nodup :=
    hsound.names.sublist ((List.filter_sublist (l := s.classes)).map _)
  rw [CoverageStore.snapshot, lookup_foldl_insert hnames hvisited, hcovered.hitLines]

end CoverageStore

end MutationTesting
