import Mathlib.Data.String.Basic
import MutationTesting.Proofs.Coverage.Store
/-!
# What a store was asked

An account of a store lists what it was asked, as far as that matters: the classes with the lines
of their first registration, and the visits of known classes since the last snapshot. The store is
determined by its account. Which probes are hit is a question about the visits as a set, so their
order does not matter, and a class is hit as soon as one of its lines is: that is why a snapshot may
pass over the classes whose first probe is not hit.

## Main definitions

* `StoreOperation`, `CoverageStore.after` — operations, and the store that they lead to
* `Account`, `Account.store` — an account, and the store that it describes

## Main results

* `CoverageStore.after_eq_store` — a store is what its account describes
* `CoverageStore.mem_snapshot_after` — what a snapshot lists
* `CoverageStore.after_append_congr` — visits may be exchanged
* `CoverageStore.loses_and_invents_no_hit`
-/

namespace MutationTesting

/-! ### Hits -/

/-- A visit of a class: the number of the class, the position of the line that the first probe
belongs to, and the probes. -/
structure ProbeVisit where
  id : Nat
  offset : Nat
  probes : List Bool
  deriving DecidableEq

/-- The visit hits the line at a position. -/
def ProbeVisit.hits (v : ProbeVisit) (i : Nat) : Bool :=
  v.offset ≤ i && (v.probes[i - v.offset]?).getD false

theorem ProbeVisit.hits_eq_true {v : ProbeVisit} {i : Nat} :
    v.hits i = true ↔ v.offset ≤ i ∧ v.probes[i - v.offset]? = some true := by
  rw [hits, Bool.and_eq_true, decide_eq_true_eq]
  refine and_congr_right fun _ => ?_
  cases v.probes[i - v.offset]? <;> simp

theorem getElem?_raise (hits : List Bool) (v : ProbeVisit) (i : Nat) :
    (raise v.offset hits v.probes)[i]? = hits[i]?.map (· || v.hits i) := by
  obtain ⟨id, offset, probes⟩ := v
  dsimp only
  induction hits generalizing offset probes i with
  | nil => cases offset <;> rfl
  | cons hit hits ih =>
    cases offset with
    | zero =>
      cases probes with
      | nil => simp [raise, ProbeVisit.hits]
      | cons probe probes =>
        cases i with
        | zero => simp [raise, ProbeVisit.hits]
        | succ i =>
          rw [raise, List.getElem?_cons_succ, ih]
          simp [ProbeVisit.hits]
    | succ offset =>
      cases i with
      | zero => simp [raise, ProbeVisit.hits]
      | succ i =>
        rw [raise, List.getElem?_cons_succ, ih]
        simp [ProbeVisit.hits, Nat.add_sub_add_right]

/-! ### Operations -/

/-- What a store can be asked to do. -/
inductive StoreOperation where
  | register (name : String) (lines : List UInt32)
  | visit (v : ProbeVisit)
  | snapshot
  deriving DecidableEq

namespace StoreOperation

/-- The class that is registered. -/
def registration? : StoreOperation → Option (String × List UInt32)
  | .register name lines => some (name, lines)
  | _ => none

/-- The visit that is made. -/
def visit? : StoreOperation → Option ProbeVisit
  | .visit v => some v
  | _ => none

end StoreOperation

namespace CoverageStore

/-- The store after an operation. -/
def perform (s : CoverageStore) : StoreOperation → CoverageStore
  | .register name lines => (s.register name lines).2
  | .visit v => s.visit v.id v.offset v.probes
  | .snapshot => s.snapshot.2

/-- A new store after some operations. -/
def after (ops : List StoreOperation) : CoverageStore := ops.foldl perform .empty

theorem after_concat (ops : List StoreOperation) (op : StoreOperation) :
    after (ops ++ [op]) = (after ops).perform op := by
  rw [after, List.foldl_append]
  rfl

/-- Operations lead to the stores that can come about. -/
theorem reachable_after (ops : List StoreOperation) : (after ops).Reachable := by
  induction ops using List.reverseRecOn with
  | nil => exact .empty
  | append_singleton ops op ih =>
    rw [after_concat]
    cases op with
    | register name lines => exact ih.register name lines
    | visit v => exact ih.visit v.id v.offset v.probes
    | snapshot => exact ih.snapshot

end CoverageStore

/-! ### Accounts -/

/-- What a store was asked, as far as it matters. -/
structure Account where
  /-- The classes with the lines of their first registration, in the order of their numbers. -/
  known : List (String × List UInt32)
  /-- The visits of known classes since the last snapshot. -/
  visits : List ProbeVisit

namespace Account

/-- The account of a new store. -/
def empty : Account := ⟨[], []⟩

/-- Takes note of an operation. -/
def note (a : Account) : StoreOperation → Account
  | .register name lines =>
    if name ∈ a.known.map (·.1) then a else { a with known := a.known ++ [(name, lines)] }
  | .visit v => if v.id < a.known.length then { a with visits := a.visits ++ [v] } else a
  | .snapshot => { a with visits := [] }

/-- Takes note of operations, one after the other. -/
def noteAll (a : Account) (ops : List StoreOperation) : Account := ops.foldl note a

/-- The probes of a class as the visits have hit them. -/
def probesOf (visits : List ProbeVisit) (id : Nat) (c : String × List UInt32) : ClassProbes :=
  ⟨c.1, c.2, visits.any (·.id == id) ::
    (List.range c.2.length).map fun i => visits.any fun v => v.id == id && v.hits i⟩

/-- The store that an account describes. -/
def store (a : Account) : CoverageStore := ⟨a.known.mapIdx (probesOf a.visits)⟩

/-- The visits are visits of known classes. -/
def IsSound (a : Account) : Prop := ∀ v ∈ a.visits, v.id < a.known.length

theorem IsSound.note {a : Account} (h : a.IsSound) (op : StoreOperation) : (a.note op).IsSound := by
  cases op with
  | register name lines =>
    rw [Account.note]
    split
    · exact h
    · intro v hv
      rw [List.length_append]
      exact Nat.lt_add_right _ (h v hv)
  | visit v =>
    rw [Account.note]
    split
    · next hlt =>
      intro w hw
      obtain hw | hw := List.mem_append.mp hw
      · exact h w hw
      · rwa [List.mem_singleton.mp hw]
    · exact h
  | snapshot => exact nofun

theorem names_store (a : Account) : a.store.classes.map (·.name) = a.known.map (·.1) := by
  refine List.ext_getElem? fun n => ?_
  simp only [store, List.getElem?_map, List.getElem?_mapIdx, Option.map_map]
  rfl

theorem store_register {a : Account} (h : a.IsSound) (name : String) (lines : List UInt32) :
    (a.note (.register name lines)).store = (a.store.register name lines).2 := by
  have hknown : name ∈ a.known.map (·.1) ↔ ∃ c ∈ a.store.classes, c.name = name := by
    rw [← a.names_store, List.mem_map]
  rw [note, CoverageStore.register]
  cases hid : a.store.classId? name with
  | some id =>
    obtain ⟨c, hc, -, hname⟩ := CoverageStore.exists_of_classId? hid
    rw [if_pos (hknown.mpr ⟨c, hc, hname⟩)]
  | none =>
    rw [if_neg fun hmem => by
      obtain ⟨c, hc, hname⟩ := hknown.mp hmem
      exact CoverageStore.classId?_eq_none.mp hid c hc hname]
    -- nothing has visited the number that the class gets
    have hnone : ∀ p : ProbeVisit → Bool,
        a.visits.any (fun v => v.id == a.known.length && p v) = false := by
      intro p
      refine List.any_eq_false.mpr fun v hv => ?_
      simp [(h v hv).ne]
    have hvisited : a.visits.any (·.id == a.known.length) = false := by
      simpa using hnone fun _ => true
    simp only [store, List.mapIdx_append, List.mapIdx_singleton, Nat.zero_add]
    congr 2
    simp only [probesOf, ClassProbes.fresh, hnone, hvisited, List.map_const', List.length_range,
      List.replicate_succ]

theorem visit_probesOf (visits : List ProbeVisit) (v : ProbeVisit) (c : String × List UInt32) :
    (probesOf visits v.id c).visit v.offset v.probes = probesOf (visits ++ [v]) v.id c := by
  have hlines : ∀ hits : List Bool, hits = (List.range c.2.length).map (fun i =>
      visits.any fun w => w.id == v.id && w.hits i) →
      raise v.offset hits v.probes = (List.range c.2.length).map fun i =>
        (visits ++ [v]).any fun w => w.id == v.id && w.hits i := by
    rintro hits rfl
    refine List.ext_getElem? fun i => ?_
    rw [getElem?_raise, List.getElem?_map, List.getElem?_map, Option.map_map]
    by_cases hi : i < c.2.length
    · simp [List.getElem?_range hi]
    · simp [Nat.le_of_not_lt hi]
  simp only [probesOf, ClassProbes.visit, hlines _ rfl]
  simp

theorem probesOf_append (visits : List ProbeVisit) (v : ProbeVisit) (id : Nat)
    (c : String × List UInt32) :
    probesOf (visits ++ [v]) id c =
      if v.id = id then (probesOf visits id c).visit v.offset v.probes
      else probesOf visits id c := by
  split
  · next heq => rw [← heq, visit_probesOf]
  · next hne => simp [probesOf, hne]

theorem store_visit (a : Account) (v : ProbeVisit) :
    (a.note (.visit v)).store = a.store.visit v.id v.offset v.probes := by
  rw [note, CoverageStore.visit]
  split
  · refine congrArg CoverageStore.mk (List.ext_getElem? fun n => ?_)
    simp only [store, List.getElem?_mapIdx, List.getElem?_modify]
    cases a.known[n]? with
    | none => rfl
    | some c =>
      simp only [Option.map_some, probesOf_append]
      split <;> rfl
  · next hge =>
    -- a visit of an unknown class does nothing
    have hlength : a.store.classes.length ≤ v.id := by
      simpa [store] using hge
    rw [List.modify_eq_self hlength]

theorem snapshot_probesOf (visits : List ProbeVisit) (id : Nat) (c : String × List UInt32) :
    (if (probesOf visits id c).visited then (probesOf visits id c).clear
      else probesOf visits id c) = probesOf [] id c := by
  split
  · simp [probesOf, ClassProbes.clear]
  · next hvisited =>
    -- a class with no visit has no hit either
    have hnone : ∀ v ∈ visits, ¬ (v.id == id) = true := by
      simpa [probesOf, ClassProbes.visited] using hvisited
    have hlines : ∀ i, (visits.any fun v => v.id == id && v.hits i) = false := by
      intro i
      refine List.any_eq_false.mpr fun v hv => ?_
      simp [Bool.eq_false_iff.mpr (hnone v hv)]
    simp only [probesOf, hlines, List.any_eq_false.mpr hnone, List.any_nil]

theorem store_snapshot (a : Account) : (a.note .snapshot).store = a.store.snapshot.2 := by
  rw [note, CoverageStore.snapshot]
  refine congrArg CoverageStore.mk (List.ext_getElem? fun n => ?_)
  simp only [store, List.getElem?_mapIdx, List.getElem?_map]
  cases a.known[n]? with
  | none => rfl
  | some c => simp only [Option.map_some, snapshot_probesOf]

/-- An operation changes a store as it changes its account. -/
theorem store_note {a : Account} (h : a.IsSound) (op : StoreOperation) :
    (a.note op).store = a.store.perform op := by
  cases op with
  | register name lines => exact store_register h name lines
  | visit v => exact a.store_visit v
  | snapshot => exact a.store_snapshot

/-- The account of a new store after some operations. -/
def ofOperations (ops : List StoreOperation) : Account := empty.noteAll ops

theorem noteAll_append (a : Account) (ops later : List StoreOperation) :
    a.noteAll (ops ++ later) = (a.noteAll ops).noteAll later := List.foldl_append

theorem noteAll_cons (a : Account) (op : StoreOperation) (ops : List StoreOperation) :
    a.noteAll (op :: ops) = (a.note op).noteAll ops := rfl

theorem ofOperations_append (ops later : List StoreOperation) :
    ofOperations (ops ++ later) = (ofOperations ops).noteAll later := noteAll_append ..

theorem isSound_ofOperations (ops : List StoreOperation) : (ofOperations ops).IsSound := by
  induction ops using List.reverseRecOn with
  | nil => exact nofun
  | append_singleton ops op ih =>
    rw [ofOperations_append]
    exact ih.note op

end Account

namespace Account

/-! ### What an account says of registrations -/

/-- The classes known so far, with another registration. -/
def addKnown (known : List (String × List UInt32)) (c : String × List UInt32) :
    List (String × List UInt32) :=
  if c.1 ∈ known.map (·.1) then known else known ++ [c]

theorem known_note (a : Account) (op : StoreOperation) :
    (a.note op).known = (op.registration?.toList).foldl addKnown a.known := by
  cases op with
  | register name lines =>
    simp only [note, StoreOperation.registration?, Option.toList_some, List.foldl_cons,
      List.foldl_nil, addKnown]
    split <;> rfl
  | visit v =>
    rw [note]
    split <;> rfl
  | snapshot => rfl

/-- Which classes are known is a matter of registrations alone. -/
theorem known_noteAll (a : Account) (ops : List StoreOperation) :
    (a.noteAll ops).known = (ops.filterMap (·.registration?)).foldl addKnown a.known := by
  induction ops generalizing a with
  | nil => rfl
  | cons op ops ih =>
    rw [noteAll_cons, ih, known_note]
    cases h : op.registration? <;> simp [h]

theorem prefix_foldl_addKnown (known registered : List (String × List UInt32)) :
    known <+: registered.foldl addKnown known := by
  induction registered generalizing known with
  | nil => exact List.prefix_refl _
  | cons c registered ih =>
    refine List.IsPrefix.trans ?_ (ih _)
    rw [addKnown]
    split
    · exact List.prefix_refl _
    · exact List.prefix_append _ _

/-- What is known stays known. -/
theorem known_grows (a : Account) (ops : List StoreOperation) :
    a.known <+: (a.noteAll ops).known := by
  rw [known_noteAll]
  exact prefix_foldl_addKnown _ _

theorem mem_names_foldl_addKnown {name : String} (known registered : List (String × List UInt32)) :
    name ∈ (registered.foldl addKnown known).map (·.1) ↔
      name ∈ known.map (·.1) ∨ name ∈ registered.map (·.1) := by
  induction registered generalizing known with
  | nil => simp
  | cons c registered ih =>
    rw [List.foldl_cons, ih, List.map_cons, List.mem_cons, ← or_assoc]
    refine or_congr_left ?_
    rw [addKnown]
    split
    · next hc => exact ⟨.inl, Or.rec id fun h => h ▸ hc⟩
    · rw [List.map_append, List.mem_append, List.map_singleton, List.mem_singleton]

/-- The names that are known are those that were registered. -/
theorem mem_names_ofOperations {ops : List StoreOperation} {name : String} :
    name ∈ (ofOperations ops).known.map (·.1) ↔ ∃ lines, .register name lines ∈ ops := by
  rw [ofOperations, known_noteAll, mem_names_foldl_addKnown, List.map_filterMap,
    List.mem_filterMap]
  constructor
  · rintro (hempty | ⟨op, hop, hname⟩)
    · cases hempty
    · cases op with
      | register name' lines =>
        obtain rfl : name' = name := Option.some.inj hname
        exact ⟨lines, hop⟩
      | visit v => cases hname
      | snapshot => cases hname
  · rintro ⟨lines, hop⟩
    exact .inr ⟨_, hop, rfl⟩

/-- The first registration of a name is known under the next number for ever. -/
theorem getElem?_known_of_first {earlier : List StoreOperation} {name : String}
    (h : ∀ lines, .register name lines ∉ earlier) (lines : List UInt32)
    (later : List StoreOperation) :
    (ofOperations (earlier ++ .register name lines :: later)).known[(ofOperations
      earlier).known.length]? = some (name, lines) := by
  have hnew : name ∉ (ofOperations earlier).known.map (·.1) := fun hmem => by
    obtain ⟨lines', hop⟩ := mem_names_ofOperations.mp hmem
    exact h lines' hop
  have hnoted : ((ofOperations earlier).note (.register name lines)).known =
      (ofOperations earlier).known ++ [(name, lines)] := by
    rw [note, if_neg hnew]
  obtain ⟨rest, hrest⟩ := ((ofOperations earlier).note (.register name lines)).known_grows later
  rw [ofOperations_append, noteAll_cons, ← hrest, hnoted, List.append_assoc,
    List.getElem?_append_right (Nat.le_refl _), Nat.sub_self]
  rfl

/-! ### What an account says of visits -/

/-- The places of an item in a list that grows at its end. -/
theorem exists_append_cons_concat {α : Type} {xs : List α} {x y : α}
    {P : List α → List α → Prop} :
    (∃ first rest, xs ++ [y] = first ++ x :: rest ∧ P first rest) ↔
      y = x ∧ P xs [] ∨ ∃ first rest, xs = first ++ x :: rest ∧ P first (rest ++ [y]) := by
  constructor
  · rintro ⟨first, rest, heq, hP⟩
    obtain rfl | ⟨rest, last, rfl⟩ := List.eq_nil_or_concat rest
    · obtain ⟨rfl, hy⟩ := List.append_inj' heq rfl
      exact .inl ⟨(List.cons.inj hy).1, hP⟩
    · rw [List.concat_eq_append] at heq hP
      rw [← List.cons_append, ← List.append_assoc] at heq
      obtain ⟨rfl, hy⟩ := List.append_inj' heq rfl
      obtain rfl := (List.cons.inj hy).1
      exact .inr ⟨first, rest, rfl, hP⟩
  · rintro (⟨rfl, hP⟩ | ⟨first, rest, rfl, hP⟩)
    · exact ⟨xs, [], rfl, hP⟩
    · exact ⟨first, rest ++ [y], by simp, hP⟩

/-- A visit is noted if its class is known and no snapshot comes after it. -/
theorem mem_visits_ofOperations {ops : List StoreOperation} {v : ProbeVisit} :
    v ∈ (ofOperations ops).visits ↔ ∃ earlier later, ops = earlier ++ .visit v :: later ∧
      .snapshot ∉ later ∧ v.id < (ofOperations earlier).known.length := by
  induction ops using List.reverseRecOn with
  | nil => simp [ofOperations, empty, noteAll]
  | append_singleton ops op ih =>
    rw [ofOperations_append, exists_append_cons_concat]
    change v ∈ ((ofOperations ops).note op).visits ↔ _
    cases op with
    | register name lines =>
      have hvisits : ((ofOperations ops).note (.register name lines)).visits =
          (ofOperations ops).visits := by
        rw [note]
        split <;> rfl
      simp [hvisits, ih]
    | visit w =>
      rw [note]
      split
      · next hlt =>
        rw [List.mem_append, List.mem_singleton, or_comm]
        refine or_congr ⟨?_, ?_⟩ (by simp [ih])
        · rintro rfl
          exact ⟨rfl, List.not_mem_nil, hlt⟩
        · rintro ⟨heq, -⟩
          exact (StoreOperation.visit.inj heq).symm
      · next hnlt =>
        have hnone : ¬ (StoreOperation.visit w = .visit v ∧ StoreOperation.snapshot ∉ [] ∧
            v.id < (ofOperations ops).known.length) := by
          rintro ⟨heq, -, hlt⟩
          exact hnlt (StoreOperation.visit.inj heq ▸ hlt)
        rw [or_iff_right hnone, ih]
        simp
    | snapshot => simp [note]

/-- In these operations no class is visited before it is known. -/
def IsTimely (a : Account) (ops : List StoreOperation) : Prop :=
  ∀ front v back, ops = front ++ .visit v :: back → v.id < (a.noteAll ops).known.length →
    v.id < (a.noteAll front).known.length

theorem IsTimely.tail {a : Account} {op : StoreOperation} {ops : List StoreOperation}
    (h : a.IsTimely (op :: ops)) : (a.note op).IsTimely ops := by
  rintro front v back rfl hlt
  exact h (op :: front) v back rfl hlt

/-- The visits of such operations are noted if their classes are known in the end. -/
theorem IsTimely.visits {a : Account} {ops : List StoreOperation} (h : a.IsTimely ops)
    (hsnapshot : .snapshot ∉ ops) :
    (a.noteAll ops).visits =
      a.visits ++ (ops.filterMap (·.visit?)).filter (·.id < (a.noteAll ops).known.length) := by
  induction ops generalizing a with
  | nil => exact (List.append_nil _).symm
  | cons op ops ih =>
    obtain ⟨hop, hops⟩ := not_or.mp (mt List.mem_cons.mpr hsnapshot)
    rw [noteAll_cons, ih h.tail hops]
    cases op with
    | register name lines =>
      have hvisits : (a.note (.register name lines)).visits = a.visits := by
        rw [note]
        split <;> rfl
      rw [hvisits]
      rfl
    | visit v =>
      have hknown : v.id < ((a.note (.visit v)).noteAll ops).known.length →
          v.id < a.known.length := h [] v ops rfl
      by_cases hlt : v.id < a.known.length
      · have hlater : v.id < ((a.note (.visit v)).noteAll ops).known.length := by
          refine Nat.lt_of_lt_of_le hlt (List.IsPrefix.length_le ?_)
          exact a.known_grows (.visit v :: ops)
        have hvisits : (a.note (.visit v)).visits = a.visits ++ [v] := by
          rw [note, if_pos hlt]
        simp [hvisits, StoreOperation.visit?, hlater]
      · have hvisits : (a.note (.visit v)).visits = a.visits := by
          rw [note, if_neg hlt]
        simp [hvisits, StoreOperation.visit?, mt hknown hlt]
    | snapshot => exact absurd rfl hop

/-! ### What the probes of a class say of visits -/

variable {visits : List ProbeVisit} {id : Nat} {c : String × List UInt32}

theorem visited_probesOf :
    (probesOf visits id c).visited = true ↔ ∃ v ∈ visits, v.id = id := by
  simp [probesOf, ClassProbes.visited]

/-- Where anything is hit, the first probe is. -/
theorem visited_of_hit (h : true ∈ (probesOf visits id c).hits) :
    (probesOf visits id c).visited = true := by
  rw [visited_probesOf]
  obtain h | h := List.mem_cons.mp h
  · simpa using h
  · obtain ⟨i, -, hi⟩ := List.mem_map.mp h
    obtain ⟨v, hv, hhits⟩ := List.any_eq_true.mp hi
    exact ⟨v, hv, by simpa using (Bool.and_eq_true_iff.mp hhits).1⟩

theorem mem_hitLines_probesOf {line : UInt32} :
    line ∈ (probesOf visits id c).hitLines ↔
      ∃ i, c.2[i]? = some line ∧ ∃ v ∈ visits, v.id = id ∧ v.hits i = true := by
  rw [ClassProbes.mem_hitLines]
  refine exists_congr fun i => and_congr_right fun hi => ?_
  have hlt : i < c.2.length := (List.getElem?_eq_some_iff.mp hi).1
  simp [probesOf, List.getElem?_range hlt]

/-- The order of visits does not matter. -/
theorem store_congr {a b : Account} (hknown : a.known = b.known)
    (hvisits : a.visits.Perm b.visits) : a.store = b.store := by
  have hprobes : probesOf a.visits = probesOf b.visits := by
    funext id c
    simp only [probesOf, hvisits.any_eq]
  rw [store, store, hknown, hprobes]

end Account

open Account

namespace CoverageStore

/-- **A store is what its account describes.** -/
theorem after_eq_store (ops : List StoreOperation) : after ops = (ofOperations ops).store := by
  induction ops using List.reverseRecOn with
  | nil => rfl
  | append_singleton ops op ih =>
    rw [after_concat, ofOperations_append, ih, ← store_note (isSound_ofOperations ops)]
    rfl

theorem getElem?_classes_after (ops : List StoreOperation) (id : Nat) :
    (after ops).classes[id]? =
      (ofOperations ops).known[id]?.map (probesOf (ofOperations ops).visits id) := by
  rw [after_eq_store, store, List.getElem?_mapIdx]

theorem length_classes_after (ops : List StoreOperation) :
    (after ops).classes.length = (ofOperations ops).known.length := by
  rw [after_eq_store, store, List.length_mapIdx]

theorem classId?_after {ops : List StoreOperation} {name : String} {id : Nat} :
    (after ops).classId? name = some id ↔
      ∃ lines, (ofOperations ops).known[id]? = some (name, lines) := by
  rw [(reachable_after ops).isSound.classId?_eq_some_iff, getElem?_classes_after]
  constructor
  · rintro ⟨c, hc, rfl⟩
    obtain ⟨⟨name, lines⟩, hknown, rfl⟩ := Option.map_eq_some_iff.mp hc
    exact ⟨lines, hknown⟩
  · rintro ⟨lines, hknown⟩
    exact ⟨_, by rw [hknown, Option.map_some], rfl⟩

/-! ### Registrations -/

/-- **A first registration** decides on the number and the lines of a name for ever. -/
theorem exists_class_of_first {ops earlier later : List StoreOperation} {name : String}
    {lines : List UInt32} (hops : ops = earlier ++ .register name lines :: later)
    (hfirst : ∀ lines', .register name lines' ∉ earlier) :
    ∃ id c, ((after earlier).register name lines).1 = id ∧
      (∀ lines', (after ops).register name lines' = (id, after ops)) ∧
      (after ops).classId? name = some id ∧ (after ops).classes[id]? = some c ∧
      c.name = name ∧ c.lines = lines ∧ (after ops).probeCount? id = some (lines.length + 1) := by
  have hknown := getElem?_known_of_first hfirst lines later
  rw [← hops, ← length_classes_after earlier] at hknown
  have hid := classId?_after.mpr ⟨lines, hknown⟩
  have hget := getElem?_classes_after ops (after earlier).classes.length
  rw [hknown, Option.map_some] at hget
  refine ⟨_, _, ?_, fun lines' => ?_, hid, hget, rfl, rfl, ?_⟩
  · have hnew : (after earlier).classId? name = none := by
      rw [classId?_eq_none]
      intro c hc hname
      obtain ⟨n, hn⟩ := List.mem_iff_getElem?.mp hc
      obtain ⟨lines', hlines'⟩ := classId?_after.mp
        ((reachable_after earlier).isSound.classId?_eq_some_iff.mpr ⟨c, hn, hname⟩)
      obtain ⟨lines'', hop⟩ := mem_names_ofOperations.mp
        (List.mem_map.mpr ⟨_, List.mem_of_getElem? hlines', rfl⟩)
      exact hfirst lines'' hop
    rw [register, hnew]
  · rw [register, hid]
  · rw [probeCount?, hget]
    simp [probesOf]

/-! ### Snapshots -/

/-- Since the last snapshot the class of the name was visited in this way. -/
def IsRecentVisit (ops : List StoreOperation) (name : String) (v : ProbeVisit) : Prop :=
  ∃ earlier later, ops = earlier ++ .visit v :: later ∧ .snapshot ∉ later ∧
    (after earlier).classId? name = some v.id

/-- These are the visits in the account. -/
theorem isRecentVisit_iff {ops : List StoreOperation} {name : String} {v : ProbeVisit} :
    IsRecentVisit ops name v ↔
      v ∈ (ofOperations ops).visits ∧ (after ops).classId? name = some v.id := by
  rw [mem_visits_ofOperations]
  have hkept : ∀ earlier later, ops = earlier ++ .visit v :: later →
      v.id < (ofOperations earlier).known.length →
      (ofOperations ops).known[v.id]? = (ofOperations earlier).known[v.id]? := by
    rintro earlier later rfl hlt
    obtain ⟨rest, hrest⟩ := (ofOperations earlier).known_grows (.visit v :: later)
    rw [ofOperations_append, ← hrest, List.getElem?_append_left hlt]
  constructor
  · rintro ⟨earlier, later, hops, hlater, hid⟩
    obtain ⟨lines, hknown⟩ := classId?_after.mp hid
    have hlt := (List.getElem?_eq_some_iff.mp hknown).1
    refine ⟨⟨earlier, later, hops, hlater, hlt⟩, classId?_after.mpr ⟨lines, ?_⟩⟩
    rw [hkept earlier later hops hlt, hknown]
  · rintro ⟨⟨earlier, later, hops, hlater, hlt⟩, hid⟩
    obtain ⟨lines, hknown⟩ := classId?_after.mp hid
    refine ⟨earlier, later, hops, hlater, classId?_after.mpr ⟨lines, ?_⟩⟩
    rw [← hkept earlier later hops hlt, hknown]

/-- **What a snapshot lists**: the classes that were visited since the last one, each with the lines
that one of these visits has hit. -/
theorem mem_snapshot_after {ops : List StoreOperation} {name : String} {lines : List UInt32} :
    (name, lines) ∈ (after ops).snapshot.1 ↔
      (∃ v, IsRecentVisit ops name v) ∧ lines.Pairwise (· < ·) ∧
        ∀ line, line ∈ lines ↔ ∃ v c i, IsRecentVisit ops name v ∧
          (after ops).classes[v.id]? = some c ∧ c.lines[i]? = some line ∧
          v.offset ≤ i ∧ v.probes[i - v.offset]? = some true := by
  have hsound := (reachable_after ops).isSound
  -- the class of the name, and what its probes say
  have hclass : ∀ {id : Nat} {c : ClassProbes}, (after ops).classes[id]? = some c →
      c.name = name → (c.visited = true ↔ ∃ v, IsRecentVisit ops name v) ∧
        ∀ line, line ∈ c.hitLines ↔ ∃ v c i, IsRecentVisit ops name v ∧
          (after ops).classes[v.id]? = some c ∧ c.lines[i]? = some line ∧
          v.offset ≤ i ∧ v.probes[i - v.offset]? = some true := by
    intro id c hget hname
    have hid : (after ops).classId? name = some id := hsound.classId?_eq_some_iff.mpr
      ⟨c, hget, hname⟩
    have hrecent : ∀ v, IsRecentVisit ops name v ↔
        v ∈ (ofOperations ops).visits ∧ v.id = id := by
      intro v
      rw [isRecentVisit_iff, hid, Option.some_inj, eq_comm (a := id)]
    have hknown := hget
    rw [getElem?_classes_after] at hknown
    obtain ⟨known, -, rfl⟩ := Option.map_eq_some_iff.mp hknown
    refine ⟨?_, fun line => ?_⟩
    · rw [visited_probesOf]
      exact exists_congr fun v => (hrecent v).symm
    · rw [mem_hitLines_probesOf]
      constructor
      · rintro ⟨i, hi, v, hv, rfl, hhits⟩
        exact ⟨v, _, i, (hrecent v).mpr ⟨hv, rfl⟩, hget, hi, ProbeVisit.hits_eq_true.mp hhits⟩
      · rintro ⟨v, c, i, hv, hc, hi, hhits⟩
        obtain ⟨hv, rfl⟩ := (hrecent v).mp hv
        obtain rfl := Option.some.inj (hget.symm.trans hc)
        exact ⟨i, hi, v, hv, rfl, ProbeVisit.hits_eq_true.mpr hhits⟩
  rw [hsound.mem_snapshot_iff]
  constructor
  · rintro ⟨c, hc, hvisited, heq⟩
    obtain ⟨rfl, rfl⟩ := Prod.mk.inj heq
    obtain ⟨id, hget⟩ := List.mem_iff_getElem?.mp hc
    obtain ⟨hvisits, hlines⟩ := hclass hget rfl
    refine ⟨hvisits.mp hvisited, pairwise_sortLines _, fun line => ?_⟩
    rw [mem_sortLines, hlines]
  · rintro ⟨hvisit, hpairwise, hlines⟩
    obtain ⟨v, hv⟩ := hvisit
    obtain ⟨c, -, hget, hname⟩ := exists_of_classId? (isRecentVisit_iff.mp hv).2
    obtain ⟨hvisits, hhit⟩ := hclass hget hname
    refine ⟨c, List.mem_of_getElem? hget, hvisits.mpr ⟨v, hv⟩, ?_⟩
    rw [hname, eq_of_pairwise_of_mem_iff UInt32.lt_asymm hpairwise (pairwise_sortLines c.hitLines)]
    intro line
    rw [hlines, mem_sortLines, hhit]

/-! ### Exchanging visits -/

/-- In the later operations no class is visited before it is registered. -/
def IsTimely (ops later : List StoreOperation) : Prop :=
  ∀ front v back, later = front ++ .visit v :: back → v.id < (after (ops ++ later)).classes.length →
    v.id < (after (ops ++ front)).classes.length

theorem isTimely_ofOperations {ops later : List StoreOperation} (h : IsTimely ops later) :
    (ofOperations ops).IsTimely later := by
  intro front v back
  simpa only [length_classes_after, ofOperations_append] using h front v back

/-- **Visits may be exchanged** between two snapshots, as long as no class is visited before it is
registered. -/
theorem after_append_congr {ops later later' : List StoreOperation} (hperm : later.Perm later')
    (hregistered : later.filterMap (·.registration?) = later'.filterMap (·.registration?))
    (hsnapshot : .snapshot ∉ later) (htimely : IsTimely ops later)
    (htimely' : IsTimely ops later') : after (ops ++ later) = after (ops ++ later') := by
  have hknown : ((ofOperations ops).noteAll later).known =
      ((ofOperations ops).noteAll later').known := by
    rw [known_noteAll, known_noteAll, hregistered]
  rw [after_eq_store, after_eq_store, ofOperations_append, ofOperations_append]
  refine store_congr hknown ?_
  rw [(isTimely_ofOperations htimely).visits hsnapshot,
    (isTimely_ofOperations htimely').visits (mt hperm.mem_iff.mpr hsnapshot), hknown]
  exact ((hperm.filterMap _).filter _).append_left _

/-- **A store loses and invents no hit.** Whatever a new store was asked: a name keeps the number
and the lines of its first registration, other names have other numbers, and a class has one probe
more than lines; where a probe is hit, the first probe of the class is; a snapshot lists just the
classes that were visited since the last one, each with the lines that one of these visits has hit,
and leaves no hit behind; and the order of visits between two snapshots does not matter, as long as
no class is visited before it is registered. -/
theorem loses_and_invents_no_hit (ops : List StoreOperation) :
    (∀ name, (∀ lines, .register name lines ∉ ops) → (after ops).classId? name = none) ∧
    (∀ earlier name lines later, ops = earlier ++ .register name lines :: later →
      (∀ lines', .register name lines' ∉ earlier) →
      ∃ id c, ((after earlier).register name lines).1 = id ∧
        (∀ lines', (after ops).register name lines' = (id, after ops)) ∧
        (after ops).classId? name = some id ∧ (after ops).classes[id]? = some c ∧
        c.name = name ∧ c.lines = lines ∧ (after ops).probeCount? id = some (lines.length + 1)) ∧
    (∀ name name' id, (after ops).classId? name = some id → (after ops).classId? name' = some id →
      name = name') ∧
    (∀ id hits, (after ops).hits? id = some hits → true ∈ hits → hits.head? = some true) ∧
    (after ops).snapshot.1.IsOrdered ∧
    (∀ name lines, (name, lines) ∈ (after ops).snapshot.1 ↔
      (∃ v, IsRecentVisit ops name v) ∧ lines.Pairwise (· < ·) ∧
        ∀ line, line ∈ lines ↔ ∃ v c i, IsRecentVisit ops name v ∧
          (after ops).classes[v.id]? = some c ∧ c.lines[i]? = some line ∧
          v.offset ≤ i ∧ v.probes[i - v.offset]? = some true) ∧
    (∀ id hits, (after ops).snapshot.2.hits? id = some hits → true ∉ hits) ∧
    ∀ later later', later.Perm later' →
      later.filterMap (·.registration?) = later'.filterMap (·.registration?) →
      .snapshot ∉ later → IsTimely ops later → IsTimely ops later' →
      after (ops ++ later) = after (ops ++ later') := by
  have hsound := (reachable_after ops).isSound
  refine ⟨fun name hnone => ?_, fun earlier name lines later hops hfirst =>
    exists_class_of_first hops hfirst, fun name name' id hid hid' => ?_,
    fun id hits hget hhit => ?_, hsound.isOrdered_snapshot, fun name lines => mem_snapshot_after,
    fun id hits hget => ?_,
    fun later later' hperm hregistered hsnapshot htimely htimely' =>
      after_append_congr hperm hregistered hsnapshot htimely htimely'⟩
  · rw [Option.eq_none_iff_forall_ne_some]
    intro id hid
    obtain ⟨lines, hknown⟩ := classId?_after.mp hid
    obtain ⟨lines', hop⟩ := mem_names_ofOperations.mp
      (List.mem_map.mpr ⟨_, List.mem_of_getElem? hknown, rfl⟩)
    exact hnone lines' hop
  · obtain ⟨c, -, hget, rfl⟩ := exists_of_classId? hid
    obtain ⟨c', -, hget', rfl⟩ := exists_of_classId? hid'
    rw [Option.some.inj (hget.symm.trans hget')]
  · rw [hits?, getElem?_classes_after, Option.map_map] at hget
    obtain ⟨known, -, rfl⟩ := Option.map_eq_some_iff.mp hget
    have hvisited := visited_of_hit hhit
    exact congrArg some hvisited
  · have hafter : (after ops).snapshot.2 = after (ops ++ [.snapshot]) :=
      (after_concat ops .snapshot).symm
    have hvisits : (ofOperations (ops ++ [.snapshot])).visits = [] := by
      rw [ofOperations_append]
      rfl
    rw [hafter, hits?, getElem?_classes_after, Option.map_map, hvisits] at hget
    obtain ⟨known, -, rfl⟩ := Option.map_eq_some_iff.mp hget
    exact fun hhit => nomatch visited_of_hit hhit

/-- Visits of an unknown class and of probes that a class does not have, another registration, two
lines of one number, and a snapshot in between. -/
example :
    let ops : List StoreOperation := [.visit ⟨0, 0, [true]⟩, .register "a/B" [7, 3, 7],
      .visit ⟨0, 0, [true, true]⟩, .register "a/A" [2], .snapshot, .register "a/B" [1],
      .visit ⟨0, 1, [false, true, true]⟩, .visit ⟨1, 5, [true]⟩, .visit ⟨2, 0, [true]⟩]
    (after ops).snapshot.1 = [("a/A", []), ("a/B", [7])] := by
  decide

end CoverageStore

end MutationTesting
