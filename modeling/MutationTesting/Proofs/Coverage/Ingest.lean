import MutationTesting.Proofs.Coverage.Account
import MutationTesting.Proofs.Coverage.Replay
/-!
# What a coverage file does to a store

Taking over a file is best seen by names: the class of a name is hit as a whole if a record with a
hit has the name and the class is known or can be loaded; otherwise it stays as it was. What becomes
of a name therefore depends on the records as a set. A second time the file finds its classes known
and hit, and changes nothing.

## Main definitions

* `CoverageStore.class?` — the class of a name
* `hitNames` — the names of the records with a hit

## Main results

* `CoverageStore.class?_replayAll` — what the records of a file do to the class of a name
* `ingestRecords_fst` — what the report lists
* `ingest_effect`
-/

namespace MutationTesting

/-! ### All probes of a class -/

namespace ClassProbes

/-- The class with all probes hit. -/
def cover (c : ClassProbes) : ClassProbes :=
  { c with hits := List.replicate (c.lines.length + 1) true }

@[simp] theorem cover_cover (c : ClassProbes) : c.cover.cover = c.cover := rfl

theorem isCovered_cover (c : ClassProbes) : c.cover.IsCovered := rfl

theorem IsCovered.cover_eq {c : ClassProbes} (h : c.IsCovered) : c.cover = c := by
  rw [cover, ← h]

theorem IsSound.visit_eq_cover {c : ClassProbes} (h : c.IsSound) :
    c.visit 0 (List.replicate (c.hits.length - 1) true) = c.cover := by
  have hcovered := h.isCovered_visit
  rw [← hcovered.cover_eq]
  rfl

/-- A visit takes no hit back. -/
theorem getElem?_hits_visit {c : ClassProbes} {i : Nat} (h : c.hits[i]? = some true) (offset : Nat)
    (probes : List Bool) : (c.visit offset probes).hits[i]? = some true := by
  cases hhits : c.hits with
  | nil => simp [hhits] at h
  | cons hit hits =>
    rw [hhits] at h
    simp only [ClassProbes.visit, hhits]
    cases i with
    | zero => rfl
    | succ i =>
      rw [List.getElem?_cons_succ] at h ⊢
      rw [getElem?_raise hits ⟨0, offset, probes⟩, h]
      rfl

end ClassProbes

/-! ### The class of a name -/

namespace CoverageStore

/-- The class of a name. -/
def class? (s : CoverageStore) (name : String) : Option ClassProbes :=
  (s.classId? name).bind (s.classes[·]?)

variable {s : CoverageStore} {name : String}

theorem class?_eq_none_iff : s.class? name = none ↔ s.classId? name = none := by
  rw [class?]
  cases hid : s.classId? name with
  | none => simp
  | some id =>
    obtain ⟨c, -, hget, -⟩ := exists_of_classId? hid
    simp [hget]

theorem isSome_class? (s : CoverageStore) (name : String) :
    (s.class? name).isSome = (s.classId? name).isSome := by
  rw [Bool.eq_iff_iff, Option.isSome_iff_ne_none, Option.isSome_iff_ne_none]
  exact not_congr class?_eq_none_iff

theorem IsSound.class?_eq_some_iff (h : s.IsSound) {c : ClassProbes} :
    s.class? name = some c ↔ c ∈ s.classes ∧ c.name = name := by
  rw [class?, Option.bind_eq_some_iff]
  constructor
  · rintro ⟨id, hid, hget⟩
    obtain ⟨c', hget', hname⟩ := h.classId?_eq_some_iff.mp hid
    obtain rfl := Option.some.inj (hget.symm.trans hget')
    exact ⟨List.mem_of_getElem? hget, hname⟩
  · rintro ⟨hc, hname⟩
    obtain ⟨id, hget⟩ := List.mem_iff_getElem?.mp hc
    exact ⟨id, h.classId?_eq_some_iff.mpr ⟨c, hget, hname⟩, hget⟩

theorem classId?_eq_findIdx? (s : CoverageStore) (name : String) :
    s.classId? name = (s.classes.map (·.name)).findIdx? (· == name) := by
  rw [classId?, List.findIdx?_map]
  rfl

theorem classId?_visit (s : CoverageStore) (id offset : Nat) (probes : List Bool) (name : String) :
    (s.visit id offset probes).classId? name = s.classId? name := by
  rw [classId?_eq_findIdx?, classId?_eq_findIdx?, names_visit]

theorem class?_visit (s : CoverageStore) (id offset : Nat) (probes : List Bool) (name : String) :
    (s.visit id offset probes).class? name =
      if s.classId? name = some id then (s.class? name).map (·.visit offset probes)
      else s.class? name := by
  rw [class?, class?, classId?_visit]
  cases hid : s.classId? name with
  | none => rfl
  | some id' =>
    rw [Option.bind_some, Option.bind_some, visit, List.getElem?_modify]
    by_cases h : id' = id
    · simp [h]
    · simp [h, Ne.symm h]

theorem class?_concat {c : ClassProbes} (h : s.class? c.name = none) (name : String) :
    (⟨s.classes ++ [c]⟩ : CoverageStore).class? name =
      if name = c.name then some c else s.class? name := by
  have hid : (⟨s.classes ++ [c]⟩ : CoverageStore).classId? name =
      (s.classId? name).or (([c].findIdx? (·.name == name)).map (· + s.classes.length)) :=
    List.findIdx?_append
  rw [class?, hid]
  cases hknown : s.classId? name with
  | some id =>
    have hne : name ≠ c.name := by
      rintro rfl
      cases (class?_eq_none_iff.mp h).symm.trans hknown
    obtain ⟨c', -, hget, -⟩ := exists_of_classId? hknown
    have hlt : id < s.classes.length := (List.getElem?_eq_some_iff.mp hget).1
    rw [if_neg hne, Option.some_or, Option.bind_some, List.getElem?_append_left hlt, class?, hknown,
      Option.bind_some]
  | none =>
    have hnone : s.class? name = none := class?_eq_none_iff.mpr hknown
    by_cases heq : name = c.name
    · simp [heq, List.findIdx?_cons]
    · simp [heq, List.findIdx?_cons, hnone, Ne.symm heq]

/-- A class is loaded if its name is not known. -/
theorem class?_ensureLoaded (load : String → Option (List UInt32)) (s : CoverageStore)
    (name name' : String) :
    (s.ensureLoaded load name).class? name' =
      if name' = name then (s.class? name).or ((load name).map (.fresh name))
      else s.class? name' := by
  rw [ensureLoaded]
  cases hid : s.classId? name with
  | some id =>
    obtain ⟨c, -, hget, -⟩ := exists_of_classId? hid
    have hclass : s.class? name = some c := by rw [class?, hid, Option.bind_some, hget]
    dsimp only
    split
    · next h => rw [h, hclass, Option.some_or]
    · rfl
  | none =>
    have hnone : s.class? name = none := class?_eq_none_iff.mpr hid
    cases load name with
    | some lines =>
      have hnew : (s.register name lines).2 = ⟨s.classes ++ [.fresh name lines]⟩ := by
        rw [register, hid]
      rw [hnone, Option.none_or, Option.map_some]
      dsimp only
      rw [hnew, class?_concat hnone]
      rfl
    | none =>
      dsimp only
      split
      · next h => rw [h, hnone, Option.map_none, Option.none_or]
      · rfl

/-! ### Records and names -/

/-- What a file makes the class of a name: all of it is hit if the store knows it or it can be
loaded. -/
def covered? (load : String → Option (List UInt32)) (s : CoverageStore) (name : String) :
    Option ClassProbes :=
  ((s.class? name).or ((load name).map (.fresh name))).map ClassProbes.cover

/-- A record with a hit covers the class of its name and leaves all others as they are. -/
theorem class?_replay (load : String → Option (List UInt32)) (hs : s.Reachable)
    (r : ExecutionRecord) (name : String) :
    (s.replay load r).class? name =
      if r.anyHit = true ∧ name = r.name then s.covered? load r.name else s.class? name := by
  rw [replay]
  by_cases hhit : r.anyHit = true
  · have hloaded := class?_ensureLoaded load s r.name
    have hsound := ((isKept_reachable load).ensureLoaded hs r.name).isSound
    rw [if_pos hhit, hs.hitClass_eq]
    simp only [hhit, true_and]
    cases hid : (s.ensureLoaded load r.name).classId? r.name with
    | some id =>
      obtain ⟨c, hc, hget, -⟩ := exists_of_classId? hid
      have hclass : (s.ensureLoaded load r.name).class? r.name = some c := by
        rw [class?, hid, Option.bind_some, hget]
      dsimp only
      rw [hitAll, class?_visit, probeCount?_of_getElem? hget]
      split
      · next hname =>
        obtain ⟨c', -, hget', hname'⟩ := exists_of_classId? hname
        obtain ⟨c'', -, hget'', hname''⟩ := exists_of_classId? hid
        obtain rfl := Option.some.inj (hget'.symm.trans hget'')
        obtain rfl : name = r.name := hname'.symm.trans hname''
        rw [if_pos rfl, hclass, Option.map_some, (hsound.classes c hc).visit_eq_cover, covered?]
        rw [hloaded, if_pos rfl] at hclass
        rw [hclass, Option.map_some]
      · next hname =>
        have hne : name ≠ r.name := by
          rintro rfl
          exact hname hid
        rw [if_neg hne, hloaded, if_neg hne]
    | none =>
      have hnone := class?_eq_none_iff.mpr hid
      dsimp only
      rw [hloaded]
      rw [hloaded, if_pos rfl] at hnone
      rw [covered?, hnone, Option.map_none]
  · rw [if_neg hhit, if_neg fun h => hhit h.1]

end CoverageStore

/-- The names of the records with a hit. -/
def hitNames (records : List ExecutionRecord) : List String :=
  (records.filter (·.anyHit)).map (·.name)

theorem hitNames_cons (r : ExecutionRecord) (rest : List ExecutionRecord) :
    hitNames (r :: rest) = if r.anyHit = true then r.name :: hitNames rest else hitNames rest := by
  rw [hitNames, List.filter_cons]
  split <;> rfl

theorem mem_hitNames {records : List ExecutionRecord} {name : String} :
    name ∈ hitNames records ↔ ∃ r ∈ records, r.name = name ∧ r.anyHit = true := by
  simp only [hitNames, List.mem_map, List.mem_filter, and_assoc, and_comm (a := _ = true)]

namespace CoverageStore

variable {load : String → Option (List UInt32)} {s : CoverageStore}

/-- A store knows a name or can load its class. -/
def isAvailable (load : String → Option (List UInt32)) (s : CoverageStore) (name : String) : Bool :=
  (s.classId? name).isSome || (load name).isSome

theorem isSome_covered? (load : String → Option (List UInt32)) (s : CoverageStore)
    (name : String) : (s.covered? load name).isSome = s.isAvailable load name := by
  rw [covered?, Option.isSome_map, Option.isSome_or, Option.isSome_map, isSome_class?, isAvailable]

theorem covered?_of_not_isAvailable {name : String} (h : s.isAvailable load name = false) :
    s.covered? load name = s.class? name := by
  obtain ⟨hunknown, hload⟩ := Bool.or_eq_false_iff.mp h
  rw [← isSome_class?, Option.isSome_eq_false_iff, Option.isNone_iff_eq_none] at hunknown
  rw [Option.isSome_eq_false_iff, Option.isNone_iff_eq_none] at hload
  rw [covered?, hunknown, hload]
  rfl

/-- A covered class has all probes hit, and the lines that the store or the artifact has for it. -/
theorem exists_of_isAvailable {name : String} (h : s.isAvailable load name = true) :
    ∃ c, s.covered? load name = some c ∧
      (some c.lines = (s.class? name).map (·.lines) ∨
        s.class? name = none ∧ some c.lines = load name) ∧
      c.hits = List.replicate (c.lines.length + 1) true := by
  rw [← isSome_covered?] at h
  obtain ⟨c, hc⟩ := Option.isSome_iff_exists.mp h
  refine ⟨c, hc, ?_⟩
  obtain ⟨c, hfound, rfl⟩ := Option.map_eq_some_iff.mp hc
  refine ⟨?_, ClassProbes.isCovered_cover c⟩
  obtain hknown | ⟨hnone, hloaded⟩ := Option.or_eq_some_iff.mp hfound
  · exact .inl (by rw [hknown]; rfl)
  · obtain ⟨lines, hlines, rfl⟩ := Option.map_eq_some_iff.mp hloaded
    exact .inr ⟨hnone, hlines.symm⟩

theorem covered?_replay (hs : s.Reachable) (r : ExecutionRecord) (name : String) :
    (s.replay load r).covered? load name = s.covered? load name := by
  rw [covered?, class?_replay load hs]
  split
  · next h =>
    obtain ⟨-, rfl⟩ := h
    rw [covered?]
    cases s.class? r.name with
    | some c => rfl
    | none => cases load r.name <;> rfl
  · rfl

theorem isAvailable_replay (hs : s.Reachable) (r : ExecutionRecord) :
    (s.replay load r).isAvailable load = s.isAvailable load := by
  funext name
  rw [← isSome_covered?, covered?_replay hs, isSome_covered?]

/-- **What the records of a file do to the class of a name.** -/
theorem class?_replayAll (hs : s.Reachable) (records : List ExecutionRecord) (name : String) :
    (records.foldl (replay load) s).class? name =
      if name ∈ hitNames records then s.covered? load name else s.class? name := by
  induction records generalizing s with
  | nil => rfl
  | cons r rest ih =>
    rw [List.foldl_cons, ih ((isKept_reachable load).replay hs r), covered?_replay hs,
      class?_replay load hs]
    rw [hitNames_cons]
    by_cases hhit : r.anyHit = true
    · simp only [hhit, true_and]
      by_cases hname : name = r.name
      · simp [hname]
      · simp [hname]
    · simp [hhit]

/-! ### The report -/

/-- A class is hit if it is known or can be loaded. -/
theorem fst_hitClass (hs : s.Reachable) (name : String) :
    (hitClass load name s).1 = s.isAvailable load name := by
  have havailable : ((s.ensureLoaded load name).classId? name).isSome = s.isAvailable load name := by
    rw [← isSome_class?, class?_ensureLoaded, if_pos rfl, ← isSome_covered?, covered?,
      Option.isSome_map]
  rw [hs.hitClass_eq, ← havailable]
  cases (s.ensureLoaded load name).classId? name <;> rfl

/-- **What the report lists**: the names of the records with a hit, in their order; as replayed
those that are known or can be loaded, and as skipped the others. -/
theorem ingestRecords_fst (hs : s.Reachable) (records : List ExecutionRecord) :
    (ingestRecords load records s).1 =
      ⟨(hitNames records).filter (s.isAvailable load),
        (hitNames records).filter fun name => !s.isAvailable load name⟩ := by
  induction records generalizing s with
  | nil => rfl
  | cons r rest ih =>
    rw [ingestRecords_cons, hitNames_cons]
    split
    · rw [ih ((isKept_reachable load).replay hs r), isAvailable_replay hs, fst_hitClass hs,
        IngestReport.add]
      cases hr : s.isAvailable load r.name <;> simp [hr]
    · exact ih hs

/-! ### What is not lost -/

/-- The class with the number is still there, with its name and lines and with its hits. -/
def Retains (id : Nat) (c : ClassProbes) (s : CoverageStore) : Prop :=
  ∃ c', s.classes[id]? = some c' ∧ c'.name = c.name ∧ c'.lines = c.lines ∧
    ∀ i : Nat, c.hits[i]? = some true → c'.hits[i]? = some true

theorem isKept_retains (load : String → Option (List UInt32)) (id : Nat) (c : ClassProbes) :
    IsKept load (Retains id c) where
  register s name lines _ := by
    rintro ⟨c', hget, hc'⟩
    obtain heq | ⟨-, heq⟩ := s.register_cases name lines <;> rw [heq]
    · exact ⟨c', hget, hc'⟩
    · have hlt : id < s.classes.length := (List.getElem?_eq_some_iff.mp hget).1
      exact ⟨c', by rw [List.getElem?_append_left hlt, hget], hc'⟩
  visit s id' offset probes := by
    rintro ⟨c', hget, hname, hlines, hhits⟩
    by_cases heq : id' = id
    · refine ⟨c'.visit offset probes, ?_, hname, hlines, fun i hi =>
        ClassProbes.getElem?_hits_visit (hhits i hi) offset probes⟩
      rw [visit, List.getElem?_modify, hget, heq]
      simp
    · refine ⟨c', ?_, hname, hlines, hhits⟩
      rw [visit, List.getElem?_modify, hget]
      simp [heq]

/-! ### A second time -/

/-- A record does nothing to a store in which the class of its name is covered, or neither known nor
to be loaded. -/
theorem replay_eq_self (hs : s.Reachable) {r : ExecutionRecord}
    (h : r.anyHit = true → s.class? r.name = s.covered? load r.name) : s.replay load r = s := by
  rw [replay]
  split
  · next hhit =>
    have h := h hhit
    have hloaded : s.ensureLoaded load r.name = s := by
      rw [ensureLoaded]
      cases hid : s.classId? r.name with
      | some id => rfl
      | none =>
        rw [class?_eq_none_iff.mpr hid, covered?, class?_eq_none_iff.mpr hid] at h
        cases hload : load r.name with
        | none => rfl
        | some lines => simp [hload] at h
    rw [hs.hitClass_eq, hloaded]
    cases hid : s.classId? r.name with
    | none => rfl
    | some id =>
      obtain ⟨c, hc, hget, -⟩ := exists_of_classId? hid
      have hclass : s.class? r.name = some c := by rw [class?, hid, Option.bind_some, hget]
      have hcover : c.cover = c := by
        rw [covered?, hclass, Option.some_or, Option.map_some] at h
        exact (Option.some.inj h).symm
      have hvisit := (hs.isSound.classes c hc).visit_eq_cover
      dsimp only
      rw [hitAll, probeCount?_of_getElem? hget, visit]
      congr 1
      refine List.ext_getElem? fun n => ?_
      rw [List.getElem?_modify]
      by_cases hn : id = n
      · subst hn
        simp [hget, hvisit, hcover]
      · simp [hn]
  · rfl

theorem covered?_replayAll (hs : s.Reachable) (records : List ExecutionRecord) (name : String) :
    (records.foldl (replay load) s).covered? load name = s.covered? load name := by
  induction records generalizing s with
  | nil => rfl
  | cons r rest ih =>
    rw [List.foldl_cons, ih ((isKept_reachable load).replay hs r), covered?_replay hs]

/-- **A file that is taken over a second time** changes nothing. -/
theorem replayAll_replayAll (hs : s.Reachable) (records : List ExecutionRecord) :
    records.foldl (replay load) (records.foldl (replay load) s) =
      records.foldl (replay load) s := by
  have hreachable := (isKept_reachable load).records hs records
  refine List.foldlRecOn (motive := (· = records.foldl (replay load) s)) records (replay load) rfl
    fun t ht r hr => ?_
  rw [ht]
  refine replay_eq_self hreachable fun hhit => ?_
  rw [covered?_replayAll hs, class?_replayAll hs, if_pos (mem_hitNames.mpr ⟨r, hr, rfl, hhit⟩)]

end CoverageStore

/-! ### Taking over a file -/

open CoverageStore

theorem eq_ok_of_toOption {ε α : Type} {x : Except ε α} {a : α} (h : x.toOption = some a) :
    x = .ok a := by
  cases x with
  | error e => cases h
  | ok b => exact congrArg Except.ok (Option.some.inj h)

/-- **What taking over a file does.** A file that cannot be read is refused, and the store stays as
it was. Any other file is taken over: the names of its records with a hit are reported in their
order, as replayed if the class is known or can be loaded and else as skipped. All probes of the
replayed classes are hit then, with the lines that the store or the artifact has for them, and all
other classes are as before. No number, line or hit is lost. The same file once more changes
nothing, and a file with the same records in another order leads to the same classes. -/
theorem ingest_effect (load : String → Option (List UInt32)) {s : CoverageStore} (hs : s.Reachable)
    (bytes : Bytes) :
    (∀ e, Coverage.decode bytes = .error e → ingest load bytes s = (.error e, s) ∧
      coveredLines load s (some bytes) = (none, s.snapshot.2)) ∧
    ∀ data, Coverage.decode bytes = .ok data → ∃ report t,
      ingest load bytes s = (.ok report, t) ∧
      report.replayed = (hitNames data.records).filter (fun name =>
        (s.classId? name).isSome || (load name).isSome) ∧
      report.skipped = (hitNames data.records).filter (fun name =>
        !((s.classId? name).isSome || (load name).isSome)) ∧
      (∀ name ∈ report.replayed, ∃ c, t.class? name = some c ∧
        (some c.lines = (s.class? name).map (·.lines) ∨
          s.class? name = none ∧ some c.lines = load name) ∧
        c.hits = List.replicate (c.lines.length + 1) true) ∧
      (∀ name, name ∉ report.replayed → t.class? name = s.class? name) ∧
      (∀ (id : Nat) (c : ClassProbes), s.classes[id]? = some c → ∃ c', t.classes[id]? = some c' ∧
        c'.name = c.name ∧ c'.lines = c.lines ∧
        ∀ i : Nat, c.hits[i]? = some true → c'.hits[i]? = some true) ∧
      ingest load bytes t = (.ok report, t) ∧
      ∀ bytes' data', Coverage.decode bytes' = .ok data' → data'.records.Perm data.records →
        ∃ report' t', ingest load bytes' s = (.ok report', t') ∧
          ∀ name, t'.class? name = t.class? name := by
  refine ⟨fun e he => ?_, fun data hdata => ?_⟩
  · refine ⟨ingest_of_error he s, ?_⟩
    simp only [coveredLines, ingest_of_error he]
  · have hreport : (ingestRecords load data.records s).1 = _ := ingestRecords_fst hs data.records
    have hclass : ∀ name, (ingestRecords load data.records s).2.class? name =
        if name ∈ hitNames data.records then s.covered? load name else s.class? name := by
      rw [snd_ingestRecords]
      exact class?_replayAll hs data.records
    refine ⟨_, _, ingest_of_decode hdata s, ?_, ?_, fun name hname => ?_, fun name hname => ?_,
      fun id c hget => ?_, ?_, fun bytes' data' hdata' hperm => ?_⟩
    · rw [hreport]
      rfl
    · rw [hreport]
      rfl
    · rw [hreport] at hname
      obtain ⟨hmem, havailable⟩ := List.mem_filter.mp hname
      rw [hclass, if_pos hmem]
      exact exists_of_isAvailable havailable
    · rw [hclass]
      split
      · next hmem =>
        rw [hreport] at hname
        refine covered?_of_not_isAvailable (Bool.eq_false_iff.mpr fun havailable => ?_)
        exact hname (List.mem_filter.mpr ⟨hmem, havailable⟩)
      · rfl
    · rw [snd_ingestRecords]
      exact (isKept_retains load id c).records ⟨c, hget, rfl, rfl, fun _ h => h⟩ data.records
    · have hreachable := (isKept_reachable load).records hs data.records
      have havailable : (data.records.foldl (replay load) s).isAvailable load =
          s.isAvailable load := by
        funext name
        rw [← isSome_covered?, covered?_replayAll hs, isSome_covered?]
      rw [ingest_of_decode hdata]
      refine Prod.ext (congrArg Except.ok ?_) ?_
      · rw [hreport, snd_ingestRecords, ingestRecords_fst hreachable, havailable]
      · rw [snd_ingestRecords, snd_ingestRecords, replayAll_replayAll hs]
    · refine ⟨_, _, ingest_of_decode hdata' s, fun name => ?_⟩
      have hnames : name ∈ hitNames data'.records ↔ name ∈ hitNames data.records :=
        ((hperm.filter _).map _).mem_iff
      rw [hclass, snd_ingestRecords, class?_replayAll hs]
      simp only [hnames]

/-- A store that has hits, and knows other lines of a class than its artifact names. The file names
this class between two records of a class that has to be loaded, and a class without an artifact. -/
theorem ingest_effect_on_touched_store :
    let s : CoverageStore := (CoverageStore.empty.register "A" [4, 5]).2.visit 0 1 [true]
    let load : String → Option (List UInt32) := fun name =>
      if name = "A" then some [6] else if name = "B" then some [7, 9] else none
    let bytes : Bytes := [1, 0xC0, 0xC0, 0x10, 0x07,
      0x11, 0, 0, 0, 0, 0, 0, 0, 1, 0, 1, 66, 2, 2, 0x11, 0, 0, 0, 0, 0, 0, 0, 2, 0, 1, 65, 1, 1,
      0x11, 0, 0, 0, 0, 0, 0, 0, 3, 0, 1, 67, 1, 1, 0x11, 0, 0, 0, 0, 0, 0, 0, 1, 0, 1, 66, 2, 1]
    s.Reachable ∧ ∃ t, ingest load bytes s = (.ok ⟨["B", "A", "B"], ["C"]⟩, t) ∧
      ingest load bytes t = (.ok ⟨["B", "A", "B"], ["C"]⟩, t) ∧
      t.class? "C" = none ∧ ∃ c, t.classes[0]? = some c ∧ c.name = "A" ∧ c.lines = [4, 5] := by
  intro s load bytes
  have hs : s.Reachable := (Reachable.empty.register "A" [4, 5]).visit 0 1 [true]
  have hdata : Coverage.decode bytes = .ok ⟨[], [⟨1, "B", [false, true]⟩, ⟨2, "A", [true]⟩,
      ⟨3, "C", [true]⟩, ⟨1, "B", [true, false]⟩]⟩ := by
    subst bytes
    exact eq_ok_of_toOption (by decide +kernel)
  obtain ⟨report, t, hingest, hreplayed, hskipped, -, hothers, hretained, hagain, -⟩ :=
    (ingest_effect load hs bytes).2 _ hdata
  obtain ⟨replayed, skipped⟩ := report
  obtain rfl : replayed = ["B", "A", "B"] := hreplayed
  obtain rfl : skipped = ["C"] := hskipped
  obtain ⟨c, hget, hname, hlines, -⟩ := hretained 0 _ rfl
  exact ⟨hs, t, hingest, hagain, hothers "C" (by decide), c, hget, hname, hlines⟩

end MutationTesting
