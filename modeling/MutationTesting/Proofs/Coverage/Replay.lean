import MutationTesting.Proofs.Coverage.Store
import MutationTesting.Proofs.Host.Watched
import MutationTesting.Proofs.Mutation.LiveSite
import MutationTesting.Run.Baseline
/-!
# No site goes without its test

A test whose coverage file names a class is among the tests that reach any site of that class. A
site has line zero or a line of its class. A record with a hit, wherever it stands in the file,
makes the store know the class of its name and hits all of its probes, and no later record takes a
hit back, so the snapshot lists all lines of the class.

## Main definitions

* `CoverageStore.replay` — what one record does to a store
* `CoverageStore.IsKept` — a property that taking over a file keeps

## Main results

* `CoverageStore.snd_ingestRecords` — the records of a file act on the store one after the other
* `CoverageStore.Reachable.hitClass_eq` — no class is skipped for want of probes
* `Mutation.line_eq_zero_or_mem` — the lines of sites
* `CoverageStore.covers_ingestRecords` — a class that a file names is covered
* `test_reaches_sites_of_recorded_class`
-/

namespace MutationTesting

/-! ### The lines of sites -/

/-- The line at hand is zero or was named by a line marker. -/
theorem lineAfter_eq_zero_or_mem (items : List Instruction) :
    lineAfter items = 0 ∨ lineAfter items ∈ items.filterMap (·.sourceLine?) := by
  induction items using List.reverseRecOn with
  | nil => exact .inl rfl
  | append_singleton items i ih =>
    rw [lineAfter_concat, List.filterMap_append]
    cases hi : i.sourceLine? with
    | some n =>
      refine .inr (List.mem_append_right _ ?_)
      simp [hi]
    | none => exact ih.imp_right (List.mem_append_left _)

/-- The line of a place is zero or a line of its class. -/
theorem Place.line_eq_zero_or_mem {c : ClassFile} {pl : Place} (h : pl ∈ c.places) :
    pl.line = 0 ∨ pl.line ∈ c.lines := by
  obtain ⟨hmethods, hcode⟩ := ClassFile.mem_places.mp h
  obtain hzero | hmem := lineAfter_eq_zero_or_mem (pl.code.before ++ [pl.code.item])
  · exact .inl hzero
  · have hmethod : pl.method ∈ c.methods :=
      hmethods ▸ List.mem_append_right _ (List.mem_cons_self ..)
    have hline : pl.line ∈ pl.method.lines := by
      have hparts : pl.method.instructions = pl.code.before ++ [pl.code.item] ++ pl.code.after := by
        rw [← hcode, Split.whole, List.append_assoc, List.singleton_append]
      rw [Method.lines, hparts, List.filterMap_append]
      exact List.mem_append_left _ hmem
    exact .inr (mem_sortLines.mpr (List.mem_flatMap.mpr ⟨pl.method, hmethod, hline⟩))

/-- **The line of a site** is zero or a line of its class. -/
theorem Mutation.line_eq_zero_or_mem {c : ClassFile} {policies : List Policy} {m : Mutation}
    (h : m ∈ findMutations c policies) : m.line = 0 ∨ m.line ∈ c.lines := by
  obtain ⟨n, s, hs, rfl⟩ := exists_site_of_mem h
  exact Place.line_eq_zero_or_mem (ClassFile.mem_sitesOf.mp (List.mem_of_getElem? hs)).2.2.1

/-! ### The records of a file -/

namespace CoverageStore

variable {load : String → Option (List UInt32)} {s : CoverageStore} {name : String}
  {lines : List UInt32}

/-- The store after a record. -/
def replay (load : String → Option (List UInt32)) (s : CoverageStore) (r : ExecutionRecord) :
    CoverageStore :=
  if r.anyHit then (hitClass load r.name s).2 else s

/-- A record comes before the others of its file. -/
theorem ingestRecords_cons (load : String → Option (List UInt32)) (r : ExecutionRecord)
    (rest : List ExecutionRecord) (s : CoverageStore) :
    ingestRecords load (r :: rest) s =
      if r.anyHit = true then
        ((ingestRecords load rest (s.replay load r)).1.add r.name (hitClass load r.name s).1,
          (ingestRecords load rest (s.replay load r)).2)
      else ingestRecords load rest s := by
  rw [ingestRecords, replay]
  split <;> rfl

/-- The records of a file act one after the other. -/
theorem snd_ingestRecords (load : String → Option (List UInt32)) (records : List ExecutionRecord)
    (s : CoverageStore) : (ingestRecords load records s).2 = records.foldl (replay load) s := by
  induction records generalizing s with
  | nil => rfl
  | cons r rest ih =>
    rw [List.foldl_cons, ← ih, ingestRecords_cons]
    split
    · rfl
    · next hhit => rw [replay, if_neg hhit]

/-- To load a class is to register it, or nothing. -/
theorem ensureLoaded_cases (load : String → Option (List UInt32)) (s : CoverageStore)
    (name : String) :
    s.ensureLoaded load name = s ∨
      ∃ lines, load name = some lines ∧ s.ensureLoaded load name = (s.register name lines).2 := by
  rw [ensureLoaded]
  split
  · exact .inl rfl
  · split
    · next lines hlines => exact .inr ⟨lines, hlines, rfl⟩
    · exact .inl rfl

/-- A property that stays when classes are registered as they are loaded, and when they are
visited. -/
structure IsKept (load : String → Option (List UInt32)) (P : CoverageStore → Prop) : Prop where
  register : ∀ s name lines, load name = some lines → P s → P (s.register name lines).2
  visit : ∀ s id offset probes, P s → P (s.visit id offset probes)

namespace IsKept

variable {P : CoverageStore → Prop}

theorem ensureLoaded (hP : IsKept load P) (h : P s) (name : String) :
    P (s.ensureLoaded load name) := by
  obtain heq | ⟨lines, hlines, heq⟩ := s.ensureLoaded_cases load name <;> rw [heq]
  · exact h
  · exact hP.register s name lines hlines h

theorem hitClass (hP : IsKept load P) (h : P s) (name : String) :
    P (CoverageStore.hitClass load name s).2 := by
  have hloaded : P (s.ensureLoaded load name) := hP.ensureLoaded h name
  rw [CoverageStore.hitClass]
  split
  · exact hloaded
  · split
    · exact hloaded
    · exact hP.visit _ _ _ _ hloaded

theorem replay (hP : IsKept load P) (h : P s) (r : ExecutionRecord) : P (s.replay load r) := by
  rw [CoverageStore.replay]
  split
  · exact hP.hitClass h r.name
  · exact h

/-- Such a property stays when a file is taken over. -/
theorem records (hP : IsKept load P) (h : P s) (records : List ExecutionRecord) :
    P (records.foldl (CoverageStore.replay load) s) :=
  List.foldlRecOn records (CoverageStore.replay load) h fun _ h r _ => hP.replay h r

end IsKept

theorem isKept_reachable (load : String → Option (List UInt32)) : IsKept load Reachable where
  register _ name lines _ h := h.register name lines
  visit _ id offset probes h := h.visit id offset probes

theorem isKept_covers (load : String → Option (List UInt32)) (name : String)
    (lines : List UInt32) : IsKept load (Covers · name lines) where
  register _ name' lines' _ h := h.register name' lines'
  visit _ id offset probes h := h.visit id offset probes

/-- A class that is known has probes, so it is hit when it is known or can be loaded. -/
theorem Reachable.hitClass_eq (hs : s.Reachable) (load : String → Option (List UInt32))
    (name : String) :
    hitClass load name s =
      match (s.ensureLoaded load name).classId? name with
      | some id => (true, (s.ensureLoaded load name).hitAll id)
      | none => (false, s.ensureLoaded load name) := by
  have hloaded : (s.ensureLoaded load name).Reachable := (isKept_reachable load).ensureLoaded hs name
  rw [hitClass]
  cases hid : (s.ensureLoaded load name).classId? name with
  | none => rfl
  | some id => exact if_neg (hloaded.probeCount?_ne_zero hid)

/-- If the store knows the class, it knows it with these lines. -/
def Agrees (s : CoverageStore) (name : String) (lines : List UInt32) : Prop :=
  ∀ c ∈ s.classes, c.name = name → c.lines = lines

/-- A store goes on agreeing with what a class is loaded as. -/
theorem isKept_agrees (hload : load name = some lines) : IsKept load (Agrees · name lines) where
  register s name' lines' hlines' h := by
    obtain heq | ⟨-, heq⟩ := s.register_cases name' lines' <;> rw [heq]
    · exact h
    · intro c hc hname
      obtain hc | hc := List.mem_append.mp hc
      · exact h c hc hname
      · obtain rfl := List.mem_singleton.mp hc
        obtain rfl : name' = name := hname
        exact Option.some.inj (hlines'.symm.trans hload)
  visit s id offset probes h := by
    intro c hc hname
    obtain ⟨c', hc', rfl | rfl⟩ := mem_visit hc
    · exact h _ hc' hname
    · exact h c' hc' hname

theorem Agrees.snapshot (h : s.Agrees name lines) : s.snapshot.2.Agrees name lines := by
  intro c hc hname
  obtain ⟨c', hc', rfl | rfl⟩ := mem_snapshot hc
  · exact h _ hc' hname
  · exact h c' hc' hname

/-- A class that can be loaded is known after its loading. -/
theorem classId?_ensureLoaded (hload : load name = some lines) (s : CoverageStore) :
    ∃ id, (s.ensureLoaded load name).classId? name = some id := by
  have hknown : ∃ c ∈ (s.ensureLoaded load name).classes, c.name = name := by
    rw [ensureLoaded]
    cases hid : s.classId? name with
    | some id =>
      obtain ⟨c, hc, -, hname⟩ := exists_of_classId? hid
      exact ⟨c, hc, hname⟩
    | none =>
      refine ⟨.fresh name lines, ?_, rfl⟩
      simp [hload, CoverageStore.register, hid]
  cases hid : (s.ensureLoaded load name).classId? name with
  | some id => exact ⟨id, rfl⟩
  | none =>
    obtain ⟨c, hc, hname⟩ := hknown
    exact absurd hname (classId?_eq_none.mp hid c hc)

/-- A record with a hit covers its class. -/
theorem covers_replay {r : ExecutionRecord} (hload : load r.name = some lines)
    (hs : s.Reachable) (hagrees : s.Agrees r.name lines) (hhit : r.anyHit = true) :
    (s.replay load r).Covers r.name lines := by
  have hreachable : (s.ensureLoaded load r.name).Reachable :=
    (isKept_reachable load).ensureLoaded hs r.name
  have hloaded : (s.ensureLoaded load r.name).Agrees r.name lines :=
    (isKept_agrees hload).ensureLoaded hagrees r.name
  obtain ⟨id, hid⟩ := classId?_ensureLoaded hload s
  obtain ⟨c, hc, hget, hname⟩ := exists_of_classId? hid
  have hcovers := covers_visit_all (hreachable.isSound.classes c hc) hget
  rw [hname, hloaded c hc hname] at hcovers
  rw [replay, if_pos hhit, hs.hitClass_eq, hid]
  exact hcovers

/-- **A class that a file names is covered** when the file was taken over. -/
theorem covers_ingestRecords {records : List ExecutionRecord} {r : ExecutionRecord}
    (hload : load r.name = some lines) (hs : s.Reachable) (hagrees : s.Agrees r.name lines)
    (hr : r ∈ records) (hhit : r.anyHit = true) :
    (ingestRecords load records s).2.Covers r.name lines := by
  obtain ⟨first, rest, rfl⟩ := List.append_of_mem hr
  -- the records before the one with the hit leave the class as it is loaded, those behind it keep
  -- it covered
  have hreachable : (first.foldl (replay load) s).Reachable :=
    (isKept_reachable load).records hs first
  have hagrees : (first.foldl (replay load) s).Agrees r.name lines :=
    (isKept_agrees hload).records hagrees first
  rw [snd_ingestRecords, List.foldl_append, List.foldl_cons]
  exact (isKept_covers load r.name lines).records (covers_replay hload hreachable hagrees hhit) rest

end CoverageStore

/-! ### Files -/

theorem ingest_of_error {load : String → Option (List UInt32)} {bytes : Bytes} {e : CoverageError}
    (h : Coverage.decode bytes = .error e) (s : CoverageStore) :
    ingest load bytes s = (.error e, s) := by
  rw [ingest]
  cases hheader : Coverage.validateHeader bytes with
  | error e' =>
    have hdecode : Coverage.decode bytes = .error e' := by
      rw [Coverage.decode, hheader]
      rfl
    obtain rfl : e' = e := Except.error.inj (hdecode.symm.trans h)
    rfl
  | ok _ =>
    simp only [h]
    rfl

theorem ingest_of_decode {load : String → Option (List UInt32)} {bytes : Bytes}
    {data : ExecutionData} (h : Coverage.decode bytes = .ok data) (s : CoverageStore) :
    ingest load bytes s =
      (.ok (ingestRecords load data.records s).1, (ingestRecords load data.records s).2) := by
  rw [ingest]
  cases hheader : Coverage.validateHeader bytes with
  | error e =>
    have hdecode : Coverage.decode bytes = .error e := by
      rw [Coverage.decode, hheader]
      rfl
    cases hdecode.symm.trans h
  | ok _ =>
    simp only [h]
    rfl

/-! ### The tests of a site -/

theorem readClass_of_read {σ : Type} {host : Host σ} {s : σ} {path : Path} {bytes : Bytes}
    {c : ClassFile} (hread : host.read s path = some bytes)
    (hclass : ClassFile.ofBytes? bytes = some c) : readClass host s path = .ok c := by
  simp only [readClass, hread, hclass]

theorem LocationIndex.linesOf?_of_readClass {σ : Type} {host : Host σ} {s : σ}
    {index : LocationIndex} {name : String} {path : Path} {c : ClassFile}
    (hpath : index.locate? name = some path) (hread : readClass host s path = .ok c) :
    index.linesOf? host s name = some c.lines := by
  rw [LocationIndex.linesOf?, hpath, Option.bind_some, hread]

/-- A test that covers a class reaches line zero and each line of the class. -/
theorem TestCoverage.reaches_of_lookup {test : TestUnit} {coverage : LineCoverage} {name : String}
    {lines : List UInt32} (h : coverage.lookup name = some lines) {line : UInt32}
    (hline : line = 0 ∨ line ∈ lines) :
    TestCoverage.reaches name line (test, some coverage) = true := by
  have hcontains : (line == 0 || lines.contains line) = true := by simpa using hline
  simp only [TestCoverage.reaches, h, hcontains]

/-- The test of a coverage file that names a class is among the tests of every site of the class,
whatever the store held before. -/
theorem test_reaches_sites_of_recorded_class {σ : Type} (host : Host σ) (state : σ)
    {index : LocationIndex} {c : ClassFile} {path : Path}
    (hpath : index.locate? c.name = some path) (hread : readClass host state path = .ok c)
    {store : CoverageStore} (hstore : store.Reachable)
    (hlines : ∀ known ∈ store.classes, known.name = c.name → known.lines = c.lines)
    {bytes : Bytes} {data : ExecutionData} (hdata : Coverage.decode bytes = .ok data)
    {r : ExecutionRecord} (hr : r ∈ data.records) (hname : r.name = c.name)
    (hhit : r.anyHit = true) :
    ∃ report after,
      ingest (index.linesOf? host state) bytes store.snapshot.2 = (.ok report, after) ∧
      coveredLines (index.linesOf? host state) store (some bytes) =
        (some after.snapshot.1, after.snapshot.2) ∧
      ∀ (policies : List Policy), ∀ m ∈ findMutations c policies,
        (m.line = 0 ∨ m.line ∈ c.lines) ∧
          ∀ (tests : CoverageMap) (test : TestUnit), (test, some after.snapshot.1) ∈ tests →
            test ∈ tests.coveringTests c.name m.line := by
  have hload : index.linesOf? host state r.name = some c.lines :=
    LocationIndex.linesOf?_of_readClass (hname ▸ hpath) hread
  have hagrees : store.snapshot.2.Agrees r.name c.lines :=
    CoverageStore.Agrees.snapshot fun known hknown hn => hlines known hknown (hn.trans hname)
  have hcovers := CoverageStore.covers_ingestRecords hload hstore.snapshot hagrees hr hhit
  have hreachable : (ingestRecords (index.linesOf? host state) data.records
      store.snapshot.2).2.Reachable := by
    rw [CoverageStore.snd_ingestRecords]
    exact (CoverageStore.isKept_reachable _).records hstore.snapshot data.records
  have hingest : ingest (index.linesOf? host state) bytes store.snapshot.2 = _ :=
    ingest_of_decode hdata store.snapshot.2
  refine ⟨_, _, hingest, ?_, fun policies m hm => ?_⟩
  · simp only [coveredLines, hingest]
  · have hline : m.line = 0 ∨ m.line ∈ c.lines := Mutation.line_eq_zero_or_mem hm
    have hlookup := hcovers.lookup_snapshot hreachable.isSound
    rw [hname] at hlookup
    refine ⟨hline, fun tests test htest => ?_⟩
    refine List.mem_map.mpr ⟨_, List.mem_filter.mpr ⟨htest, ?_⟩, rfl⟩
    exact TestCoverage.reaches_of_lookup hlookup (hline.imp_right mem_sortLines.mpr)

/-- A class with an address before its first line marker and one behind it. The store is empty, and
the test hit the second of two probes. -/
theorem test_reaches_sites_of_secure_addresses :
    let c : ClassFile := { ClassFile.empty "a/B" with
      superName := none
      methods := [⟨"m", "()V", 1, [], [.loadText "https://a", .line 7 0, .loadText "https://b"],
        [], [], 4, 4⟩] }
    let artifact : Path := ['B']
    let text : String := .join ["\x7b\"name\":\"a/B\",", "\"access\":1,", "\"methods\":[\x7b",
      "\"name\":\"m\",", "\"descriptor\":\"()V\",", "\"access\":1,", "\"max_stack\":4,",
      "\"max_locals\":4,", "\"instructions\":[", "\x7b\"kind\":\"ldc\",", "\"value\":\x7b",
      "\"type\":\"string\",", "\"value\":\"https://a\"\x7d\x7d,", "\x7b\"kind\":\"line_number\",",
      "\"line\":7,", "\"start\":0\x7d,", "\x7b\"kind\":\"ldc\",", "\"value\":\x7b",
      "\"type\":\"string\",", "\"value\":\"https://b\"\x7d\x7d", "]\x7d]\x7d"]
    let E : Outside Unit := ⟨fun _ => 0, fun _ _ => true, fun _ => pure true, pure false,
      fun _ _ _ _ => pure none⟩
    let w : World Unit :=
      ⟨(), fun path => if path = artifact then some (Utf8.encode text) else none, []⟩
    let bytes : Bytes := [1, 0xC0, 0xC0, 0x10, 0x07, 0x11, 0, 0, 0, 0, 0, 0, 0, 9, 0, 3, 97, 47, 66,
      2, 2]
    let test : TestUnit := ⟨"a.BTest", "m"⟩
    (findMutations c Policy.defaults).map (·.line) = [0, 7] ∧
      ∃ lines store,
        coveredLines (LocationIndex.linesOf? [("a/B", artifact)] E.host w) .empty (some bytes) =
          (some lines, store) ∧
        ∀ m ∈ findMutations c Policy.defaults,
          test ∈ CoverageMap.coveringTests [(test, some lines)] "a/B" m.line := by
  intro c artifact text E w bytes test
  have hclass : ClassFile.ofBytes? (Utf8.encode text) = some c := by
    rw [ClassFile.ofBytes?, Json.ofBytes?, Utf8.symbols_encode, String.toList_join]
    subst c
    decide +kernel
  have hfile : E.host.read w artifact = some (Utf8.encode text) := by
    simp only [Outside.host, E, w, if_true]
  have hread : readClass E.host w artifact = .ok c := readClass_of_read hfile hclass
  have hdata : Coverage.decode bytes = .ok ⟨[], [⟨9, "a/B", [false, true]⟩]⟩ := by
    have hsome : (Coverage.decode bytes).toOption = some ⟨[], [⟨9, "a/B", [false, true]⟩]⟩ := by
      subst bytes
      decide +kernel
    cases hdecoded : Coverage.decode bytes with
    | ok data =>
      rw [hdecoded] at hsome
      rw [Option.some.inj hsome]
    | error e =>
      rw [hdecoded] at hsome
      cases hsome
  have hlines : (findMutations c Policy.defaults).map (·.line) = [0, 7] := by
    subst c
    decide +kernel
  have hpath : LocationIndex.locate? [("a/B", artifact)] c.name = some artifact := rfl
  have hhit : ExecutionRecord.anyHit ⟨9, "a/B", [false, true]⟩ = true := rfl
  obtain ⟨_, after, -, hcovered, hsites⟩ := test_reaches_sites_of_recorded_class E.host w hpath
    hread .empty (List.forall_mem_nil _) hdata (List.mem_singleton_self _) rfl hhit
  refine ⟨hlines, _, _, hcovered, fun m hm => ?_⟩
  exact (hsites Policy.defaults m hm).2 _ test (List.mem_singleton_self _)

end MutationTesting
