import MutationTesting.Proofs.Class.Artifact
import MutationTesting.Proofs.Coverage.Ingest
import MutationTesting.Proofs.Host.Watched
import MutationTesting.Run.Baseline
/-!
# Whose coverage is whose

The tests of a baseline share one store. Classes stay registered in it from one test to the next,
and it may have hits from before the baseline, even from a file that a test of it left. Still the
coverage of a test is that of its own file: the store is cleared before the file is taken over, and
as long as it knows classes with the lines of their artifacts, a class that it knows and a class
that has to be loaded are covered alike.

## Main definitions

* `CoverageStore.Matches` — the lines that a store knows are those of the artifacts
* `ownCoverage` — the coverage of a file that is taken over into a new store
* `AllPass` — a baseline in which all tests pass
* `Outside.steady`, `LeavesFile` — a device on which they do

## Main results

* `CoverageStore.Matches.mem_snapshot_replayAll` — what a snapshot lists after a file
* `coveredLines_fst` — the coverage of a file does not depend on the store
* `runBaseline_of_allPass`, `allPass_steady`
* `baseline_attributes_coverage`
-/

namespace MutationTesting

open CoverageStore

/-! ### Stores with the lines of the artifacts -/

namespace CoverageStore

/-- A store that came about by its operations, in which each class has the lines of its
artifact. -/
structure Matches (load : String → Option (List UInt32)) (s : CoverageStore) : Prop where
  reachable : s.Reachable
  lines : ∀ c ∈ s.classes, load c.name = some c.lines

variable {load : String → Option (List UInt32)} {s : CoverageStore}

theorem matches_empty (load : String → Option (List UInt32)) : CoverageStore.empty.Matches load :=
  ⟨.empty, nofun⟩

theorem isKept_matches (load : String → Option (List UInt32)) : IsKept load (Matches load) where
  register s name lines hload h := by
    refine ⟨h.reachable.register name lines, ?_⟩
    obtain heq | ⟨-, heq⟩ := s.register_cases name lines <;> rw [heq]
    · exact h.lines
    · intro c hc
      obtain hc | hc := List.mem_append.mp hc
      · exact h.lines c hc
      · rw [List.mem_singleton.mp hc]
        exact hload
  visit s id offset probes h := by
    refine ⟨h.reachable.visit id offset probes, fun c hc => ?_⟩
    obtain ⟨c', hc', rfl | rfl⟩ := mem_visit hc
    · exact h.lines _ hc'
    · exact h.lines c' hc'

theorem Matches.snapshot (h : s.Matches load) : s.snapshot.2.Matches load := by
  refine ⟨h.reachable.snapshot, fun c hc => ?_⟩
  obtain ⟨c', hc', rfl | rfl⟩ := mem_snapshot hc
  · exact h.lines _ hc'
  · exact h.lines c' hc'

/-- A class that a file covers is as if it were just loaded. -/
theorem Matches.covered?_eq (h : s.Matches load) (name : String) :
    s.covered? load name =
      (load name).map fun lines => (ClassProbes.fresh name lines).cover := by
  rw [covered?]
  cases hclass : s.class? name with
  | none =>
    rw [Option.none_or, Option.map_map]
    rfl
  | some c =>
    obtain ⟨hc, rfl⟩ := h.reachable.isSound.class?_eq_some_iff.mp hclass
    rw [h.lines c hc]
    rfl

/-- No class is visited after a snapshot. -/
theorem visited_of_mem_snapshot {c : ClassProbes} (h : c ∈ s.snapshot.2.classes) :
    c.visited = false := by
  obtain ⟨c', -, rfl⟩ := List.mem_map.mp h
  by_cases hvisited : c'.visited = true
  · rw [if_pos hvisited]
    cases hhits : c'.hits <;> simp [ClassProbes.visited, ClassProbes.clear, hhits]
  · rw [if_neg hvisited]
    exact Bool.not_eq_true _ ▸ hvisited

/-- What a snapshot lists, by names. -/
theorem IsSound.mem_snapshot_iff_class? (h : s.IsSound) {name : String} {lines : List UInt32} :
    (name, lines) ∈ s.snapshot.1 ↔
      ∃ c, s.class? name = some c ∧ c.visited = true ∧ lines = sortLines c.hitLines := by
  rw [h.mem_snapshot_iff]
  constructor
  · rintro ⟨c, hc, hvisited, heq⟩
    obtain ⟨hname, hlines⟩ := Prod.mk.inj heq
    exact ⟨c, h.class?_eq_some_iff.mpr ⟨hc, hname.symm⟩, hvisited, hlines⟩
  · rintro ⟨c, hclass, hvisited, rfl⟩
    obtain ⟨hc, rfl⟩ := h.class?_eq_some_iff.mp hclass
    exact ⟨c, hc, hvisited, rfl⟩

/-- **What a snapshot lists after a file**: the classes of the records with a hit that can be
loaded, each with all its lines. -/
theorem Matches.mem_snapshot_replayAll (h : s.Matches load)
    (hclear : ∀ c ∈ s.classes, c.visited = false) (records : List ExecutionRecord)
    {name : String} {lines : List UInt32} :
    (name, lines) ∈ (records.foldl (replay load) s).snapshot.1 ↔
      name ∈ hitNames records ∧ (load name).map sortLines = some lines := by
  have hsound := ((isKept_reachable load).records h.reachable records).isSound
  rw [hsound.mem_snapshot_iff_class?, class?_replayAll h.reachable]
  by_cases hname : name ∈ hitNames records
  · rw [if_pos hname, h.covered?_eq]
    cases load name with
    | none => simp
    | some ns =>
      have hcovered := ClassProbes.isCovered_cover (.fresh name ns)
      have hlines : (ClassProbes.fresh name ns).cover.hitLines = ns := hcovered.hitLines
      constructor
      · rintro ⟨c, hc, -, rfl⟩
        obtain rfl := Option.some.inj hc
        exact ⟨hname, by rw [hlines, Option.map_some]⟩
      · rintro ⟨-, hsorted⟩
        exact ⟨_, rfl, hcovered.visited, by rw [hlines, ← Option.some.inj hsorted]⟩
  · rw [if_neg hname]
    constructor
    · rintro ⟨c, hclass, hvisited, -⟩
      have hc := (h.reachable.isSound.class?_eq_some_iff.mp hclass).1
      exact absurd ((hclear c hc).symm.trans hvisited) Bool.false_ne_true
    · rintro ⟨hmem, -⟩
      exact absurd hmem hname

end CoverageStore

/-! ### The coverage of a file -/

variable {load : String → Option (List UInt32)}

/-- The coverage of a file that is taken over into a new store, if there is a file and it can be
read. -/
def ownCoverage (load : String → Option (List UInt32)) (coverage : Option Bytes) :
    Option LineCoverage :=
  (coveredLines load .empty coverage).1

theorem coveredLines_of_decode (store : CoverageStore) {bytes : Bytes} {data : ExecutionData}
    (h : Coverage.decode bytes = .ok data) :
    coveredLines load store (some bytes) =
      (some (data.records.foldl (replay load) store.snapshot.2).snapshot.1,
        (data.records.foldl (replay load) store.snapshot.2).snapshot.2) := by
  rw [coveredLines, ← snd_ingestRecords]
  simp only [ingest_of_decode h]

theorem coveredLines_of_error (store : CoverageStore) {bytes : Bytes} {e : CoverageError}
    (h : Coverage.decode bytes = .error e) :
    coveredLines load store (some bytes) = (none, store.snapshot.2) := by
  rw [coveredLines]
  simp only [ingest_of_error h]

/-- **The coverage of a file does not depend on the store**: neither on its hits nor on which
classes it knows. -/
theorem coveredLines_fst {store : CoverageStore} (h : store.Matches load)
    (coverage : Option Bytes) :
    (coveredLines load store coverage).1 = ownCoverage load coverage := by
  rw [ownCoverage]
  cases coverage with
  | none => rfl
  | some bytes =>
    cases hdata : Coverage.decode bytes with
    | error e => rw [coveredLines_of_error _ hdata, coveredLines_of_error _ hdata]
    | ok data =>
      have hlisted : ∀ {s : CoverageStore} (_ : s.Matches load),
          (data.records.foldl (replay load) s.snapshot.2).snapshot.1.IsOrdered ∧
          ∀ e, e ∈ (data.records.foldl (replay load) s.snapshot.2).snapshot.1 ↔
            e.1 ∈ hitNames data.records ∧ (load e.1).map sortLines = some e.2 := by
        intro s hs
        refine ⟨?_, fun e =>
          hs.snapshot.mem_snapshot_replayAll (fun _ => visited_of_mem_snapshot) _⟩
        exact ((isKept_reachable load).records hs.snapshot.reachable _).isSound.isOrdered_snapshot
      obtain ⟨hordered, hmem⟩ := hlisted h
      obtain ⟨hordered', hmem'⟩ := hlisted (matches_empty load)
      rw [coveredLines_of_decode _ hdata, coveredLines_of_decode _ hdata]
      refine congrArg some (eq_of_pairwise_of_mem_iff (fun h => ?_) hordered hordered' fun e => ?_)
      · exact String.lt_asymm h
      · rw [hmem, hmem']

theorem matches_coveredLines {store : CoverageStore} (h : store.Matches load)
    (coverage : Option Bytes) : (coveredLines load store coverage).2.Matches load := by
  cases coverage with
  | none => exact h.snapshot
  | some bytes =>
    cases hdata : Coverage.decode bytes with
    | error e =>
      rw [coveredLines_of_error _ hdata]
      exact h.snapshot
    | ok data =>
      rw [coveredLines_of_decode _ hdata]
      exact ((isKept_matches load).records h.snapshot data.records).snapshot

/-- The lines that are read from an artifact are in order. -/
theorem LocationIndex.pairwise_linesOf? {σ : Type} {index : LocationIndex} {host : Host σ} {s : σ}
    {name : String} {lines : List UInt32} (h : index.linesOf? host s name = some lines) :
    lines.Pairwise (· < ·) := by
  rw [LocationIndex.linesOf?, Option.bind_eq_some_iff] at h
  obtain ⟨path, -, hread⟩ := h
  split at hread
  · next c _ =>
    obtain rfl := Option.some.inj hread
    exact pairwise_sortLines _
  · cases hread

/-! ### The run -/

section Run

variable {σ : Type} {host : Host σ} {config : DeviceConfig} {index : LocationIndex}
  {options : RunOptions}

/-- A baseline in which every test passes, each with its coverage file if it left one, from a state
to another one. Nobody asks to stop, and after each test the artifacts have the lines that `load`
says. -/
inductive AllPass (host : Host σ) (config : DeviceConfig) (index : LocationIndex)
    (options : RunOptions) (load : String → Option (List UInt32)) :
    List (TestUnit × Option Bytes) → σ → σ → Prop where
  | nil (s : σ) : AllPass host config index options load [] s s
  | cons {test : TestUnit} {coverage : Option Bytes} {tests : List (TestUnit × Option Bytes)}
      {s s₁ s₂ s₃ s₄ : σ} (goes : host.cancelled s = (false, s₁))
      (passes : runInstrumented host config test options.timeoutMs s₁ = (⟨.passed, coverage⟩, s₂))
      (goesOn : host.cancelled s₂ = (false, s₃)) (artifacts : index.linesOf? host s₃ = load)
      (rest : AllPass host config index options load tests s₃ s₄) :
      AllPass host config index options load ((test, coverage) :: tests) s s₄

/-- **A baseline in which all tests pass** gives each test the coverage of its own file. -/
theorem runBaseline_of_allPass {tests : List (TestUnit × Option Bytes)} {s s' : σ}
    (hpass : AllPass host config index options load tests s s') {store : CoverageStore}
    (hstore : store.Matches load) :
    ∃ store', runBaseline host config index options (tests.map (·.1)) store s =
      ((.ok (tests.map fun t => (t.1, ownCoverage load t.2)), store'), s') := by
  induction hpass generalizing store with
  | nil s => exact ⟨store, rfl⟩
  | @cons test coverage tests s s₁ s₂ s₃ s₄ hgoes hpasses hgoesOn hartifacts hrest ih =>
    obtain ⟨store', hrun⟩ := ih (matches_coveredLines hstore coverage)
    refine ⟨store', ?_⟩
    rw [List.map_cons, List.map_cons, runBaseline, bind_of_eq hgoes]
    simp only [Bool.false_eq_true, if_false]
    rw [bind_of_eq hpasses]
    simp only [TestOutcome.complaint?]
    rw [bind_of_eq hgoesOn]
    simp only [Bool.false_eq_true, if_false]
    rw [bind_of_eq (x := get) (s := s₃) rfl, hartifacts]
    simp only [coveredLines_fst hstore]
    rw [bind_of_eq hrun]
    rfl

/-! ### A device that answers -/

/-- The process came to its end. -/
def ProcessOutput.IsEnded (o : ProcessOutput) : Prop := o.ending = .exited 0 ∧ o.cancelled = false

/-- A test whose report says that it passed and left a coverage file. -/
theorem runInstrumented_of_passed {test : TestUnit} {timeoutMs : Nat}
    {output fetched : ProcessOutput} {path : String} {s s₁ s₂ : σ}
    (hrun : host.run (instrumentCommand config test) timeoutMs true s = (some output, s₁))
    (hended : output.IsEnded)
    (hreport : TestReport.ofTranscript output.merged = ⟨true, true, none, some path⟩)
    (hfetch : host.run (fetchCommand config path) timeoutMs true s₁ = (some fetched, s₂))
    (hfetched : fetched.IsEnded) :
    runInstrumented host config test timeoutMs s = (⟨.passed, some fetched.stdout⟩, s₂) := by
  have hbytes : fetchCoverage host config path timeoutMs s₁ = (.ok fetched.stdout, s₂) := by
    rw [fetchCoverage, bind_of_eq hfetch]
    simp only [ProcessOutput.timedOut, hfetched.1, hfetched.2]
    rfl
  have hcoverage : retrieveCoverage host config ⟨true, true, none, some path⟩ timeoutMs s₁ =
      (some fetched.stdout, s₂) := by
    simp only [retrieveCoverage, if_true]
    rw [bind_of_eq hbytes]
    rfl
  rw [runInstrumented, bind_of_eq hrun]
  simp only [ProcessOutput.timedOut, hended.1, hended.2, hreport]
  exact bind_of_eq hcoverage

/-- An outside that answers a command in one way, whenever it is asked, and stops nothing. -/
def Outside.steady (answer : Command → ProcessOutput) : Outside Unit :=
  ⟨fun _ => 0, fun _ _ => true, fun _ => pure true, pure false,
    fun _ command _ _ => pure (some (answer command))⟩

/-- By these answers the test passes and leaves a coverage file. -/
def LeavesFile (answer : Command → ProcessOutput) (config : DeviceConfig) (test : TestUnit)
    (path : String) (bytes : Bytes) : Prop :=
  (answer (instrumentCommand config test)).IsEnded ∧
    TestReport.ofTranscript (answer (instrumentCommand config test)).merged =
      ⟨true, true, none, some path⟩ ∧
    (answer (fetchCommand config path)).IsEnded ∧ (answer (fetchCommand config path)).stdout = bytes

/-- Tests pass on a device that answers so, and the artifacts stay. -/
theorem allPass_steady {answer : Command → ProcessOutput} {tests : List (TestUnit × Option Bytes)}
    (htests : ∀ t ∈ tests, ∃ path bytes, t.2 = some bytes ∧
      LeavesFile answer config t.1 path bytes) (w : World Unit) :
    ∃ w', AllPass (Outside.steady answer).host config index options
      (index.linesOf? (Outside.steady answer).host w) tests w w' := by
  induction tests generalizing w with
  | nil => exact ⟨w, .nil w⟩
  | cons t tests ih =>
    obtain ⟨htest, hothers⟩ := List.forall_mem_cons.mp htests
    obtain ⟨test, coverage⟩ := t
    obtain ⟨path, bytes, rfl, hended, hreport, hfetched, rfl⟩ := htest
    obtain ⟨w₁, hpasses, hload⟩ : ∃ w₁, runInstrumented (Outside.steady answer).host config test
        options.timeoutMs (w.noted .asked) =
          (⟨.passed, some (answer (fetchCommand config path)).stdout⟩, w₁) ∧
        index.linesOf? (Outside.steady answer).host (w₁.noted .asked) =
          index.linesOf? (Outside.steady answer).host w :=
      ⟨_, runInstrumented_of_passed rfl hended hreport rfl hfetched, rfl⟩
    obtain ⟨w', hrest⟩ := ih hothers (w₁.noted .asked)
    rw [hload] at hrest
    exact ⟨w', .cons rfl hpasses rfl hload hrest⟩

/-! ### Attribution -/

/-- **Coverage is attributed to the right test.** When all tests pass, each gets the coverage of its
own file, whatever the store held before: none if it left no file or one that cannot be read, and
otherwise the classes that have an artifact and a record with a hit in the file, each with all its
lines. Tests in another order, run from any other state with the same artifacts and over any other
such store, get the same coverage in that order. -/
theorem baseline_attributes_coverage (host : Host σ) (config : DeviceConfig)
    (index : LocationIndex) (options : RunOptions) {tests : List (TestUnit × Option Bytes)}
    {s s' : σ} (hpass : AllPass host config index options (index.linesOf? host s) tests s s')
    {store : CoverageStore} (hstore : store.Reachable)
    (hlines : ∀ c ∈ store.classes, index.linesOf? host s c.name = some c.lines) :
    let load := index.linesOf? host s
    let entries := tests.map fun t => (t.1, ownCoverage load t.2)
    (∃ store', runBaseline host config index options (tests.map (·.1)) store s =
      ((.ok entries, store'), s')) ∧
    ownCoverage load none = none ∧
    (∀ bytes e, Coverage.decode bytes = .error e → ownCoverage load (some bytes) = none) ∧
    (∀ bytes data, Coverage.decode bytes = .ok data → ∃ found,
      ownCoverage load (some bytes) = some found ∧ found.IsOrdered ∧ ∀ name lines,
        (name, lines) ∈ found ↔
          load name = some lines ∧ ∃ r ∈ data.records, r.name = name ∧ r.anyHit = true) ∧
    ∀ tests', List.Perm tests' tests → ∀ state state' : σ,
      AllPass host config index options load tests' state state' → ∀ other : CoverageStore,
        other.Reachable → (∀ c ∈ other.classes, load c.name = some c.lines) →
          ∃ entries' other', runBaseline host config index options (tests'.map (·.1)) other state =
            ((.ok entries', other'), state') ∧ List.Perm entries' entries := by
  intro load entries
  refine ⟨runBaseline_of_allPass hpass ⟨hstore, hlines⟩, rfl, fun bytes e he => ?_,
    fun bytes data hdata => ?_, ?_⟩
  · rw [ownCoverage, coveredLines_of_error _ he]
  · have hempty := (matches_empty load).snapshot
    refine ⟨_, by rw [ownCoverage, coveredLines_of_decode _ hdata], ?_, fun name lines => ?_⟩
    · exact ((isKept_reachable load).records hempty.reachable _).isSound.isOrdered_snapshot
    · rw [hempty.mem_snapshot_replayAll (fun _ => visited_of_mem_snapshot), mem_hitNames, and_comm]
      refine and_congr_left fun _ => ?_
      cases hload : load name with
      | none => simp
      | some ns => rw [Option.map_some, sortLines_eq_self (LocationIndex.pairwise_linesOf? hload)]
  · intro tests' hperm state state' hpass' other hother hlines'
    obtain ⟨other', hrun⟩ := runBaseline_of_allPass hpass' ⟨hother, hlines'⟩
    exact ⟨_, other', hrun, hperm.map _⟩

end Run

/-- Two tests on one class, which is hit in the store before. The file of the first cannot be read,
that of the second has a hit in the class. -/
theorem baseline_attributes_coverage_of_two_tests :
    let c : ClassFile := { ClassFile.empty "a/B" with
      methods := [⟨"m", "()V", 1, [], [.line 9 0, .line 7 0], [], [], 4, 4⟩] }
    let artifact : Path := ['B']
    let report (path : String) : String := .join ["INSTRUMENTATION_STATUS_CODE: 1\n",
      "coverageFilePath=", path, "\n", "INSTRUMENTATION_STATUS_CODE: 0\n"]
    let ended (stdout : Bytes) : ProcessOutput := ⟨.exited 0, false, stdout, [], 5⟩
    let bytes : Bytes := [1, 0xC0, 0xC0, 0x10, 0x07, 0x11, 0, 0, 0, 0, 0, 0, 0, 9, 0, 3, 97, 47, 66,
      2, 2]
    let config : DeviceConfig := ⟨['.'], "p.test", "p", "r", [], "adb"⟩
    let index : LocationIndex := [("a/B", artifact)]
    let options : RunOptions := ⟨none, 1000⟩
    let test : TestUnit := ⟨"a.BTest", "m"⟩
    let other : TestUnit := ⟨"a.BTest", "n"⟩
    let answer (command : Command) : ProcessOutput :=
      if command = instrumentCommand config test then ended (Utf8.encode (report "c"))
      else if command = instrumentCommand config other then ended (Utf8.encode (report "d"))
      else if command = fetchCommand config "c" then ended bytes
      else ended [9]
    let E : Outside Unit := Outside.steady answer
    let w : World Unit := ⟨(), fun path => if path = artifact then some c.toBytes else none, []⟩
    let store : CoverageStore := (CoverageStore.empty.register "a/B" [7, 9]).2.visit 0 1 [true]
    ∃ found store' w',
      runBaseline E.host config index options [other, test] store w =
        ((.ok [(other, none), (test, some found)], store'), w') ∧
      ∀ name lines, (name, lines) ∈ found ↔ name = "a/B" ∧ lines = [7, 9] := by
  intro c artifact report ended bytes config index options test other answer E w store
  have hfree : c.IsFloatFree := by
    simp [ClassFile.IsFloatFree, ClassFile.constants, Instruction.constants, c]
  have hread : readClass E.host w artifact = .ok c :=
    readClass_of_read (by simp only [Outside.host, Outside.steady, E, w, if_true])
      (ClassFile.ofBytes?_toBytes hfree)
  have hload : index.linesOf? E.host w =
      fun name => if name = "a/B" then some [7, 9] else none := by
    funext name
    by_cases hname : name = "a/B"
    · rw [if_pos hname, LocationIndex.linesOf?_of_readClass (congrArg _ hname) hread]
      subst c
      decide +kernel
    · have hmissing : index.locate? name = none := by
        rw [LocationIndex.locate?, List.lookup_cons, beq_eq_false_iff_ne.mpr hname, List.lookup_nil]
      rw [if_neg hname, LocationIndex.linesOf?, hmissing, Option.bind_none]
  have hreport : ∀ path, (path = "c" ∨ path = "d") →
      TestReport.ofTranscript (ended (Utf8.encode (report path))).merged =
        ⟨true, true, none, some path⟩ := by
    have hempty : Utf8.lossy [] = "" := Utf8.lossy_encode ""
    rintro path (rfl | rfl)
    · rw [ProcessOutput.merged, Utf8.lossy_encode, hempty]
      decide +kernel
    · rw [ProcessOutput.merged, Utf8.lossy_encode, hempty]
      decide +kernel
  have hfirst : LeavesFile answer config other "d" [9] := by
    have hrun : answer (instrumentCommand config other) = ended (Utf8.encode (report "d")) :=
      (if_neg (by decide +kernel)).trans (if_pos rfl)
    have hfetch : answer (fetchCommand config "d") = ended [9] := by
      simp only [answer]
      rw [if_neg (by decide +kernel), if_neg (by decide +kernel), if_neg (by decide +kernel)]
    rw [LeavesFile, hrun, hfetch]
    exact ⟨⟨rfl, rfl⟩, hreport "d" (.inr rfl), ⟨rfl, rfl⟩, rfl⟩
  have hsecond : LeavesFile answer config test "c" bytes := by
    have hrun : answer (instrumentCommand config test) = ended (Utf8.encode (report "c")) :=
      if_pos rfl
    have hfetch : answer (fetchCommand config "c") = ended bytes :=
      ((if_neg (by decide +kernel)).trans (if_neg (by decide +kernel))).trans (if_pos rfl)
    rw [LeavesFile, hrun, hfetch]
    exact ⟨⟨rfl, rfl⟩, hreport "c" (.inl rfl), ⟨rfl, rfl⟩, rfl⟩
  obtain ⟨w', hpass⟩ : ∃ w', AllPass E.host config index options (index.linesOf? E.host w)
      [(other, some [9]), (test, some bytes)] w w' := by
    refine allPass_steady (fun t ht => ?_) w
    obtain rfl | ht := List.mem_cons.mp ht
    · exact ⟨"d", [9], rfl, hfirst⟩
    · obtain rfl := List.mem_singleton.mp ht
      exact ⟨"c", bytes, rfl, hsecond⟩
  have hlines : ∀ known ∈ store.classes,
      index.linesOf? E.host w known.name = some known.lines := by
    rw [hload]
    decide +kernel
  obtain ⟨e, hrejected⟩ : ∃ e, Coverage.decode [9] = .error e := ⟨_, rfl⟩
  have hdata : Coverage.decode bytes = .ok ⟨[], [⟨9, "a/B", [false, true]⟩]⟩ := by
    subst bytes
    exact eq_ok_of_toOption (by decide +kernel)
  obtain ⟨⟨store', hbaseline⟩, -, hnone, hsome, -⟩ := baseline_attributes_coverage E.host config
    index options hpass ((Reachable.empty.register "a/B" [7, 9]).visit 0 1 [true]) hlines
  obtain ⟨found, hfound, -, hmem⟩ := hsome bytes _ hdata
  refine ⟨found, store', w', ?_, fun name lines => ?_⟩
  · rw [← hfound, ← hnone [9] e hrejected]
    exact hbaseline
  · rw [hmem, hload]
    by_cases hname : name = "a/B"
    · subst hname
      simp only [if_true, Option.some.injEq, true_and]
      rw [and_iff_left ⟨_, List.mem_singleton_self _, rfl, rfl⟩]
      exact eq_comm
    · simp [hname]

end MutationTesting
