import MutationTesting.CommandLine.Execution
import MutationTesting.Proofs.Coverage.Ingest
import MutationTesting.Proofs.Coverage.Replay
import MutationTesting.Proofs.Host.Watched
import MutationTesting.Proofs.Run.Summary
/-!
# The summary of the latest run

A run that comes to its end keeps its summary, and this is what is found when the latest run is
asked for. A run in which there is nothing to mutate comes to its end as well, and says that nothing
has survived, but keeps no summary: the one of an earlier run stays.

## Main definitions

* `Host.KeepsFile` — a file that can be written, apart from the files of claims
* `Host.keeping` — a machine that keeps one file
* `RunEnd` — how a run can end

## Main results

* `runEnd_runClaimed` — how a run can end
* `summary_is_kept_unless_nothing_was_found`
* `idle_run_leaves_earlier_summary` — the way to an end on which no summary is kept
-/

namespace MutationTesting

variable {σ : Type}

/-- A file can be written and then holds what was written, and claims on directories leave it
alone. -/
structure Host.KeepsFile (host : Host σ) (path : Path) : Prop where
  write : ∀ content s, host.read (host.write path content s).2 path = some content
  claim : ∀ dir text s,
    host.read (host.claim (Path.join dir claimFile.toList) text s).2 path = host.read s path
  release : ∀ claim s, host.read (host.release claim s).2 path = host.read s path

/-! ### A machine that keeps one file -/

/-- A machine on which one file can be written. The others stay as they are, and programs answer by
their commands. -/
def Host.keeping (kept : Path) (files : List (Path × Bytes)) (answer : Command → ProcessOutput) :
    Host (Option Bytes) where
  read s path := if path = kept then s else files.lookup path
  isDirectory _ _ := true
  filesBelow _ dir := some ((files.map (·.1)).filter (dir.isPrefixOf ·))
  leavesBelow _ dir := (files.map (·.1)).filter (dir.isPrefixOf ·)
  now _ := 0
  write path content := fun s => (true, if path = kept then some content else s)
  replace _ _ := pure none
  copy _ _ := pure true
  remove _ := pure true
  claim _ _ := pure (.granted 0)
  release _ := pure ()
  cancelled := pure false
  run command _ _ := pure (some (answer command))

namespace Host

variable {kept path : Path} {files : List (Path × Bytes)} {answer : Command → ProcessOutput}
  {s : Option Bytes}

theorem read_keeping_self : (keeping kept files answer).read s kept = s := if_pos rfl

theorem read_keeping_of_ne (h : path ≠ kept) :
    (keeping kept files answer).read s path = files.lookup path := if_neg h

theorem keepsFile_keeping : (keeping kept files answer).KeepsFile kept where
  write _ _ := read_keeping_self.trans (if_pos rfl)
  claim _ _ _ := rfl
  release _ _ := rfl

end Host

/-- The classes of a directory with one artifact. -/
theorem readClasses_of_scan {host : Host σ} {s : σ} {dir path : Path} {c : ClassFile}
    (hscan : scanArtifacts host s dir = .ok [path]) (hread : readClass host s path = .ok c) :
    readClasses host s dir = .ok [(path, c)] := by
  rw [readClasses, hscan]
  change ([path].mapM fun path => (readClass host s path).map (path, ·)) = _
  rw [List.mapM_cons, hread, List.mapM_nil]
  rfl

namespace CommandLine

/-! ### The end of a run -/

/-- How a run under a claim can end, with its reply and the state after it. -/
inductive RunEnd (host : Host σ) (r : RunRequest) (policies : List Policy) (s : σ) :
    Reply → σ → Prop where
  /-- All mutants were tested. The last thing that is done is to keep the summary. -/
  | finished {target : MutationTarget} {targets : List MutationTarget}
      (found : findTargets host s r.device.classesDir policies r.classFilter =
        .ok (target :: targets))
      {coverage : CoverageMap} {s₁ s₂ : σ} {results : List MutantResult}
      (tested : runMutations host r.device policies (target :: targets) coverage r.options s₁ =
        (.ok results, s₂)) :
      RunEnd host r policies s (runReply r (.ofResults results))
        (host.write summaryFile (Utf8.encode (RunSummary.ofResults results).toText) s₂).2
  /-- There was nothing to mutate, and nothing was done. -/
  | idle (found : findTargets host s r.device.classesDir policies r.classFilter = .ok []) :
      RunEnd host r policies s (nothingReply r) s
  /-- The run could not be finished. -/
  | failed {reply : Reply} (s' : σ) (code : 1 < reply.code) : RunEnd host r policies s reply s'

/-- Steps that come to such an end wherever they are taken. -/
def Ends (host : Host σ) (r : RunRequest) (policies : List Policy) (s₀ : σ)
    (x : StateM σ Reply) : Prop :=
  ∀ s, RunEnd host r policies s₀ (x s).1 (x s).2

section

variable {host : Host σ} {r : RunRequest} {policies : List Policy} {s₀ : σ}

theorem Ends.bind {α : Type} {x : StateM σ α} {f : α → StateM σ Reply}
    (h : ∀ a, Ends host r policies s₀ (f a)) : Ends host r policies s₀ (x >>= f) :=
  fun s => h (x s).1 (x s).2

theorem Ends.complain {code : Nat} (h : 1 < code) (message : String) :
    Ends host r policies s₀ (pure (.complain code message)) :=
  fun s => .failed s h

section

variable {target : MutationTarget} {targets : List MutationTarget}
  (hfound : findTargets host s₀ r.device.classesDir policies r.classFilter =
    .ok (target :: targets))

include hfound

theorem ends_finishRun (coverage : CoverageMap) :
    Ends host r policies s₀ (finishRun host r policies (target :: targets) coverage) := by
  intro s
  rcases htested : runMutations host r.device policies (target :: targets) coverage r.options s
    with ⟨answer, s₂⟩
  rw [finishRun, bind_of_eq htested]
  cases answer with
  | ok results => exact .finished hfound htested
  | error e => cases e <;> exact .failed s₂ (by decide : 1 < 3)

theorem ends_startRun : Ends host r policies s₀ (startRun host r policies (target :: targets)) := by
  refine .bind fun s => ?_
  split
  · exact .complain (by decide : 1 < 3) _
  · exact .complain (by decide : 1 < 2) _
  · split
    · exact .complain (by decide : 1 < 3) _
    · refine .bind fun baseline => ?_
      split
      · exact .complain (by decide : 1 < 3) _
      · exact .complain (by decide : 1 < 3) _
      · exact ends_finishRun hfound _

end

/-- **How a run can end.** -/
theorem runEnd_runClaimed (s : σ) :
    RunEnd host r policies s (runClaimed host r policies s).1
      (runClaimed host r policies s).2 := by
  rw [runClaimed, get_bind]
  cases interruptedRuns host s r.device.classesDir with
  | nil =>
    dsimp only
    rw [get_bind]
    cases hfound : findTargets host s r.device.classesDir policies r.classFilter with
    | error e => exact .failed s (by decide : 1 < 3)
    | ok targets =>
      cases targets with
      | nil => exact .idle hfound
      | cons target targets => exact ends_startRun hfound s
  | cons leftover leftovers =>
    exact Ends.bind (fun complaints s' => .failed s' (by decide : 1 < 3)) s

/-- A run with nothing to mutate says so and leaves all as it is. -/
theorem runClaimed_of_nothing {s : σ}
    (hinterrupted : interruptedRuns host s r.device.classesDir = [])
    (hfound : findTargets host s r.device.classesDir policies r.classFilter = .ok []) :
    runClaimed host r policies s = (nothingReply r, s) := by
  rw [runClaimed, get_bind, hinterrupted]
  dsimp only
  rw [get_bind, hfound]
  rfl

/-- The exit code of a run that came to its end. -/
theorem code_runReply (r : RunRequest) (s : RunSummary) :
    (runReply r s).code = if 0 < s.survived then 1 else 0 := by
  rw [runReply]
  cases r.quiet <;> rfl

/-- A run comes to its end if there is something to mutate, the tests pass before and no mutant
stops it. -/
theorem runClaimed_of_steps {s s₁ s₂ : σ} {target : MutationTarget} {targets : List MutationTarget}
    {test : TestUnit} {tests : List TestUnit} {index : LocationIndex} {coverage : CoverageMap}
    {store : CoverageStore} {results : List MutantResult}
    (hinterrupted : interruptedRuns host s r.device.classesDir = [])
    (hfound : findTargets host s r.device.classesDir policies r.classFilter =
      .ok (target :: targets))
    (htests : findTestUnits host s r.testClasses r.device.instrumentedTestPaths =
      .ok (test :: tests))
    (hindex : LocationIndex.build host s r.device.classesDir = .ok index)
    (hbaseline : runBaseline host r.device index r.options (test :: tests) .empty s =
      ((.ok coverage, store), s₁))
    (hmutants : runMutations host r.device policies (target :: targets) coverage r.options s₁ =
      (.ok results, s₂)) :
    runClaimed host r policies s = (runReply r (.ofResults results),
      (host.write summaryFile (Utf8.encode (RunSummary.ofResults results).toText) s₂).2) := by
  rw [runClaimed, get_bind, hinterrupted]
  dsimp only
  rw [get_bind, hfound]
  dsimp only
  rw [startRun, get_bind, htests]
  dsimp only
  rw [hindex]
  dsimp only
  rw [bind_of_eq hbaseline]
  dsimp only
  rw [finishRun, bind_of_eq hmutants]
  rfl

/-! ### From the command to its end -/

theorem code_of_selectPolicies {names : List String} {reply : Reply}
    (h : selectPolicies names = .error reply) : reply.code = 2 := by
  rw [selectPolicies] at h
  split at h
  · cases h
  · split at h <;> cases h
    rfl

/-- A run whose claim is granted ends as it does under that claim. -/
theorem executeRun_of_claim {name : String} {s s₁ s₂ : σ} {claim : Nat} {reply : Reply}
    (hpolicies : selectPolicies r.policies = .ok policies)
    (hdir : host.isDirectory s r.device.classesDir = true)
    (htests : host.isDirectory s r.testClasses = true)
    (hclaim : claimDirectory host r.device.classesDir (r.session.getD name) s = (.ok claim, s₁))
    (hend : runClaimed host r policies s₁ = (reply, s₂)) :
    executeRun host name r s = (reply, (host.release claim s₂).2) := by
  have hgranted : ∀ {x : Bool} {refusal : Reply} {granted : StateM σ Reply}, x = true →
      (if !x then pure refusal else granted) = granted := by
    rintro _ _ _ rfl
    rfl
  rw [executeRun, hpolicies]
  dsimp only
  rw [get_bind, hgranted hdir, get_bind, hgranted htests, underClaim,
    bind_of_eq hclaim]
  dsimp only
  rw [bind_of_eq hend]
  rfl

/-- A run that is not refused is one under a claim. -/
theorem executeRun_of_code_le {name : String} {s s' : σ} {reply : Reply}
    (h : executeRun host name r s = (reply, s')) (hcode : reply.code ≤ 1) :
    ∃ policies claim s₁, selectPolicies r.policies = .ok policies ∧
      claimDirectory host r.device.classesDir (r.session.getD name) s = (.ok claim, s₁) ∧
      reply = (runClaimed host r policies s₁).1 ∧
      s' = (host.release claim (runClaimed host r policies s₁).2).2 := by
  have hrefused : ∀ {code message}, 1 < code → (Reply.complain code message, s) ≠ (reply, s') := by
    rintro code message hlt ⟨⟩
    exact absurd hcode (Nat.not_le.mpr hlt)
  rw [executeRun] at h
  cases hpolicies : selectPolicies r.policies with
  | error refusal =>
    rw [hpolicies] at h
    cases h
    rw [code_of_selectPolicies hpolicies] at hcode
    omega
  | ok policies =>
    rw [hpolicies] at h
    dsimp only at h
    rw [get_bind] at h
    split at h
    · exact absurd h (hrefused (by decide : 1 < 2))
    · rw [get_bind] at h
      split at h
      · exact absurd h (hrefused (by decide : 1 < 2))
      · rcases hclaim : claimDirectory host r.device.classesDir (r.session.getD name) s with
          ⟨answer, s₁⟩
        rw [underClaim, bind_of_eq hclaim] at h
        cases answer with
        | error e =>
          cases h
          exact absurd hcode (by decide : ¬ 3 ≤ 1)
        | ok claim =>
          cases h
          exact ⟨policies, claim, s₁, rfl, rfl, rfl, rfl⟩

/-- The directory is claimed by the file in it. -/
theorem claimDirectory_snd (dir : Path) (session : String) (s : σ) :
    (claimDirectory host dir session s).2 =
      (host.claim (Path.join dir claimFile.toList) session s).2 := by
  rcases hclaim : host.claim (Path.join dir claimFile.toList) session s with ⟨answer, s₁⟩
  rw [claimDirectory, bind_of_eq hclaim]
  cases answer <;> rfl

end

/-- **The latest run is kept** if it found anything to mutate: when it ends well or with survivors,
the file holds what it would print for programs, and a summary is loaded that is that of the run but
for the score, which is read from its text. A run that found nothing to mutate ends well, too, and
what is loaded is what was loaded before. -/
theorem summary_is_kept_unless_nothing_was_found {host : Host σ}
    (hkeeps : host.KeepsFile summaryFile) {name : String} {r : RunRequest} {s s' : σ}
    {reply : Reply} (h : executeRun host name r s = (reply, s')) (hcode : reply.code ≤ 1) :
    ∃ policies found, selectPolicies r.policies = .ok policies ∧
      findTargets host
        (host.claim (Path.join r.device.classesDir claimFile.toList) (r.session.getD name) s).2
        r.device.classesDir policies r.classFilter = .ok found ∧
      (found ≠ [] → ∃ coverage s₁ s₂ results,
        runMutations host r.device policies found coverage r.options s₁ = (.ok results, s₂) ∧
        reply = runReply r (.ofResults results) ∧
        (r.quiet = false → r.json = true →
          reply.output = [(RunSummary.ofResults results).toText]) ∧
        host.read s' summaryFile = some (Utf8.encode (RunSummary.ofResults results).toText) ∧
        (results.length < 2 ^ 64 → (RunSummary.ofResults results).durationMs < 2 ^ 64 →
          ∃ score, RunSummary.rereadScore? (RunSummary.ofResults results).score = some score ∧
            loadSummary? host s' = some { RunSummary.ofResults results with score })) ∧
      (found = [] → reply = nothingReply r ∧
        host.read s' summaryFile = host.read s summaryFile ∧
        loadSummary? host s' = loadSummary? host s) := by
  obtain ⟨policies, claim, s₁, hpolicies, hclaim, rfl, rfl⟩ := executeRun_of_code_le h hcode
  have hs₁ : s₁ = (host.claim (Path.join r.device.classesDir claimFile.toList)
      (r.session.getD name) s).2 := by
    rw [← claimDirectory_snd, hclaim]
  have hclaimed := hkeeps.claim r.device.classesDir (r.session.getD name) s
  rw [← hs₁] at hclaimed ⊢
  have hend : RunEnd host r policies s₁ (runClaimed host r policies s₁).1
    (runClaimed host r policies s₁).2 := runEnd_runClaimed s₁
  generalize (runClaimed host r policies s₁).1 = reply at hend hcode ⊢
  generalize (runClaimed host r policies s₁).2 = s₂ at hend ⊢
  have hreleased := hkeeps.release claim s₂
  cases hend with
  | @finished _ _ hfound coverage s₃ s₄ results htested =>
    have hkept := hreleased.trans (hkeeps.write _ s₄)
    refine ⟨policies, _, hpolicies, hfound, fun _ => ⟨coverage, s₃, s₄, results, htested, rfl,
      fun hquiet hjson => ?_, hkept, fun hlength hduration => ?_⟩, fun h => by cases h⟩
    · rw [runReply, hquiet, hjson]
      rfl
    · obtain ⟨score, hscore, hreread⟩ := RunSummary.exists_reread_ofResults hlength
      refine ⟨score, hscore, ?_⟩
      rw [loadSummary?, hkept, Option.bind_some,
        RunSummary.ofBytes?_toText (RunSummary.fits_ofResults hlength hduration), hreread]
  | idle hfound =>
    have hstays := hreleased.trans hclaimed
    exact ⟨policies, [], hpolicies, hfound, fun h => absurd rfl h, fun _ => ⟨rfl, hstays, by
      rw [loadSummary?, loadSummary?, hstays]⟩⟩
  | failed s₂ hlt => exact absurd hcode (Nat.not_le.mpr hlt)

/-- A mutant that survives is kept. -/
theorem survivor_is_kept :
    let c : ClassFile := { ClassFile.empty "a/B" with
      methods := [.plain "m" "()V" publicFlag [.line 7 0, .loadText "https://a", .simple .pop]] }
    let test : ClassFile := { ClassFile.empty "a/BTest" with
      methods := [.plain "testB" "()V" publicFlag [.simple .returnVoid]] }
    let passed : ProcessOutput := ⟨.exited 0, false,
      ("INSTRUMENTATION_STATUS_CODE: 1\n" ++ "INSTRUMENTATION_STATUS_CODE: 0\n").toList.map
        fun c => UInt8.ofNat c.toNat, [], 5⟩
    let host := Host.keeping summaryFile
      [("c/a/B.class".toList, c.toBytes), ("t/a/BTest.class".toList, test.toBytes)]
      fun _ => passed
    let r : RunRequest := ⟨⟨"c".toList, "p.test", "p", "r", ["t"], "adb"⟩, "t".toList, [], none,
      ⟨none, 1000⟩, true, false, none⟩
    ∃ text s', executeRun host "session" r (some []) = (⟨1, [text], []⟩, s') ∧
      host.read s' summaryFile = some (Utf8.encode text) := by
  intro c test passed host r
  have hc : readClass host (some []) "c/a/B.class".toList = .ok c := by
    refine readClass_of_read ((Host.read_keeping_of_ne (by decide)).trans List.lookup_cons_self)
      (ClassFile.ofBytes?_toBytes ?_)
    simp [ClassFile.IsFloatFree, ClassFile.constants, Instruction.constants, Method.plain,
      Instruction.loadText, Constant.isFloating, c]
  have htest : readClass host (some []) "t/a/BTest.class".toList = .ok test := by
    refine readClass_of_read ((Host.read_keeping_of_ne (by decide)).trans
      ((List.lookup_cons ..).trans List.lookup_cons_self)) (ClassFile.ofBytes?_toBytes ?_)
    simp [ClassFile.IsFloatFree, ClassFile.constants, Instruction.constants, Method.plain, test]
  -- what the run finds: one site, and one test
  have hscanC : scanArtifacts host (some []) "c".toList = .ok ["c/a/B.class".toList] :=
    eq_ok_of_toOption (by decide +kernel)
  have hscanT : scanArtifacts host (some []) "t".toList = .ok ["t/a/BTest.class".toList] :=
    eq_ok_of_toOption (by decide +kernel)
  have htargets : findTargets host (some []) "c".toList Policy.defaults none =
      .ok [.ofClass Policy.defaults "c/a/B.class".toList c] := by
    rw [findTargets, readClasses_of_scan hscanC hc]
    refine congrArg Except.ok (List.filter_cons_of_pos ?_)
    decide +kernel
  have htests : findTestUnits host (some []) "t".toList ["t"] = .ok [⟨"a.BTest", "testB"⟩] := by
    rw [findTestUnits, readClasses_of_scan hscanT htest]
    refine congrArg Except.ok ?_
    decide +kernel
  -- the test passes, before and with the mutant
  rcases hbaseline : runBaseline host r.device [("a/B", "c/a/B.class".toList)] r.options
    [⟨"a.BTest", "testB"⟩] .empty (some []) with ⟨⟨baseline, store⟩, s₁⟩
  have hpassed : (baseline, s₁) = (.ok [(⟨"a.BTest", "testB"⟩, none)], some []) := by
    have hshown : ((runBaseline host r.device [("a/B", "c/a/B.class".toList)] r.options
        [⟨"a.BTest", "testB"⟩] .empty (some [])).1.1 = .ok [(⟨"a.BTest", "testB"⟩, none)]) ∧
      (runBaseline host r.device [("a/B", "c/a/B.class".toList)] r.options
        [⟨"a.BTest", "testB"⟩] .empty (some [])).2 = some [] := by decide +kernel
    rw [hbaseline] at hshown
    exact Prod.ext hshown.1 hshown.2
  obtain ⟨rfl, rfl⟩ := Prod.mk.inj hpassed
  rcases hmutants : runMutations host r.device Policy.defaults
    [.ofClass Policy.defaults "c/a/B.class".toList c] [(⟨"a.BTest", "testB"⟩, none)] r.options
    (some []) with ⟨answer, s₂⟩
  have hshown : (runMutations host r.device Policy.defaults
      [.ofClass Policy.defaults "c/a/B.class".toList c] [(⟨"a.BTest", "testB"⟩, none)] r.options
      (some [])).1.toOption.map (fun results => (RunSummary.ofResults results).survived) =
        some 1 := by decide +kernel
  rw [hmutants] at hshown
  obtain ⟨results, hresults, hsurvived⟩ := Option.map_eq_some_iff.mp hshown
  obtain rfl : answer = .ok results := eq_ok_of_toOption hresults
  have hindex : LocationIndex.build host (some []) "c".toList =
      .ok [("a/B", "c/a/B.class".toList)] := by
    rw [LocationIndex.build, hscanC]
    refine congrArg Except.ok ?_
    decide +kernel
  -- so the run comes to its end with a survivor
  have hend := runClaimed_of_steps (r := r) (by decide +kernel) htargets htests hindex hbaseline
    hmutants
  have hdefaults : selectPolicies r.policies = .ok Policy.defaults := rfl
  have hclaim : claimDirectory host r.device.classesDir (r.session.getD "session") (some []) =
    (.ok 0, some []) := rfl
  have hrun := executeRun_of_claim hdefaults rfl rfl hclaim hend
  have hcode : (runReply r (.ofResults results)).code = 1 := by
    rw [code_runReply, hsurvived]
    rfl
  obtain ⟨policies, found, hpolicies, hfound, hkept, -⟩ :=
    summary_is_kept_unless_nothing_was_found Host.keepsFile_keeping hrun hcode.le
  obtain rfl := Except.ok.inj (hdefaults.symm.trans hpolicies)
  obtain rfl := Except.ok.inj (htargets.symm.trans hfound)
  obtain ⟨_, _, _, results', -, hreply, -, hfile, -⟩ := hkept (List.cons_ne_nil _ _)
  have hjson : runReply r (.ofResults results') =
    ⟨(runReply r (.ofResults results')).code, [(RunSummary.ofResults results').toText], []⟩ := rfl
  rw [← hreply, hcode] at hjson
  exact ⟨_, _, hrun.trans (Prod.ext hjson rfl), hfile⟩

/-- A run over an empty directory prints that it tested nothing, and the latest run that is found
afterwards is still the earlier one. -/
theorem idle_run_leaves_earlier_summary :
    let results : List MutantResult :=
      [⟨⟨⟨"secure_to_insecure_url", "a/B", "m()V", 0, ""⟩, 7, none⟩, .survived, 5, "", none⟩]
    let earlier := RunSummary.ofResults results
    let host := Host.keeping summaryFile [] fun _ => ⟨.exited 0, false, [], [], 5⟩
    let r : RunRequest := ⟨⟨"c".toList, "p.test", "p", "r", ["t"], "adb"⟩, "t".toList, [], none,
      ⟨none, 1000⟩, true, false, none⟩
    ∃ s', executeRun host "session" r (some (Utf8.encode earlier.toText)) =
        (⟨0, [(RunSummary.ofResults []).toText], []⟩, s') ∧
      (loadSummary? host s').map (·.total) = some 1 ∧
      loadSummary? host s' ≠ some (RunSummary.ofResults []) := by
  intro results earlier host r
  have hend : runClaimed host r Policy.defaults (some (Utf8.encode earlier.toText)) =
      (nothingReply r, some (Utf8.encode earlier.toText)) :=
    runClaimed_of_nothing (by decide +kernel) (eq_ok_of_toOption (by decide +kernel))
  have hrun : executeRun host "session" r (some (Utf8.encode earlier.toText)) =
      (nothingReply r, some (Utf8.encode earlier.toText)) :=
    executeRun_of_claim rfl rfl rfl rfl hend
  have hlength : results.length < 2 ^ 64 := by decide
  obtain ⟨score, -, hreread⟩ := RunSummary.exists_reread_ofResults hlength
  have hloaded : loadSummary? host (some (Utf8.encode earlier.toText)) =
      some { earlier with score } := by
    rw [loadSummary?, Host.read_keeping_self, Option.bind_some,
      RunSummary.ofBytes?_toText (RunSummary.fits_ofResults hlength (by decide)), hreread]
  refine ⟨_, hrun, ?_, ?_⟩
  · rw [hloaded]
    rfl
  · rw [hloaded]
    exact fun h => absurd (congrArg RunSummary.total (Option.some.inj h)) (by decide : ¬ 1 = 0)

end CommandLine

end MutationTesting
