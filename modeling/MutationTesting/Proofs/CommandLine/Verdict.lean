import MutationTesting.Proofs.CommandLine.Survivor
import MutationTesting.Proofs.Decimal.Fraction
/-!
# The verdict of a run

A run that comes to its end says in three ways how it went: by its exit code, by the first line of
its report and by its score. The first two look for survivors, the third one for mutants that were
killed. A mutant whose tests took too long is neither. So a run can end well, and say that all
mutants were killed, where some have timed out; the score is then below one. But for this the three
agree.

## Main definitions

* `AllKilled` — every mutant that could be tested was killed
* `SaysAllKilled` — the line that says so

## Main results

* `exists_saysAllKilled_iff` — when this is said
* `RunSummary.allKilled_iff`, `RunSummary.allKilled_iff_killed` — when it is so
* `RunSummary.score_eq_one`, `RunSummary.allKilled_of_score` — when the score is one
* `run_succeeds_iff_nothing_survived`
* `timeout_counts_as_success` — when it is not
-/

namespace MutationTesting

/-- Every mutant that could be tested was killed. -/
def AllKilled (results : List MutantResult) : Prop :=
  ∀ x ∈ results, x.status ≠ .unviable → x.status = .killed

instance (results : List MutantResult) : Decidable (AllKilled results) :=
  inferInstanceAs (Decidable (∀ _ ∈ _, _))

namespace RunSummary

variable {results : List MutantResult}

/-! ### Counts -/

theorem count_eq_zero_iff {status : MutantStatus} :
    count results status = 0 ↔ ∀ x ∈ results, x.status ≠ status := by
  simp [count, List.filter_eq_nil_iff]

theorem survived_eq_zero_iff : (ofResults results).survived = 0 ↔
    ∀ x ∈ results, x.status ≠ .survived ∧ x.status ≠ .noCoverage := by
  change (survivorsOf results).length = 0 ↔ _
  rw [length_survivorsOf, length_filter_isSurvivor, Nat.add_eq_zero_iff, count_eq_zero_iff,
    count_eq_zero_iff]
  exact forall₂_and.symm

/-- The mutants that could be tested, by what became of them. -/
theorem testable_eq (results : List MutantResult) :
    (ofResults results).total - (ofResults results).unviable =
      (ofResults results).killed + (ofResults results).survived + (ofResults results).timeout := by
  have h := (accounts_ofResults results (ofResults results).score).balance
  dsimp only at h
  omega

/-- **All were killed** if nothing has survived and nothing took too long. -/
theorem allKilled_iff : AllKilled results ↔
    (ofResults results).survived = 0 ∧ (ofResults results).timeout = 0 := by
  change _ ↔ _ ∧ count results .timeout = 0
  rw [survived_eq_zero_iff, count_eq_zero_iff, ← forall₂_and]
  refine forall₂_congr fun x _ => ?_
  cases x.status <;> simp

theorem allKilled_iff_killed : AllKilled results ↔
    (ofResults results).killed = (ofResults results).total - (ofResults results).unviable := by
  rw [allKilled_iff, testable_eq]
  omega

/-! ### The score -/

theorem scoreOf_self {n : Nat} (h : n < 2 ^ 64) : scoreOf n n = .ofNat 1 := by
  rw [scoreOf]
  split
  · next hpos =>
    have hlimit := Number.word_lt_limit h
    exact Decimal.Binary.div_self (Decimal.Binary.isInfinite_ofNat hlimit)
      (one_pos.trans_le (Decimal.Binary.magnitude_ofNat hpos hlimit).1)
  · rfl

theorem scoreOf_ne_one {killed testable : Nat} (hlt : killed < testable) (h : testable < 2 ^ 53) :
    scoreOf killed testable ≠ .ofNat 1 := by
  rw [scoreOf, if_pos (Nat.zero_lt_of_lt hlt)]
  exact Decimal.Binary.div_ne_one hlt h

theorem score_eq (results : List MutantResult) : (ofResults results).score =
    scoreOf (ofResults results).killed
      ((ofResults results).total - (ofResults results).unviable) := rfl

/-- **The score is one** if all were killed. -/
theorem score_eq_one (h : AllKilled results) (hlength : results.length < 2 ^ 64) :
    (ofResults results).score = .ofNat 1 := by
  rw [score_eq, ← allKilled_iff_killed.mp h]
  exact scoreOf_self ((count_le _).trans_lt hlength)

/-- Only then is it one, unless there are so many mutants that it is rounded to one. -/
theorem allKilled_of_score (h : (ofResults results).score = .ofNat 1)
    (hlength : results.length < 2 ^ 53) : AllKilled results := by
  rw [allKilled_iff_killed]
  by_contra hne
  have hlt : (ofResults results).killed <
      (ofResults results).total - (ofResults results).unviable := by
    rw [testable_eq] at hne ⊢
    omega
  exact scoreOf_ne_one hlt ((Nat.sub_le ..).trans_lt hlength) (score_eq results ▸ h)

end RunSummary

namespace CommandLine

/-! ### What is said -/

/-- The line says that all mutants were killed. -/
def SaysAllKilled (line : String) : Prop :=
  ∃ testable score time : String, line =
    successLine (testable ++ " mutants, all killed (" ++ score ++ "%) in " ++ time ++ "s")

theorem SaysAllKilled.head? {line : String} (h : SaysAllKilled line) :
    line.toList.head? = some '✓' := by
  obtain ⟨testable, score, time, rfl⟩ := h
  rw [successLine, String.toList_append]
  rfl

/-- A line about a number of mutants is no such line. -/
theorem head?_of_mem_noteLine {n : Nat} {what line : String} (h : line ∈ noteLine n what) :
    line.toList.head? = some ' ' := by
  rw [noteLine] at h
  split at h
  · obtain rfl := List.mem_singleton.mp h
    simp only [String.toList_append]
    rfl
  · cases h

/-- Where something has survived no line of the report begins like it. -/
theorem head?_ne_of_mem_runLines {s : RunSummary} (hs : s.survived ≠ 0) {line : String}
    (h : line ∈ runLines s) : line.toList.head? ≠ some '✓' := by
  have hnote {n : Nat} {what : String} (h : line ∈ noteLine n what) :
      line.toList.head? ≠ some '✓' := by
    rw [head?_of_mem_noteLine h]
    decide
  rw [runLines, if_neg hs] at h
  simp only [List.mem_append, List.mem_singleton, List.mem_map] at h
  obtain ((((rfl | hunviable) | htimeout) | hcoverage) | rfl) | ⟨m, -, rfl⟩ := h
  · simp only [String.toList_append]
    exact (by decide : some '!' ≠ some '✓')
  · exact hnote hunviable
  · exact hnote htimeout
  · exact hnote hcoverage
  · decide
  · simp only [String.toList_append]
    exact (by decide : some ' ' ≠ some '✓')

/-- **When it is said** that all mutants were killed. -/
theorem exists_saysAllKilled_iff (r : RunRequest) (s : RunSummary) :
    (∃ line ∈ (runReply r s).output, SaysAllKilled line) ↔
      r.quiet = false ∧ r.json = false ∧ s.survived = 0 := by
  rw [runReply]
  cases hquiet : r.quiet with
  | true => simp [Reply.silent]
  | false =>
    cases hjson : r.json with
    | true =>
      -- the text for programs begins with a brace
      refine ⟨?_, fun h => absurd h.2.1.symm Bool.false_ne_true⟩
      rintro ⟨line, hline, hsays⟩
      obtain rfl : line = s.toJson.compact := List.mem_singleton.mp hline
      have hhead := hsays.head?
      rw [RunSummary.toJson, Json.compact, String.toList_ofList] at hhead
      exact absurd hhead (by decide : some '{' ≠ some '✓')
    | false =>
      refine ⟨?_, fun h => ?_⟩
      · rintro ⟨line, hline, hsays⟩
        by_contra hs
        exact head?_ne_of_mem_runLines (fun hzero => hs ⟨rfl, rfl, hzero⟩) hline hsays.head?
      · have hlines : runLines s = [successLine (toString s.testable ++ " mutants, all killed ("
            ++ percentage s ++ "%) in " ++ seconds s ++ "s")] := if_pos h.2.2
        exact ⟨_, hlines ▸ List.mem_singleton_self _, _, _, _, rfl⟩

/-! ### What is so -/

/-- **A run succeeds iff nothing has survived.** This is what the exit code says, and the line that
all mutants were killed, where a report is asked for. All of them were killed iff besides none has
timed out; then as many were killed as could be tested and the score is one, and it is not one
otherwise as long as the counts are doubles. -/
theorem run_succeeds_iff_nothing_survived {σ : Type} (host : Host σ) (r : RunRequest)
    (results : List MutantResult) :
    let s := RunSummary.ofResults results
    ((runReply r s).code = 0 ↔ ∀ x ∈ results, x.status ≠ .survived ∧ x.status ≠ .noCoverage) ∧
      ((∃ line ∈ (runReply r s).output, SaysAllKilled line) ↔
        r.quiet = false ∧ r.json = false ∧ (runReply r s).code = 0) ∧
      (AllKilled results ↔ (runReply r s).code = 0 ∧ ∀ x ∈ results, x.status ≠ .timeout) ∧
      (AllKilled results ↔ s.killed = s.total - s.unviable) ∧
      (results.length < 2 ^ 64 → AllKilled results → s.score = .ofNat 1) ∧
      (results.length < 2 ^ 53 → s.score = .ofNat 1 → AllKilled results) ∧
      ∀ policies targets coverage s₀ s₁,
        runMutations host r.device policies targets coverage r.options s₀ = (.ok results, s₁) →
          (finishRun host r policies targets coverage s₀).1 = runReply r s := by
  intro s
  have hcode : (runReply r s).code = 0 ↔ s.survived = 0 := by
    rw [code_runReply]
    split <;> omega
  refine ⟨hcode.trans RunSummary.survived_eq_zero_iff, ?_, ?_, RunSummary.allKilled_iff_killed,
    fun hlength h => RunSummary.score_eq_one h hlength,
    fun hlength h => RunSummary.allKilled_of_score h hlength,
    fun policies targets coverage s₀ s₁ htested => ?_⟩
  · rw [exists_saysAllKilled_iff, hcode]
  · rw [RunSummary.allKilled_iff, hcode, ← RunSummary.count_eq_zero_iff]
    rfl
  · rw [finishRun, bind_of_eq htested]
    rfl

/-- **A timeout counts as success**: the only mutant was not killed, but the exit code is zero and
the report says that all were killed, none in a hundred. -/
theorem timeout_counts_as_success :
    let results : List MutantResult :=
      [⟨⟨⟨"https_to_http", "a/B", "m()V", 0, "https"⟩, 7, none⟩, .timeout, 300, "", some "a.T#t"⟩]
    let r : RunRequest := ⟨⟨"c".toList, "p.test", "p", "r", ["t"], "adb"⟩, "t".toList, [], none,
      ⟨none, 300⟩, false, false, none⟩
    let s := RunSummary.ofResults results
    runReply r s = ⟨0, ["✓ 1 mutants, all killed (0.0%) in 0.3s"], []⟩ ∧ ¬ AllKilled results ∧
      s.killed ≠ s.total - s.unviable ∧ s.score ≠ .ofNat 1 := by
  decide +kernel

end CommandLine

end MutationTesting
