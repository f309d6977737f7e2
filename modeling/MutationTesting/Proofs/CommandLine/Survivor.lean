import MutationTesting.CommandLine.Execution
import MutationTesting.Proofs.CommandLine.LatestRun
/-!
# Survivors of the latest run

The summary of a run balances: every mutant was killed, survived, took too long or could not be
tested, and the mutants that no test reaches are among those that survived. Each survivor has its
number in the list as its reference. With signs before it, or without, the reference leads to the
survivor as it was when the run ended; no other text leads to any of them.

## Main definitions

* `RunSummary.Accounts` — a summary that balances
* `signed` — a reference with signs before it

## Main results

* `RunSummary.accounts_ofResults` — the summary of a run balances
* `executeSurvivor_signed`, `code_executeSurvivor_of_unknown` — which references lead to a survivor
* `summary_balances_and_survivors_are_found`
* `reference_with_two_signs_is_found` — more than one sign is allowed
-/

namespace MutationTesting

namespace RunSummary

variable {results : List MutantResult}

/-! ### Counts -/

theorem numbered_eq_mapIdx (n : Nat) (results : List MutantResult) :
    numbered n results = results.mapIdx fun i r => .ofResult (n + i) r := by
  induction results generalizing n with
  | nil => rfl
  | cons r rest ih =>
    rw [numbered, List.mapIdx_cons, ih]
    simp only [Nat.add_zero, Nat.add_assoc, Nat.add_comm 1]

/-- The survivors are numbered from one on. -/
theorem survivorsOf_eq (results : List MutantResult) :
    survivorsOf results =
      (results.filter isSurvivor).mapIdx fun i r => .ofResult (i + 1) r := by
  rw [survivorsOf, numbered_eq_mapIdx]
  simp only [Nat.add_comm 1]

theorem count_cons (r : MutantResult) (rest : List MutantResult) (status : MutantStatus) :
    count (r :: rest) status = count rest status + if r.status = status then 1 else 0 := by
  by_cases h : r.status = status <;> simp [count, h]

/-- Every mutant has one of the statuses. -/
theorem length_eq_counts (results : List MutantResult) :
    results.length = count results .killed + count results .survived + count results .noCoverage +
      count results .timeout + count results .unviable := by
  induction results with
  | nil => rfl
  | cons r rest ih =>
    rw [List.length_cons]
    simp only [count_cons]
    cases r.status <;> simp <;> omega

theorem length_survivorsOf (results : List MutantResult) :
    (survivorsOf results).length = (results.filter isSurvivor).length :=
  length_numbered ..

/-- The survivors are the mutants of two statuses. -/
theorem length_filter_isSurvivor (results : List MutantResult) :
    (results.filter isSurvivor).length = count results .survived + count results .noCoverage := by
  induction results with
  | nil => rfl
  | cons r rest ih =>
    rw [List.filter_cons, isSurvivor]
    simp only [count_cons]
    cases r.status <;> simp <;> omega

/-- A summary that balances, and tells of the results of a run. -/
structure Accounts (s : RunSummary) (results : List MutantResult) : Prop where
  killed : s.killed = count results .killed
  timeout : s.timeout = count results .timeout
  unviable : s.unviable = count results .unviable
  noCoverage : s.noCoverage = count results .noCoverage
  total : s.total = results.length
  balance : s.total = s.killed + s.survived + s.timeout + s.unviable
  survived : s.survived = s.survivors.length
  noCoverage_le : s.noCoverage ≤ s.survived
  survivors : s.survivors = (results.filter isSurvivor).mapIdx fun i r => .ofResult (i + 1) r

/-- **The summary of a run balances**, whatever its score. -/
theorem accounts_ofResults (results : List MutantResult) (score : Decimal.Binary64) :
    Accounts { ofResults results with score } results where
  killed := rfl
  timeout := rfl
  unviable := rfl
  noCoverage := rfl
  total := rfl
  balance := by
    change results.length = count results .killed + (survivorsOf results).length +
      count results .timeout + count results .unviable
    rw [length_survivorsOf, length_filter_isSurvivor, length_eq_counts,
      Nat.add_assoc (count results .killed)]
  survived := rfl
  noCoverage_le := by
    change count results .noCoverage ≤ (survivorsOf results).length
    rw [length_survivorsOf, length_filter_isSurvivor]
    exact Nat.le_add_left ..
  survivors := survivorsOf_eq results

/-! ### References -/

theorem getElem?_survivorsOf (i : Nat) :
    (survivorsOf results)[i]? =
      ((results.filter isSurvivor)[i]?).map (Survivor.ofResult (i + 1)) := by
  rw [survivorsOf_eq, List.getElem?_mapIdx]

/-- The reference of a survivor is its number. -/
theorem ref_of_getElem? {i : Nat} {m : Survivor} (h : (survivorsOf results)[i]? = some m) :
    m.ref = "m" ++ toString (i + 1) := by
  rw [getElem?_survivorsOf] at h
  obtain ⟨r, -, rfl⟩ := Option.map_eq_some_iff.mp h
  rfl

/-- Different numbers are different references. -/
theorem ref_inj {i j : Nat} (h : "m" ++ toString (i + 1) = "m" ++ toString (j + 1)) : i = j := by
  have hrepr : (i + 1).repr = (j + 1).repr := (String.append_right_inj "m").mp h
  have hread : ∀ n : Nat, Nat.ofDigitChars 10 n.repr.toList 0 = n := fun n => by
    rw [Nat.toList_repr, Nat.ofDigitChars_toDigits (by decide) (by decide)]
  exact Nat.succ_inj.mp ((hread (i + 1)).symm.trans (hrepr ▸ hread (j + 1)))

/-- A reference leads to the survivor of its number. -/
theorem find?_survivorsOf {i : Nat} {m : Survivor} (h : (survivorsOf results)[i]? = some m) :
    (survivorsOf results).find? (·.ref == "m" ++ toString (i + 1)) = some m := by
  obtain ⟨hi, hm⟩ := List.getElem?_eq_some_iff.mp h
  rw [List.find?_eq_some_iff_getElem]
  refine ⟨beq_iff_eq.mpr (ref_of_getElem? h), i, hi, hm, fun j hj => ?_⟩
  have href := ref_of_getElem? (List.getElem?_eq_getElem (hj.trans hi))
  rw [href, Bool.not_eq_true', beq_eq_false_iff_ne]
  exact fun heq => absurd (ref_inj heq) hj.ne

/-- No other text leads to a survivor. -/
theorem find?_survivorsOf_eq_none {ref : String}
    (h : ∀ i < (survivorsOf results).length, ref ≠ "m" ++ toString (i + 1)) :
    (survivorsOf results).find? (·.ref == ref) = none := by
  rw [List.find?_eq_none]
  intro m hm heq
  obtain ⟨i, hi, hmi⟩ := List.mem_iff_getElem.mp hm
  have href := ref_of_getElem? (List.getElem?_eq_some_iff.mpr ⟨hi, hmi⟩)
  exact h i hi (href ▸ (beq_iff_eq.mp heq).symm)

end RunSummary

namespace CommandLine

open RunSummary

variable {σ : Type} {host : Host σ} {results : List MutantResult} {s : σ} {summary : RunSummary}

/-- A reference with signs before it. -/
def signed (signs : Nat) (ref : String) : String := String.ofList (List.replicate signs '@') ++ ref

theorem toList_signed (signs : Nat) (ref : String) :
    (signed signs ref).toList = List.replicate signs '@' ++ ref.toList := by
  rw [signed, String.toList_append, String.toList_ofList]

/-- Signs before a reference are not part of it. -/
theorem dropWhile_signed (signs n : Nat) :
    (signed signs ("m" ++ toString n)).toList.dropWhile (· = '@') = ("m" ++ toString n).toList := by
  have hsigns : ∀ c ∈ List.replicate signs '@', decide (c = '@') = true := fun c hc =>
    decide_eq_true (List.eq_of_mem_replicate hc)
  rw [toList_signed, List.dropWhile_append_of_pos hsigns, String.toList_append]
  rfl

/-- Every text is what is left of it behind the signs at its beginning. -/
theorem exists_eq_signed (asked : String) :
    ∃ signs, asked = signed signs (String.ofList (asked.toList.dropWhile (· = '@'))) := by
  refine ⟨(asked.toList.takeWhile (· = '@')).length, String.toList_injective ?_⟩
  have hsigns : asked.toList.takeWhile (· = '@') =
      List.replicate (asked.toList.takeWhile (· = '@')).length '@' :=
    List.eq_replicate_of_mem fun c hc => by simpa using List.mem_takeWhile_imp hc
  rw [toList_signed, String.toList_ofList, ← hsigns, List.takeWhile_append_dropWhile]

section

variable {score : Decimal.Binary64}
  (hload : loadSummary? host s = some { ofResults results with score })

include hload

/-- **A reference leads to its survivor**, with any number of signs before it. -/
theorem executeSurvivor_signed {i : Nat} {m : Survivor} (h : (survivorsOf results)[i]? = some m)
    (signs : Nat) (json : Bool) :
    executeSurvivor host s (signed signs ("m" ++ toString (i + 1))) json =
      .say 0 (if json then [m.toJson.compact] else survivorLines m) := by
  have hfind : (ofResults results).survivors.find? (·.ref == "m" ++ toString (i + 1)) = some m :=
    find?_survivorsOf h
  rw [executeSurvivor, dropWhile_signed, String.ofList_toList, hload]
  dsimp only
  rw [hfind]

/-- **Any other text is refused.** -/
theorem code_executeSurvivor_of_unknown {asked : String}
    (h : ∀ i < (survivorsOf results).length, ∀ signs,
      asked ≠ signed signs ("m" ++ toString (i + 1))) (json : Bool) :
    (executeSurvivor host s asked json).code = 2 := by
  obtain ⟨signs, hasked⟩ := exists_eq_signed asked
  have hfind : (ofResults results).survivors.find?
      (·.ref == String.ofList (asked.toList.dropWhile (· = '@'))) = none :=
    find?_survivorsOf_eq_none fun i hi href => h i hi signs (href ▸ hasked)
  rw [executeSurvivor, hload]
  dsimp only
  rw [hfind]
  rfl

end

/-! ### The end of a run -/

/-- What is loaded after the summary of a run was kept. -/
theorem exists_loadSummary?_saveSummary
    (hwrite : ∀ content s,
      host.read (host.write summaryFile content s).2 summaryFile = some content)
    (hlength : results.length < 2 ^ 64)
    (hduration : (results.map (·.durationMs)).sum < 2 ^ 64) (s : σ) :
    ∃ score, loadSummary? host (saveSummary host (ofResults results) s).2 =
      some { ofResults results with score } := by
  have hsum : (ofResults results).durationMs < 2 ^ 64 := by
    rwa [List.sum_eq_foldl_nat] at hduration
  obtain ⟨score, -, hreread⟩ := exists_reread_ofResults hlength
  have hsaved : host.read (saveSummary host (ofResults results) s).2 summaryFile =
      some (Utf8.encode (ofResults results).toText) := hwrite _ s
  refine ⟨score, ?_⟩
  rw [loadSummary?, hsaved, Option.bind_some, ofBytes?_toText (fits_ofResults hlength hsum),
    hreread]

/-- The exit code of a run says whether anything has survived. -/
theorem code_runReply_ofResults (r : RunRequest) (results : List MutantResult) :
    (runReply r (.ofResults results)).code = if results.any isSurvivor then 1 else 0 := by
  have hsurvived : (ofResults results).survived = (results.filter isSurvivor).length :=
    length_survivorsOf results
  rw [code_runReply, hsurvived]
  simp [List.length_pos_iff, List.filter_eq_nil_iff]

/-- **The summary of a run balances, and its survivors are found.** What is loaded after a run that
came to its end counts every mutant once, and lists the survivors with the numbers from one on, each
as the run left it. The number of a survivor behind an `m` is a reference to it, with any number of
signs before it, and any other text is refused. The run itself says by its exit code whether there
is a survivor. -/
theorem summary_balances_and_survivors_are_found {host : Host σ}
    (hwrite : ∀ content s,
      host.read (host.write summaryFile content s).2 summaryFile = some content)
    {results : List MutantResult} (hlength : results.length < 2 ^ 64)
    (hduration : (results.map (·.durationMs)).sum < 2 ^ 64) (r : RunRequest) (s : σ) :
    let s' := (saveSummary host (ofResults results) s).2
    (∃ summary, loadSummary? host s' = some summary ∧ summary.Accounts results) ∧
      (∀ i x, (results.filter isSurvivor)[i]? = some x → ∀ signs json,
        executeSurvivor host s' (signed signs ("m" ++ toString (i + 1))) json =
          let m := Survivor.ofResult (i + 1) x
          .say 0 (if json then [m.toJson.compact] else survivorLines m)) ∧
      (∀ asked, (∀ i < (results.filter isSurvivor).length, ∀ signs,
          asked ≠ signed signs ("m" ++ toString (i + 1))) →
        ∀ json, (executeSurvivor host s' asked json).code = 2) ∧
      (∀ policies targets coverage s₀,
        runMutations host r.device policies targets coverage r.options s₀ = (.ok results, s) →
          finishRun host r policies targets coverage s₀ = (runReply r (.ofResults results), s')) ∧
      (runReply r (.ofResults results)).code = if results.any isSurvivor then 1 else 0 := by
  intro s'
  obtain ⟨score, hload⟩ := exists_loadSummary?_saveSummary hwrite hlength hduration s
  refine ⟨⟨_, hload, accounts_ofResults results score⟩, fun i x hx signs json => ?_,
    fun asked hasked json => ?_, fun policies targets coverage s₀ htested => ?_,
    code_runReply_ofResults r results⟩
  · have hm : (survivorsOf results)[i]? = some (.ofResult (i + 1) x) := by
      rw [getElem?_survivorsOf, hx, Option.map_some]
    exact executeSurvivor_signed hload hm signs json
  · rw [← length_survivorsOf] at hasked
    exact code_executeSurvivor_of_unknown hload hasked json
  · rw [finishRun, bind_of_eq htested]
    rfl

/-- Of five mutants, one with each status, the fourth one is the second survivor. -/
theorem second_survivor_is_found :
    let result (index : Nat) (status : MutantStatus) : MutantResult :=
      ⟨⟨⟨"https_to_http", "a/B", "m()V", index, "https"⟩, 7, none⟩, status, 5, "- a\n+ b\n", none⟩
    let results := [result 0 .killed, result 1 .survived, result 2 .timeout, result 3 .noCoverage,
      result 4 .unviable]
    let host := Host.keeping summaryFile [] fun _ => ⟨.exited 0, false, [], [], 5⟩
    let r : RunRequest := ⟨⟨"c".toList, "p.test", "p", "r", ["t"], "adb"⟩, "t".toList, [], none,
      ⟨none, 1000⟩, true, false, none⟩
    let s' := (saveSummary host (ofResults results) none).2
    (∀ content s, host.read (host.write summaryFile content s).2 summaryFile = some content) ∧
      results.length < 2 ^ 64 ∧ (results.map (·.durationMs)).sum < 2 ^ 64 ∧
      (∃ summary, loadSummary? host s' = some summary ∧ summary.total = 5 ∧ summary.survived = 2) ∧
      executeSurvivor host s' "@m2" false = ⟨0, ["@m2 a/B:7 [https_to_http] (no coverage)",
        "  a.B.m()V", "  https", "", "  - a", "  + b"], []⟩ ∧
      (executeSurvivor host s' "m3" false).code = 2 ∧
      (runReply r (ofResults results)).code = 1 := by
  intro result results host r s'
  have hwrite : ∀ content s,
      host.read (host.write summaryFile content s).2 summaryFile = some content :=
    Host.keepsFile_keeping.write
  have hlength : results.length < 2 ^ 64 := by decide
  have hduration : (results.map (·.durationMs)).sum < 2 ^ 64 := by decide
  obtain ⟨⟨summary, hload, haccounts⟩, hfound, hrefused, -, hcode⟩ :=
    summary_balances_and_survivors_are_found hwrite hlength hduration r none
  refine ⟨hwrite, hlength, hduration, ⟨summary, hload, haccounts.total, ?_⟩, ?_, ?_, hcode⟩
  · rw [haccounts.survived, haccounts.survivors]
    rfl
  · have hasked : signed 1 ("m" ++ toString (1 + 1)) = "@m2" := by decide
    have hreply := hfound 1 (result 3 .noCoverage) rfl 1 false
    rw [hasked] at hreply
    rw [hreply]
    decide
  · refine hrefused "m3" (fun i hi signs hasked => ?_) false
    have hleft := congrArg (fun t : String => t.toList.dropWhile (· = '@')) hasked
    rw [dropWhile_signed] at hleft
    match i, hi with
    | 0, _ => exact absurd hleft (by decide)
    | 1, _ => exact absurd hleft (by decide)

/-- **A reference with two signs before it is found**, and the survivor is the only one. -/
theorem reference_with_two_signs_is_found :
    let results : List MutantResult :=
      [⟨⟨⟨"https_to_http", "a/B", "m()V", 0, "https"⟩, 7, none⟩, .survived, 5, "", none⟩]
    let host := Host.keeping summaryFile [] fun _ => ⟨.exited 0, false, [], [], 5⟩
    let s' := (saveSummary host (ofResults results) none).2
    (∀ i < results.length,
        "@@m1" ≠ "m" ++ toString (i + 1) ∧ "@@m1" ≠ "@" ++ ("m" ++ toString (i + 1))) ∧
      (executeSurvivor host s' "@@m1" false).code = 0 := by
  intro results host s'
  obtain ⟨score, hload⟩ := exists_loadSummary?_saveSummary Host.keepsFile_keeping.write
    (by decide : results.length < 2 ^ 64) (by decide) none
  have hasked : signed 2 ("m" ++ toString (0 + 1)) = "@@m1" := by decide
  have hreply := executeSurvivor_signed hload (rfl : (survivorsOf results)[0]? = some _) 2 false
  rw [hasked] at hreply
  exact ⟨by decide, congrArg Reply.code hreply⟩

end CommandLine

end MutationTesting
