import MutationTesting.Proofs.Class.Artifact
import MutationTesting.Proofs.Json.Number
import MutationTesting.Run.Summary
/-!
# Summaries are read back

The summary of a run is written without spaces and read back as it was, but for its score. This is
a double, and doubles are read with two roundings: the score that is read may differ in its last
digit from the one that was written. Counts have to fit into 64 bits.

## Main definitions

* `RunSummary.Fits` — the counts fit
* `RunSummary.reread?` — what is read where a summary was written

## Main results

* `RunSummary.ofBytes?_toText`
* `RunSummary.exists_reread_ofResults` — the score of a run can be read
-/

namespace MutationTesting

open Json Decimal

/-! ### Survivors -/

namespace Survivor

theorem ofJson?_toJson (m : Survivor) : Survivor.ofJson? m.toJson.raw = some m := by
  rw [Survivor.ofJson?, Survivor.toJson, members?_object]
  · simp [Members.required]
  · exact .refl _
  · decide

theorem allNumbers_toJson (m : Survivor) : m.toJson.allNumbers Number.isReadable = true := by
  simp [toJson, allNumbers, allNumbersFields]

end Survivor

namespace RunSummary

/-! ### Summaries -/

/-- The counts of a summary fit into 64 bits. -/
structure Fits (s : RunSummary) : Prop where
  total : s.total < 2 ^ 64
  killed : s.killed < 2 ^ 64
  survived : s.survived < 2 ^ 64
  timeout : s.timeout < 2 ^ 64
  unviable : s.unviable < 2 ^ 64
  noCoverage : s.noCoverage < 2 ^ 64
  durationMs : s.durationMs < 2 ^ 64

/-- The score that is read where one was written. -/
def rereadScore? (score : Binary64) : Option Binary64 :=
  (Json.ofBinary64 score : Json String).raw.binary64?

/-- What is read where the summary was written. -/
def reread? (s : RunSummary) : Option RunSummary :=
  (rereadScore? s.score).map fun score => { s with score }

variable {s : RunSummary}

theorem ofJson?_toJson (h : s.Fits) : RunSummary.ofJson? s.toJson.raw = s.reread? := by
  have hcount : ∀ {n : Nat}, n < 2 ^ 64 → count? (.ofNat n : Json String).raw = some n :=
    fun hn => uint?_ofNat le_rfl hn
  have hsurvivors : list? Survivor.ofJson? (.list (s.survivors.map Survivor.toJson) :
      Json String).raw = some s.survivors := list?_map fun m _ => m.ofJson?_toJson
  rw [RunSummary.ofJson?, RunSummary.toJson, members?_object]
  · simp [Members.required, Members.defaulted, hcount h.total, hcount h.killed, hcount h.survived,
      hcount h.timeout, hcount h.unviable, hcount h.noCoverage, hcount h.durationMs, hsurvivors,
      reread?, rereadScore?, Option.map_eq_bind]
  · exact .refl _
  · decide

theorem allNumbers_toJson (h : s.Fits) : s.toJson.allNumbers Number.isReadable = true := by
  have hscore : (Json.ofBinary64 s.score : Json String).allNumbers Number.isReadable = true :=
    Constant.allNumbers_ofBinary Number.isReadable_ofBinary64
  have hsurvivors := allNumbers_list_map fun m (_ : m ∈ s.survivors) => m.allNumbers_toJson
  rw [toJson, allNumbers, allNumbersFields_eq_all]
  simp [hscore, hsurvivors, allNumbers_ofNat h.total, allNumbers_ofNat h.killed,
    allNumbers_ofNat h.survived, allNumbers_ofNat h.timeout, allNumbers_ofNat h.unviable,
    allNumbers_ofNat h.noCoverage, allNumbers_ofNat h.durationMs]

/-- **What is read from the text of a summary.** -/
theorem ofBytes?_toText (h : s.Fits) : RunSummary.ofBytes? (Utf8.encode s.toText) = s.reread? := by
  have hwellFormed := allNumbers_mono (fun n hn => (Bool.and_eq_true_iff.mp hn).1) _
    (allNumbers_toJson h)
  rw [RunSummary.ofBytes?, Utf8.text?_encode, Option.bind_some, RunSummary.ofText?, toText,
    ofText?_compact hwellFormed, Option.bind_some, ofJson?_toJson h]

/-! ### The score -/

/-- A finite score can be read. -/
theorem isSome_rereadScore? {score : Binary64} (h : score.isInfinite = false) :
    (rereadScore? score).isSome = true := by
  have hconstant := Constant.isSome_reread? (.double score)
  rw [Constant.reread?, Option.isSome_map, Constant.isFinite, h] at hconstant
  exact hconstant

/-- It need not be the same. -/
example : rereadScore? (scoreOf 1 11) ≠ some (scoreOf 1 11) := by decide +kernel

/-- The score of a run is finite. -/
theorem isInfinite_scoreOf {killed testable : Nat} (hkilled : killed < 2 ^ 64)
    (htestable : testable < 2 ^ 64) : (scoreOf killed testable).isInfinite = false := by
  rw [scoreOf]
  split
  · next hpos =>
    have hlimit := Number.word_lt_limit htestable
    exact Binary.isInfinite_div (Binary.isInfinite_ofNat (Number.word_lt_limit hkilled))
      (Binary.isInfinite_ofNat hlimit) (Binary.magnitude_ofNat hpos hlimit).1
  · decide +kernel

/-! ### The summary of a run -/

variable {results : List MutantResult}

theorem count_le (status : MutantStatus) : count results status ≤ results.length :=
  List.length_filter_le ..

theorem length_numbered (n : Nat) (results : List MutantResult) :
    (numbered n results).length = results.length := by
  induction results generalizing n with
  | nil => rfl
  | cons r rest ih => rw [numbered, List.length_cons, ih, List.length_cons]

/-- The counts of a run fit if its results can be counted and so can the time that they took. -/
theorem fits_ofResults (hlength : results.length < 2 ^ 64)
    (hduration : (ofResults results).durationMs < 2 ^ 64) : (ofResults results).Fits where
  total := hlength
  killed := (count_le _).trans_lt hlength
  survived := by
    have hle : (survivorsOf results).length ≤ results.length := by
      rw [survivorsOf, length_numbered]
      exact List.length_filter_le ..
    exact hle.trans_lt hlength
  timeout := (count_le _).trans_lt hlength
  unviable := (count_le _).trans_lt hlength
  noCoverage := (count_le _).trans_lt hlength
  durationMs := hduration

/-- **The summary of a run can be read**, all of it as it was but for the score. -/
theorem exists_reread_ofResults (hlength : results.length < 2 ^ 64) :
    ∃ score, rereadScore? (ofResults results).score = some score ∧
      (ofResults results).reread? = some { ofResults results with score } := by
  have hfinite : (ofResults results).score.isInfinite = false :=
    isInfinite_scoreOf ((count_le _).trans_lt hlength) ((Nat.sub_le ..).trans_lt hlength)
  obtain ⟨score, hscore⟩ := Option.isSome_iff_exists.mp (isSome_rereadScore? hfinite)
  exact ⟨score, hscore, by rw [reread?, hscore, Option.map_some]⟩

end RunSummary

end MutationTesting
