import Mathlib.Data.List.DropRight
import MutationTesting.Proofs.Device.Occurrence
/-!
# Transcripts are read back

A transcript in which a test starts and ends is read for what it says, whatever lines stand around
the two status codes. Numbers are written in decimal and read back; no blank and no end of a line is
part of one, so trimming leaves them alone.

## Main results

* `TestReport.statusCode?_toString` — a status code is read back
* `TestReport.transcript_is_read_back`
-/

namespace MutationTesting

namespace TestReport

open Decimal

/-! ### Status codes -/

theorem digitValue?_of_isDigit {c : Char} (h : c.isDigit = true) :
    digitValue? c = some (c.toNat - '0'.toNat) := by
  rw [Char.isDigit, Bool.and_eq_true, decide_eq_true_eq, decide_eq_true_eq] at h
  exact if_pos (by simpa [Char.le_def] using h)

theorem number?_of_isDigit {ds : List Char} (hne : ds ≠ []) (h : ∀ d ∈ ds, d.isDigit = true) :
    signedNumber?.number? ds = some (Nat.ofDigitChars 10 ds 0) := by
  have hfold : ∀ (ds : List Char) (n : Nat), (∀ d ∈ ds, d.isDigit = true) →
      ds.foldl (fun n c => n.bind fun n => (digitValue? c).map (n * 10 + ·)) (some n) =
        some (Nat.ofDigitChars 10 ds n) := by
    intro ds
    induction ds with
    | nil => exact fun n _ => rfl
    | cons d ds ih =>
      intro n h
      obtain ⟨hd, hds⟩ := List.forall_mem_cons.mp h
      rw [List.foldl_cons, Option.bind_some, digitValue?_of_isDigit hd, Option.map_some,
        ih _ hds, Nat.ofDigitChars_cons, Nat.mul_comm]
  rw [signedNumber?.number?, if_neg (by simpa using hne), hfold ds 0 h]

theorem isDigit_of_mem_repr {n : Nat} {c : Char} (h : c ∈ n.repr.toList) : c.isDigit = true := by
  rw [Nat.toList_repr] at h
  exact Nat.isDigit_of_mem_toDigits (by decide) (by decide) h

theorem repr_ne_nil (n : Nat) : n.repr.toList ≠ [] := by
  rw [Nat.toList_repr]
  exact Nat.toDigits_ne_nil

theorem number?_repr (n : Nat) : signedNumber?.number? n.repr.toList = some n := by
  rw [number?_of_isDigit (repr_ne_nil n) fun _ => isDigit_of_mem_repr, Nat.toList_repr,
    Nat.ofDigitChars_toDigits (by decide) (by decide)]

/-- A whole number is written with digits, behind a minus if it is negative. -/
theorem toList_toString (n : Int) :
    (toString n).toList = if n < 0 then '-' :: n.natAbs.repr.toList else n.natAbs.repr.toList := by
  cases n with
  | ofNat n => rfl
  | negSucc n => simp [toString, Int.repr, Int.natAbs]

theorem signedNumber?_toString (n : Int) : signedNumber? (toString n).toList = some n := by
  rw [toList_toString]
  split
  · next hnegative =>
    rw [signedNumber?, number?_repr]
    have habs : -(n.natAbs : Int) = n := by omega
    exact congrArg some habs
  · next hnonneg =>
    have habs : (n.natAbs : Int) = n := by omega
    obtain ⟨c, ds, hds⟩ := List.exists_cons_of_ne_nil (repr_ne_nil n.natAbs)
    have hdigit : c.isDigit = true := isDigit_of_mem_repr (hds ▸ List.mem_cons_self ..)
    have hsign : ∀ mark rest, c :: ds = mark :: rest → mark.isDigit = true := by
      rintro mark rest h
      rwa [← (List.cons.inj h).1]
    have hread := number?_repr n.natAbs
    rw [hds] at hread ⊢
    rw [signedNumber?.eq_3 _ (fun rest h => nomatch hsign _ rest h)
      (fun rest h => nomatch hsign _ rest h), hread]
    exact congrArg some habs

/-- **A status code is read back.** -/
theorem statusCode?_toString (code : Int32) :
    statusCode? (toString code.toInt).toList = some code.toInt := by
  have hlow := code.le_toInt
  have hhigh := code.toInt_lt
  rw [statusCode?, signedNumber?_toString, Option.bind_some, if_pos]
  exact ⟨by simpa using hlow, by simpa using hhigh⟩

/-- A number is written with characters between the minus and the nine. -/
theorem toNat_of_mem_toString {n : Int} {c : Char} (h : c ∈ (toString n).toList) :
    45 ≤ c.toNat ∧ c.toNat ≤ 57 := by
  have hdigit : ∀ n : Nat, c ∈ n.repr.toList → 45 ≤ c.toNat ∧ c.toNat ≤ 57 := by
    intro n hc
    have hc := isDigit_of_mem_repr hc
    simp only [Char.isDigit, Bool.and_eq_true, decide_eq_true_eq, ge_iff_le, UInt32.le_iff_toNat_le]
      at hc
    exact ⟨Nat.le_trans (by decide) hc.1, hc.2⟩
  rw [toList_toString] at h
  split at h
  · obtain rfl | h := List.mem_cons.mp h
    · decide
    · exact hdigit _ h
  · exact hdigit _ h

/-! ### Values -/

/-- Nothing is trimmed from a text without blanks. -/
theorem trim_eq_self {text : List Char} (h : ∀ c ∈ text, isBlank c = false) : trim text = text := by
  have hstart : text.dropWhile isBlank = text := by
    cases text with
    | nil => rfl
    | cons c text => rw [List.dropWhile_cons_of_neg (by simp [h c])]
  have hend : text.reverse.dropWhile isBlank = text.reverse := by
    cases hreverse : text.reverse with
    | nil => rfl
    | cons c rest =>
      have hc : c ∈ text := List.mem_reverse.mp (hreverse ▸ List.mem_cons_self ..)
      rw [List.dropWhile_cons_of_neg (by simp [h c hc])]
  rw [trim, hstart, trimEnd, hend, List.reverse_reverse]

/-- A text without ends of lines before the rest of a line. -/
theorem restOfLine_append {text : List Char} (h : ∀ c ∈ text, c ≠ '\n' ∧ c ≠ '\r')
    (rest : List Char) : restOfLine (text ++ rest) = text ++ restOfLine rest := by
  have hend : text.reverse.dropWhile (· == '\r') = text.reverse := by
    cases hreverse : text.reverse with
    | nil => rfl
    | cons c rest =>
      have hc : c ∈ text := List.mem_reverse.mp (hreverse ▸ List.mem_cons_self ..)
      rw [List.dropWhile_cons_of_neg (by simpa using (h c hc).2)]
  rw [restOfLine, List.takeWhile_append_of_pos fun c hc => bne_iff_ne.mpr (h c hc).1,
    List.reverse_append, List.dropWhile_append, hend]
  split
  · next hempty =>
    rw [restOfLine, List.isEmpty_iff.mp hempty, List.reverse_reverse, List.reverse_nil,
      List.append_nil]
  · rw [List.reverse_append, List.reverse_reverse, restOfLine]

theorem isPrefix_restOfLine (rest : List Char) : restOfLine rest <+: rest :=
  (List.rdropWhile_prefix _ _).trans (List.takeWhile_prefix _)

/-- A key that stands on the rest of a line stands directly behind. -/
theorem stripStart?_restOfLine {key : List Char} (h : ∀ c ∈ key, c ≠ '\n' ∧ c ≠ '\r')
    (rest : List Char) :
    stripStart? key (restOfLine rest) = (stripStart? key rest).map restOfLine := by
  cases hstrip : stripStart? key rest with
  | none =>
    rw [stripStart?_eq_none_iff] at hstrip
    exact stripStart?_eq_none_iff.mpr fun hkey => hstrip (hkey.trans (isPrefix_restOfLine rest))
  | some behind =>
    rw [stripStart?_eq_some_iff.mp hstrip, restOfLine_append h, stripStart?_append]
    rfl

/-- **A status code is read from its line.** -/
theorem statusCode?_line (code : Int32) (behind : List Char) :
    statusCode? (trim (restOfLine ((toString code.toInt).toList ++ '\n' :: behind))) =
      some code.toInt := by
  have hplain : ∀ c ∈ (toString code.toInt).toList,
      (c ≠ '\n' ∧ c ≠ '\r') ∧ isBlank c = false := by
    intro c hc
    have hrange := toNat_of_mem_toString hc
    refine ⟨⟨?_, ?_⟩, ?_⟩
    · rintro rfl
      exact absurd hrange (by decide)
    · rintro rfl
      exact absurd hrange (by decide)
    · simp only [isBlank, Bool.or_eq_false_iff, Bool.and_eq_false_iff, decide_eq_false_iff_not]
      omega
  have hline : restOfLine ('\n' :: behind) = [] := rfl
  rw [restOfLine_append fun c hc => (hplain c hc).1, hline, List.append_nil,
    trim_eq_self fun c hc => (hplain c hc).2, statusCode?_toString]

/-! ### Transcripts -/

/-- Only a number of the line of a status code could hold a marker that the word before it does
not, and no number does. -/
theorem not_infix_codeLine (code : Int32) :
    ¬ failedMarker.toList <:+: (codeMarker ++ toString code.toInt).toList := by
  intro hinfix
  have hmem : 'F' ∈ (codeMarker ++ toString code.toInt).toList := hinfix.subset (by decide)
  rw [String.toList_append] at hmem
  obtain hmem | hmem := List.mem_append.mp hmem
  · exact absurd hmem (by decide)
  · exact absurd (toNat_of_mem_toString hmem) (by decide)

/-- The first path in a text, without the blanks around it. -/
theorem coveragePath?_eq (text : List Char) :
    coveragePath? text = (occurrences coverageKey.toList text).head?.bind fun rest =>
      if trim (restOfLine rest) = [] then none
      else some (String.ofList (trim (restOfLine rest))) := by
  rw [coveragePath?, after?_eq_head? (by decide)]
  simp only [List.isEmpty_iff]

/-- A transcript of a test run from its start on. -/
theorem ofRun_of_lines {pre mid : List String} (post : List String) (code : Int32)
    (hcodes : ∀ line ∈ pre ++ mid, ¬ codeMarker.toList <:+: line.toList) :
    let ending := mid ++ [codeMarker ++ toString code.toInt] ++ post
    ofRun (ofLines (pre ++ [startMarker] ++ ending)).toList =
      ofCode code.toInt (coveragePath? ('\n' :: (ofLines ending).toList)) := by
  intro ending
  obtain ⟨hpre, hmid⟩ := List.forall_mem_append.mp hcodes
  have hstart : after? startMarker.toList (ofLines (pre ++ [startMarker] ++ ending)).toList =
      some ('\n' :: (ofLines ending).toList) := by
    rw [List.append_assoc, toList_ofLines_append,
      after?_ofLines_append (by decide) (by decide), List.singleton_append, toList_ofLines_cons,
      after?_append (by decide)]
    intro line hline hinfix
    have hcode : codeMarker.toList <:+: startMarker.toList := by decide
    exact hpre line hline (hcode.trans hinfix)
  have hcode : after? codeMarker.toList ('\n' :: (ofLines ending).toList) =
      some ((toString code.toInt).toList ++ '\n' :: (ofLines post).toList) := by
    have hending : ending = mid ++ ((codeMarker ++ toString code.toInt) :: post) :=
      List.append_assoc ..
    rw [after?_cons_of_notMem (by decide) (by decide), hending, toList_ofLines_append,
      after?_ofLines_append (by decide) (by decide) hmid, toList_ofLines_cons,
      String.toList_append, List.append_assoc, after?_append (by decide)]
  rw [ofRun, hstart]
  dsimp only
  rw [hcode]
  dsimp only
  rw [statusCode?_line]

/-- The cause of a failure is the first error among the first status values, if there is one. -/
theorem ofTranscript_of_failed {text : String} (h : failedMarker.toList <:+: text.toList) :
    ofTranscript text = notExecuted
      ((((occurrences statusMarker.toList text.toList).take statusLimit).findSome? fun rest =>
        (stripStart? errorKey.toList rest).map (String.ofList <| restOfLine ·)).getD
          "<cause unknown>") := by
  have hsome : after? failedMarker.toList text.toList ≠ none := by
    rw [Ne, after?_eq_none_iff (by decide), not_not]
    exact h
  obtain ⟨behind, hbehind⟩ := Option.ne_none_iff_exists'.mp hsome
  have hcause : ∀ found : List (List Char),
      (found.findSome? fun rest => stripStart? errorKey.toList (restOfLine rest)).map String.ofList =
        found.findSome? fun rest =>
          (stripStart? errorKey.toList rest).map (String.ofList <| restOfLine ·) := by
    intro found
    induction found with
    | nil => rfl
    | cons rest found ih =>
      -- by way of `all`: a quantifier over characters might be decided by going through all of them
      have hall : errorKey.toList.all (fun c => c != '\n' && c != '\r') = true := by decide
      have hplain : ∀ c ∈ errorKey.toList, c ≠ '\n' ∧ c ≠ '\r' := by simpa using hall
      rw [List.findSome?_cons, List.findSome?_cons, stripStart?_restOfLine hplain]
      cases stripStart? errorKey.toList rest with
      | none => exact ih
      | some cause => rfl
  simp only [ofTranscript, hbehind, errorCause?_eq]
  rw [← hcause]
  cases List.findSome? _ (List.take _ _) <;> rfl

/-- Zero is the code of a test that passed, and only negative ones are those of one that failed. -/
theorem ofCode_eq (code : Int) (path : Option String) :
    ofCode code path = ⟨true, decide (code = 0), if 0 < code then
      some ("Unexpected test result value: " ++ toString code) else none, path⟩ := by
  rw [ofCode]
  split
  · next hzero =>
    subst hzero
    rfl
  · next hne =>
    rw [decide_eq_false hne]
    split
    · next hlt => rw [if_neg (by omega)]
    · next hle => rw [if_pos (by omega)]

/-- **A transcript is read back.** Lines that hold neither a status code nor the marker of a failure
may stand before and after the start of a test, and any lines without that marker behind its status
code. A transcript with the marker of a failure is one of a test that was not run. -/
theorem transcript_is_read_back (pre mid post : List String) (code : Int32)
    (hcodes : ∀ line ∈ pre ++ mid, ¬ codeMarker.toList <:+: line.toList)
    (hfailed : ∀ line ∈ pre ++ mid ++ post, ¬ failedMarker.toList <:+: line.toList) :
    let ending := mid ++ [codeMarker ++ toString code.toInt] ++ post
    let r := ofTranscript (ofLines (pre ++ [startMarker] ++ ending))
    (r.executed = true ∧ r.passed = decide (code = 0) ∧
      r.failureCause = (if 0 < code.toInt then
        some ("Unexpected test result value: " ++ toString code.toInt) else none) ∧
      r.coveragePath =
        (occurrences coverageKey.toList (ofLines ending).toList).head?.bind fun rest =>
          if trim (restOfLine rest) = [] then none
          else some (String.ofList (trim (restOfLine rest)))) ∧
    ∀ text : String, failedMarker.toList <:+: text.toList →
      ofTranscript text = ⟨false, false, some
        ((((occurrences statusMarker.toList text.toList).take 4096).findSome? fun rest =>
          (stripStart? errorKey.toList rest).map (String.ofList <| restOfLine ·)).getD
            "<cause unknown>"), none⟩ := by
  intro ending r
  refine ⟨?_, fun text hoccurs => ofTranscript_of_failed hoccurs⟩
  have hnone : after? failedMarker.toList
      (ofLines (pre ++ [startMarker] ++ ending)).toList = none := by
    have hlines : ∀ line ∈ pre ++ [startMarker] ++ ending,
        ¬ failedMarker.toList <:+: line.toList := by
      simp only [ending, List.forall_mem_append, List.forall_mem_singleton] at hfailed ⊢
      obtain ⟨⟨hpre, hmid⟩, hpost⟩ := hfailed
      exact ⟨⟨hpre, by decide⟩, ⟨hmid, not_infix_codeLine code⟩, hpost⟩
    have hsearch := after?_ofLines_append (by decide) (by decide) hlines []
    rwa [List.append_nil] at hsearch
  have hread : r = ofCode code.toInt (coveragePath? ('\n' :: (ofLines ending).toList)) := by
    rw [← ofRun_of_lines post code hcodes]
    simp only [r, ofTranscript, hnone]
    rfl
  rw [coveragePath?_eq, occurrences_newline (by decide) (by decide)] at hread
  have hzero : code.toInt = 0 ↔ code = 0 := Int32.toInt_inj (y := 0)
  rw [hread, ofCode_eq]
  exact ⟨rfl, decide_eq_decide.mpr hzero, rfl, rfl⟩

/-- A test that fails in an unusual way behind lines with carriage returns, a path between blanks
and a second path, and a failure whose error stands in the second status value. -/
theorem transcript_with_unusual_code_is_read_back :
    let pre : List String := ["INSTRUMENTATION_STATUS: class=a.B\r"]
    let mid : List String := ["", "INSTRUMENTATION_RESULT: coverageFilePath= \t/data/c.ec \r"]
    let post : List String := ["coverageFilePath=d", "INSTRUMENTATION_STATUS_CODE: -1"]
    let failure : String := .join ["INSTRUMENTATION_STATUS: id=Error=no\n",
      "INSTRUMENTATION_STATUS: Error=Unable to find\r\r\n", "INSTRUMENTATION_FAILED: a/b"]
    (∀ line ∈ pre ++ mid, ¬ codeMarker.toList <:+: line.toList) ∧
      (∀ line ∈ pre ++ mid ++ post, ¬ failedMarker.toList <:+: line.toList) ∧
      ofTranscript (ofLines (pre ++ [startMarker] ++
        (mid ++ [codeMarker ++ toString (12 : Int32).toInt] ++ post))) =
          ⟨true, false, some "Unexpected test result value: 12", some "/data/c.ec"⟩ ∧
      ofTranscript failure = ⟨false, false, some "Unable to find", none⟩ := by
  intro pre mid post failure
  have hcodes : ∀ line ∈ pre ++ mid, ¬ codeMarker.toList <:+: line.toList := by
    decide +kernel
  have hfailed : ∀ line ∈ pre ++ mid ++ post, ¬ failedMarker.toList <:+: line.toList := by
    decide +kernel
  obtain ⟨⟨hexecuted, hpassed, hcause, hpath⟩, hfailure⟩ :=
    transcript_is_read_back pre mid post 12 hcodes hfailed
  refine ⟨hcodes, hfailed, ?_, ?_⟩
  · replace hpassed := hpassed.trans (c := false) (by decide)
    replace hcause := hcause.trans (c := some "Unexpected test result value: 12") (by decide)
    replace hpath := hpath.trans (c := some "/data/c.ec") (by decide +kernel)
    generalize ofTranscript _ = r at hexecuted hpassed hcause hpath ⊢
    obtain ⟨executed, passed, cause, path⟩ := r
    subst hexecuted hpassed hcause hpath
    rfl
  · rw [hfailure failure (by decide +kernel)]
    decide +kernel

end TestReport

end MutationTesting
