import MutationTesting.Proofs.Device.Transcript
/-!
# The start of a test

A test starts at the first status code whose line begins with the digit one, and the status code
after that is its result. The digit may be followed by others: a status code of ten starts a test as
well, and where there is one before that of the test the result is that of another status code.

## Main definitions

* `TestReport.lineValue` — the value behind a marker
* `TestReport.FollowsFirst` — the status code after the first one of a kind

## Main results

* `TestReport.executed_ofRun_iff`
* `TestReport.test_starts_at_leading_one`
* `TestReport.code_ten_starts_test` — a test without a status code of one
-/

namespace MutationTesting

namespace TestReport

variable {kind kind' : List Char → Prop} {text start next : List Char}

/-- The value behind a marker: what stands there up to the end of the line, without the blanks
around it. -/
def lineValue (rest : List Char) : List Char := trim (restOfLine rest)

/-- Among the status codes of a text one comes directly after the first one of a kind. A status code
is given by what stands behind its marker. -/
def FollowsFirst (kind : List Char → Prop) (text start next : List Char) : Prop :=
  ∃ earlier later, occurrences codeMarker.toList text = earlier ++ start :: next :: later ∧
    kind start ∧ ∀ rest ∈ earlier, ¬ kind rest

theorem FollowsFirst.congr (h : FollowsFirst kind text start next)
    (hkind : ∀ rest ∈ occurrences codeMarker.toList text, kind rest ↔ kind' rest) :
    FollowsFirst kind' text start next := by
  obtain ⟨earlier, later, hcodes, hstart, hearlier⟩ := h
  rw [hcodes] at hkind
  refine ⟨earlier, later, hcodes, (hkind start (by simp)).mp hstart, fun rest hrest hkind' => ?_⟩
  exact hearlier rest hrest ((hkind rest (List.mem_append_left _ hrest)).mpr hkind')

/-! ### The status codes of a run -/

theorem neverOverlaps_codeMarker : NeverOverlaps codeMarker.toList :=
  neverOverlaps_of_getLast (by decide) (by decide)

theorem stripStart?_one_eq_none_iff {rest : List Char} :
    stripStart? ['1'] rest = none ↔ rest.head? ≠ some '1' := by
  rw [stripStart?_eq_none_iff]
  cases rest <;> simp [eq_comm]

/-- **Where a test starts**: behind the first status code that begins with the digit one. -/
theorem after?_startMarker_eq_some_iff {started : List Char} :
    after? startMarker.toList text = some started ↔
      ∃ earlier later, occurrences codeMarker.toList text = earlier ++ ('1' :: started) :: later ∧
        ∀ rest ∈ earlier, rest.head? ≠ some '1' := by
  have hmarker : startMarker.toList = codeMarker.toList ++ ['1'] := by decide
  rw [after?_eq_head? (by decide), hmarker, occurrences_append_marker, List.head?_filterMap,
    List.findSome?_eq_some_iff]
  simp only [stripStart?_eq_some_iff, stripStart?_one_eq_none_iff, List.singleton_append]
  constructor
  · rintro ⟨earlier, _, later, hcodes, rfl, hearlier⟩
    exact ⟨earlier, later, hcodes, hearlier⟩
  · rintro ⟨earlier, later, hcodes, hearlier⟩
    exact ⟨earlier, _, later, hcodes, rfl, hearlier⟩

/-- The status code after the start of a test is the next one of the text. -/
theorem after?_codeMarker_of_split {started : List Char} {earlier later : List (List Char)}
    (hcodes : occurrences codeMarker.toList text = earlier ++ ('1' :: started) :: later) :
    after? codeMarker.toList started = later.head? := by
  have hlater := neverOverlaps_codeMarker.occurrences_of_append (by decide) hcodes
  rw [occurrences_cons_of_notMem (by decide) (by decide)] at hlater
  rw [after?_eq_head? (by decide), hlater]

/-- **The report of a run** whose test has a status code behind its start. -/
theorem ofRun_of_followsFirst (h : FollowsFirst (·.head? = some '1') text start next) :
    ofRun text = match statusCode? (lineValue next) with
      | some code => ofCode code (coveragePath? start)
      | none => notExecuted
          ("Could not parse result string (" ++ String.ofList (lineValue next) ++ ")") := by
  obtain ⟨earlier, later, hcodes, hstart, hearlier⟩ := h
  obtain ⟨started, rfl⟩ := List.head?_eq_some_iff.mp hstart
  have hpath : coveragePath? ('1' :: started) = coveragePath? started := by
    rw [coveragePath?, coveragePath?, after?_cons_of_notMem (by decide) (by decide)]
  rw [ofRun, after?_startMarker_eq_some_iff.mpr ⟨earlier, _, hcodes, hearlier⟩, hpath]
  dsimp only
  rw [after?_codeMarker_of_split hcodes]
  rfl

/-- **When a run has a test**: there is a status code that begins with the digit one, and the one
after it is a number. -/
theorem executed_ofRun_iff :
    (ofRun text).executed = true ↔ ∃ start next code,
      FollowsFirst (·.head? = some '1') text start next ∧
        statusCode? (lineValue next) = some code := by
  constructor
  · intro h
    rw [ofRun] at h
    split at h
    · cases h
    · next started hstarted =>
      obtain ⟨earlier, later, hcodes, hearlier⟩ := after?_startMarker_eq_some_iff.mp hstarted
      rw [after?_codeMarker_of_split hcodes] at h
      cases later with
      | nil => cases h
      | cons next later =>
        dsimp only [List.head?_cons] at h
        split at h
        · next code hcode =>
          exact ⟨_, next, code, ⟨earlier, later, hcodes, rfl, hearlier⟩, hcode⟩
        · cases h
  · rintro ⟨start, next, code, hfollows, hcode⟩
    rw [ofRun_of_followsFirst hfollows, hcode]
    dsimp only
    rw [ofCode_eq]

/-! ### Transcripts -/

/-- A test that was run was run in a transcript without the marker of a failure. -/
theorem ofTranscript_of_executed {text : String} (h : (ofTranscript text).executed = true) :
    ofTranscript text = ofRun text.toList := by
  rw [ofTranscript] at h ⊢
  split at h
  · cases h
  · rfl

/-- A text that does not begin with a blank is only trimmed at its end. -/
theorem trim_cons {c : Char} (h : isBlank c = false) (text : List Char) :
    trim (c :: text) = c :: trimEnd text := by
  have hblank : ¬ isBlank c = true := by simp [h]
  rw [trim, List.dropWhile_cons_of_neg hblank, trimEnd, trimEnd, List.reverse_cons,
    List.dropWhile_append]
  split
  · next hempty =>
    rw [List.dropWhile_cons_of_neg hblank, List.isEmpty_iff.mp hempty]
    rfl
  · rw [List.reverse_append]
    rfl

/-- A status code that begins with the digit one has a value that does. -/
theorem prefix_lineValue {rest : List Char} (h : rest.head? = some '1') :
    ['1'] <+: lineValue rest := by
  obtain ⟨rest, rfl⟩ := List.head?_eq_some_iff.mp h
  have hplain : ∀ c ∈ ['1'], c ≠ '\n' ∧ c ≠ '\r' := by simp
  have hline := restOfLine_append hplain rest
  rw [List.singleton_append, List.singleton_append] at hline
  rw [lineValue, hline, trim_cons (by decide)]
  exact List.prefix_append ['1'] _

/-- **A test starts at a leading one.** If a test was run, the first status code that begins with
the digit one stands for its start, and what is reported is the status code after it. The value of
the first one begins with a one; it is one in every transcript in which only a one begins so. -/
theorem test_starts_at_leading_one {text : String} (h : (ofTranscript text).executed = true) :
    ∃ start next code, FollowsFirst (·.head? = some '1') text.toList start next ∧
      ['1'] <+: lineValue start ∧ statusCode? (lineValue next) = some code ∧
      ofTranscript text = ofCode code (coveragePath? start) ∧
      ((∀ rest ∈ occurrences codeMarker.toList text.toList,
          rest.head? = some '1' ↔ lineValue rest = ['1']) →
        FollowsFirst (lineValue · = ['1']) text.toList start next) := by
  have hrun := ofTranscript_of_executed h
  rw [hrun, executed_ofRun_iff] at h
  obtain ⟨start, next, code, hfollows, hcode⟩ := h
  refine ⟨start, next, code, hfollows, ?_, hcode, ?_, hfollows.congr⟩
  · obtain ⟨-, -, -, hstart, -⟩ := hfollows
    exact prefix_lineValue hstart
  · rw [hrun, ofRun_of_followsFirst hfollows, hcode]

/-- A test that starts behind the status code of another one, and fails. -/
theorem test_starts_at_code_one :
    let text : String := .join ["INSTRUMENTATION_STATUS_CODE: 0\r\n",
      "INSTRUMENTATION_STATUS_CODE: 1\r\n", "INSTRUMENTATION_STATUS_CODE: -2"]
    (ofTranscript text).executed = true ∧
      (∃ start next code, FollowsFirst (lineValue · = ['1']) text.toList start next ∧
        statusCode? (lineValue next) = some code ∧
        ofTranscript text = ofCode code (coveragePath? start)) ∧
      ofTranscript text = ofCode (-2) none := by
  intro text
  have hexecuted : (ofTranscript text).executed = true := by decide
  have hones : ∀ rest ∈ occurrences codeMarker.toList text.toList,
      rest.head? = some '1' ↔ lineValue rest = ['1'] := by decide
  obtain ⟨start, next, code, -, -, hcode, hreport, hfollows⟩ :=
    test_starts_at_leading_one hexecuted
  exact ⟨hexecuted, ⟨start, next, code, hfollows hones, hcode, hreport⟩, by decide⟩

/-- **A status code of ten starts a test**, although there is none of one. -/
theorem code_ten_starts_test :
    let text : String :=
      "INSTRUMENTATION_STATUS_CODE: 10\n" ++ "INSTRUMENTATION_STATUS_CODE: 0\n"
    ofTranscript text = ⟨true, true, none, none⟩ ∧
      ∀ rest ∈ occurrences codeMarker.toList text.toList, lineValue rest ≠ ['1'] := by
  decide

end TestReport

end MutationTesting
