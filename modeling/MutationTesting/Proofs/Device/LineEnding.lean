import MutationTesting.Proofs.Device.Transcript
/-!
# Line ends

A transcript may come with a carriage return before each line feed, and says the same then. No
marker contains an end of a line, so each is found where it was found before, and what is read
behind it goes up to the end of the line without the carriage returns there.

## Main definitions

* `TestReport.withReturns` — a text with a carriage return before each line feed

## Main results

* `TestReport.after?_withReturns` — a search in such a text
* `TestReport.restOfLine_withReturns` — the rest of a line in it
* `TestReport.line_ends_do_not_matter`
-/

namespace MutationTesting

namespace TestReport

variable {marker : List Char}

/-- The text with a carriage return before each line feed, whatever stands there already. -/
def withReturns (text : List Char) : List Char :=
  text.flatMap fun c => if c = '\n' then ['\r', '\n'] else [c]

@[simp] theorem withReturns_newline (text : List Char) :
    withReturns ('\n' :: text) = '\r' :: '\n' :: withReturns text := rfl

theorem withReturns_cons_of_ne {c : Char} (h : c ≠ '\n') (text : List Char) :
    withReturns (c :: text) = c :: withReturns text := by
  rw [withReturns, List.flatMap_cons, if_neg h]
  rfl

/-! ### Searches -/

theorem stripStart?_withReturns (hnewline : '\n' ∉ marker) (hreturn : '\r' ∉ marker)
    (text : List Char) :
    stripStart? marker (withReturns text) = (stripStart? marker text).map withReturns := by
  induction marker generalizing text with
  | nil => simp [stripStart?]
  | cons m marker ih =>
    cases text with
    | nil => rfl
    | cons c text =>
      by_cases hc : c = '\n'
      · subst hc
        have hne := List.cons_ne_nil m marker
        rw [withReturns_newline, stripStart?_cons_of_notMem hreturn hne,
          stripStart?_cons_of_notMem hnewline hne]
        rfl
      · rw [withReturns_cons_of_ne hc, stripStart?_cons_cons, stripStart?_cons_cons,
          ih (List.not_mem_of_not_mem_cons hnewline) (List.not_mem_of_not_mem_cons hreturn)]
        split <;> rfl

/-- **A search** finds the same occurrence of a marker. -/
theorem after?_withReturns (hnewline : '\n' ∉ marker) (hreturn : '\r' ∉ marker)
    (hne : marker ≠ []) (text : List Char) :
    after? marker (withReturns text) = (after? marker text).map withReturns := by
  induction text with
  | nil =>
    obtain ⟨m, marker, rfl⟩ := List.exists_cons_of_ne_nil hne
    rfl
  | cons c text ih =>
    by_cases hc : c = '\n'
    · subst hc
      rw [withReturns_newline, after?_cons_of_notMem hreturn hne,
        after?_cons_of_notMem hnewline hne, after?_cons_of_notMem hnewline hne, ih]
    · have hstrip := stripStart?_withReturns hnewline hreturn (c :: text)
      rw [withReturns_cons_of_ne hc] at hstrip ⊢
      rw [after?, after?, hstrip, ih]
      cases stripStart? marker (c :: text) <;> rfl

/-! ### Values -/

/-- A line that is ended by a line feed gets a carriage return at its end. -/
theorem takeWhile_withReturns (text : List Char) :
    ∃ ending, (∀ c ∈ ending, c = '\r') ∧
      (withReturns text).takeWhile (· != '\n') = text.takeWhile (· != '\n') ++ ending := by
  induction text with
  | nil => exact ⟨[], nofun, rfl⟩
  | cons c text ih =>
    by_cases hc : c = '\n'
    · subst hc
      exact ⟨['\r'], fun c hc => List.mem_singleton.mp hc, rfl⟩
    · obtain ⟨ending, hending, htake⟩ := ih
      refine ⟨ending, hending, ?_⟩
      have hkept : (c != '\n') = true := bne_iff_ne.mpr hc
      rw [withReturns_cons_of_ne hc, List.takeWhile_cons, List.takeWhile_cons, if_pos hkept,
        if_pos hkept, htake, List.cons_append]

/-- **The rest of a line** is the same. -/
theorem restOfLine_withReturns (text : List Char) :
    restOfLine (withReturns text) = restOfLine text := by
  obtain ⟨ending, hending, htake⟩ := takeWhile_withReturns text
  rw [restOfLine, restOfLine, htake, List.reverse_append, List.dropWhile_append_of_pos]
  intro c hc
  exact beq_iff_eq.mpr (hending c (List.mem_reverse.mp hc))

theorem errorCause?_withReturns (limit : Nat) (text : List Char) :
    errorCause? limit (withReturns text) = errorCause? limit text := by
  induction limit generalizing text with
  | zero => rfl
  | succ limit ih =>
    rw [errorCause?, errorCause?, after?_withReturns (by decide) (by decide) (by decide)]
    cases after? statusMarker.toList text with
    | none => rfl
    | some rest =>
      rw [Option.map_some]
      dsimp only
      rw [restOfLine_withReturns, ih]

theorem coveragePath?_withReturns (text : List Char) :
    coveragePath? (withReturns text) = coveragePath? text := by
  rw [coveragePath?, coveragePath?, after?_withReturns (by decide) (by decide) (by decide)]
  cases after? coverageKey.toList text with
  | none => rfl
  | some rest => simp only [Option.map_some, Option.bind_some, restOfLine_withReturns]

/-! ### Transcripts -/

theorem ofRun_withReturns (text : List Char) : ofRun (withReturns text) = ofRun text := by
  rw [ofRun, ofRun, after?_withReturns (by decide) (by decide) (by decide)]
  cases after? startMarker.toList text with
  | none => rfl
  | some started =>
    rw [Option.map_some]
    dsimp only
    rw [after?_withReturns (by decide) (by decide) (by decide), coveragePath?_withReturns]
    cases after? codeMarker.toList started with
    | none => rfl
    | some rest =>
      rw [Option.map_some]
      dsimp only
      rw [restOfLine_withReturns]

/-- **Line ends do not matter**: a transcript says the same if each of its line feeds comes behind
one more carriage return. -/
theorem line_ends_do_not_matter (text : String) :
    ofTranscript (String.ofList (withReturns text.toList)) = ofTranscript text := by
  rw [ofTranscript, ofTranscript, String.toList_ofList,
    after?_withReturns (by decide) (by decide) (by decide), errorCause?_withReturns,
    ofRun_withReturns]
  cases after? failedMarker.toList text.toList <;> rfl

end TestReport

end MutationTesting
