import Mathlib.Data.List.Infix
import MutationTesting.Device.Transcript
/-!
# Occurrences of markers

A transcript is searched for markers from its beginning, and each search goes on where the last one
ended. The places where a marker occurs at all are those where a rest of the text begins with it.
A search finds the first of them, and searches that follow one another find them all if the marker
cannot overlap itself. A marker never reaches over the end of a line, so a text is searched line by
line.

## Main definitions

* `TestReport.occurrences` — what follows each occurrence of a marker
* `TestReport.NeverOverlaps` — a marker that cannot overlap itself
* `TestReport.ofLines` — the text of lines that each end with a line feed

## Main results

* `TestReport.after?_eq_head?` — a search finds the first occurrence
* `TestReport.NeverOverlaps.occurrences_of_after?` — the next search finds the next one
* `TestReport.occurrences_append_marker` — a longer marker occurs where what it adds follows
* `TestReport.occurrences_line_append`, `TestReport.after?_ofLines_append` — searching line by line
* `TestReport.errorCause?_eq`
-/

namespace MutationTesting

namespace TestReport

variable {marker text rest : List Char}

/-- What follows each occurrence of a marker, in order. -/
def occurrences (marker text : List Char) : List (List Char) :=
  text.tails.filterMap (stripStart? marker)

/-! ### One place -/

theorem stripStart?_append (marker rest : List Char) :
    stripStart? marker (marker ++ rest) = some rest := by
  rw [stripStart?, if_pos (List.isPrefixOf_iff_prefix.mpr (List.prefix_append ..)),
    List.drop_left]

theorem stripStart?_eq_some_iff : stripStart? marker text = some rest ↔ text = marker ++ rest := by
  constructor
  · intro h
    rw [stripStart?] at h
    split at h
    · next hprefix =>
      obtain rfl := Option.some.inj h
      exact List.prefix_iff_eq_append.mp (List.isPrefixOf_iff_prefix.mp hprefix) |>.symm
    · cases h
  · rintro rfl
    exact stripStart?_append marker rest

theorem stripStart?_eq_none_iff : stripStart? marker text = none ↔ ¬ marker <+: text := by
  rw [Option.eq_none_iff_forall_ne_some]
  simp only [ne_eq, stripStart?_eq_some_iff]
  constructor
  · rintro h ⟨rest, rfl⟩
    exact h rest rfl
  · rintro h rest rfl
    exact h (List.prefix_append ..)

theorem stripStart?_cons_cons (c d : Char) (marker rest : List Char) :
    stripStart? (c :: marker) (d :: rest) = if c = d then stripStart? marker rest else none := by
  by_cases hd : c = d <;> simp [stripStart?, hd]

/-- A marker does not begin with a character that it does not contain. -/
theorem stripStart?_cons_of_notMem {c : Char} (hc : c ∉ marker) (hne : marker ≠ [])
    (text : List Char) : stripStart? marker (c :: text) = none := by
  obtain ⟨d, marker, rfl⟩ := List.exists_cons_of_ne_nil hne
  rw [stripStart?_cons_cons, if_neg (List.ne_of_not_mem_cons hc).symm]

/-- A marker in two parts is stripped part by part. -/
theorem stripStart?_append_marker (first last text : List Char) :
    stripStart? (first ++ last) text = (stripStart? first text).bind (stripStart? last) := by
  ext rest
  simp only [Option.bind_eq_some_iff, stripStart?_eq_some_iff, List.append_assoc]
  constructor
  · rintro rfl
    exact ⟨_, rfl, rfl⟩
  · rintro ⟨_, rfl, rfl⟩
    rfl

/-! ### All places -/

theorem occurrences_cons (marker : List Char) (c : Char) (text : List Char) :
    occurrences marker (c :: text) =
      (stripStart? marker (c :: text)).toList ++ occurrences marker text := by
  rw [occurrences, List.tails, List.filterMap_cons]
  cases stripStart? marker (c :: text) <;> rfl

/-- No occurrence begins with a character that the marker does not contain. -/
theorem occurrences_cons_of_notMem {c : Char} (hc : c ∉ marker) (hne : marker ≠ [])
    (text : List Char) : occurrences marker (c :: text) = occurrences marker text := by
  rw [occurrences_cons, stripStart?_cons_of_notMem hc hne]
  rfl

/-- The occurrences of a marker in two parts are those of its first part that the second one
follows directly. -/
theorem occurrences_append_marker (first last text : List Char) :
    occurrences (first ++ last) text = (occurrences first text).filterMap (stripStart? last) := by
  rw [occurrences, occurrences, List.filterMap_filterMap]
  exact List.filterMap_congr fun rest _ => stripStart?_append_marker first last rest

/-- **A search finds the first occurrence.** -/
theorem after?_eq_head? (hmarker : marker ≠ []) (text : List Char) :
    after? marker text = (occurrences marker text).head? := by
  induction text with
  | nil =>
    obtain ⟨c, marker, rfl⟩ := List.exists_cons_of_ne_nil hmarker
    rfl
  | cons c text ih =>
    rw [after?, occurrences_cons]
    cases stripStart? marker (c :: text) with
    | none => exact ih
    | some found => rfl

/-- A search goes past a character that the marker does not contain. -/
theorem after?_cons_of_notMem {c : Char} (hc : c ∉ marker) (hne : marker ≠ []) (text : List Char) :
    after? marker (c :: text) = after? marker text := by
  rw [after?_eq_head? hne, after?_eq_head? hne, occurrences_cons_of_notMem hc hne]

theorem occurrences_eq_nil_iff (hmarker : marker ≠ []) :
    occurrences marker text = [] ↔ ¬ marker <:+: text := by
  induction text with
  | nil =>
    obtain ⟨c, marker, rfl⟩ := List.exists_cons_of_ne_nil hmarker
    simp [occurrences, stripStart?]
  | cons c text ih =>
    rw [occurrences_cons, List.append_eq_nil_iff, ih, List.infix_cons_iff, not_or,
      Option.toList_eq_nil_iff, stripStart?_eq_none_iff]

theorem after?_eq_none_iff (hmarker : marker ≠ []) :
    after? marker text = none ↔ ¬ marker <:+: text := by
  rw [after?_eq_head? hmarker, List.head?_eq_none_iff, occurrences_eq_nil_iff hmarker]

/-! ### One search after the other -/

/-- Of two occurrences of the marker the later one does not begin within the earlier one. -/
def NeverOverlaps (marker : List Char) : Prop :=
  ∀ border, border <:+ marker → border <+: marker → border = [] ∨ border = marker

/-- A marker whose last character does not come before never overlaps itself. -/
theorem neverOverlaps_of_getLast (hne : marker ≠ []) (h : marker.getLast hne ∉ marker.dropLast) :
    NeverOverlaps marker := by
  intro border hsuffix hprefix
  obtain rfl | ⟨first, d, rfl⟩ := border.eq_nil_or_concat'
  · exact .inl rfl
  · rw [← List.dropLast_append_getLast hne] at hprefix
    obtain hwhole | hwithin := List.prefix_concat_iff.mp hprefix
    · exact .inr (hwhole.trans (List.dropLast_append_getLast hne))
    · have hlast : d = marker.getLast hne := by
        rw [← hsuffix.getLast (by simp), List.getLast_append_singleton]
      exact absurd (hwithin.subset (List.mem_append_right _ (List.mem_singleton.mpr hlast.symm))) h

theorem neverOverlaps_statusMarker : NeverOverlaps statusMarker.toList :=
  neverOverlaps_of_getLast (by decide) (by decide)

/-- What begins within an occurrence of a marker that never overlaps is no occurrence. -/
theorem NeverOverlaps.occurrences_append (h : NeverOverlaps marker) {part : List Char}
    (hpart : part <:+ marker) (hproper : part ≠ marker) (rest : List Char) :
    occurrences marker (part ++ rest) = occurrences marker rest := by
  induction part with
  | nil => rfl
  | cons c part ih =>
    have hnone : stripStart? marker (c :: (part ++ rest)) = none := by
      rw [stripStart?_eq_none_iff]
      intro hprefix
      -- the shorter one of the part and the marker begins the other
      obtain hmarker | hwithin := List.prefix_or_prefix_of_prefix hprefix
        (List.prefix_append (c :: part) rest)
      · exact hproper (hpart.eq_of_length_le hmarker.length_le)
      · obtain hnil | hwhole := h _ hpart hwithin
        · cases hnil
        · exact hproper hwhole
    have htail : part <:+ marker := (List.suffix_cons c part).trans hpart
    have hshorter : part ≠ marker := by
      rintro rfl
      exact absurd hpart.length_le (by simp)
    rw [List.cons_append, occurrences_cons, hnone, ih htail hshorter]
    rfl

/-- **The next search finds the next occurrence.** -/
theorem NeverOverlaps.occurrences_of_after? (h : NeverOverlaps marker) (hmarker : marker ≠ [])
    (hrest : after? marker text = some rest) :
    occurrences marker text = rest :: occurrences marker rest := by
  induction text with
  | nil =>
    obtain ⟨c, marker, rfl⟩ := List.exists_cons_of_ne_nil hmarker
    cases hrest
  | cons c text ih =>
    rw [after?] at hrest
    rw [occurrences_cons]
    cases hfound : stripStart? marker (c :: text) with
    | none =>
      rw [hfound] at hrest
      exact ih hrest
    | some found =>
      rw [hfound] at hrest
      obtain rfl := Option.some.inj hrest
      obtain ⟨d, marker, rfl⟩ := List.exists_cons_of_ne_nil hmarker
      obtain ⟨rfl, rfl⟩ := List.cons.inj (stripStart?_eq_some_iff.mp hfound)
      exact congrArg (found :: ·) (h.occurrences_append (List.suffix_cons ..) (by simp) found)

/-- The occurrences after one of them are those in what follows it. -/
theorem NeverOverlaps.occurrences_of_append (h : NeverOverlaps marker) (hmarker : marker ≠ [])
    {earlier later : List (List Char)} (hsplit : occurrences marker text = earlier ++ rest :: later) :
    later = occurrences marker rest := by
  induction earlier generalizing text with
  | nil =>
    have hfirst : after? marker text = some rest := by
      rw [after?_eq_head? hmarker, hsplit]
      rfl
    rw [h.occurrences_of_after? hmarker hfirst] at hsplit
    exact (List.cons.inj hsplit).2.symm
  | cons first earlier ih =>
    have hfirst : after? marker text = some first := by
      rw [after?_eq_head? hmarker, hsplit]
      rfl
    rw [h.occurrences_of_after? hmarker hfirst] at hsplit
    exact ih (List.cons.inj hsplit).2

/-- **The first error** among the first status values is the one that the searches find. -/
theorem errorCause?_eq (limit : Nat) (text : List Char) :
    errorCause? limit text = ((occurrences statusMarker.toList text).take limit).findSome?
      fun rest => stripStart? errorKey.toList (restOfLine rest) := by
  induction limit generalizing text with
  | zero => rfl
  | succ limit ih =>
    have hmarker : statusMarker.toList ≠ [] := by decide
    rw [errorCause?]
    cases hfound : after? statusMarker.toList text with
    | none =>
      rw [after?_eq_none_iff hmarker, ← occurrences_eq_nil_iff hmarker] at hfound
      rw [hfound]
      rfl
    | some rest =>
      rw [neverOverlaps_statusMarker.occurrences_of_after? hmarker hfound, List.take_succ_cons,
        List.findSome?_cons]
      dsimp only
      rw [ih]
      cases stripStart? errorKey.toList (restOfLine rest) <;> rfl

/-! ### Line by line -/

theorem stripStart?_line_append (hmarker : '\n' ∉ marker) (line behind : List Char) :
    stripStart? marker (line ++ '\n' :: behind) =
      (stripStart? marker line).map (· ++ '\n' :: behind) := by
  induction marker generalizing line with
  | nil => simp [stripStart?]
  | cons c marker ih =>
    obtain ⟨hc, hmarker⟩ := List.ne_and_not_mem_of_not_mem_cons hmarker
    cases line with
    | nil =>
      rw [List.nil_append, stripStart?_cons_cons, if_neg hc.symm]
      rfl
    | cons d line =>
      rw [List.cons_append, stripStart?_cons_cons, stripStart?_cons_cons, ih hmarker]
      split <;> rfl

/-- The occurrences in a text are those in its first line and those in the other lines. -/
theorem occurrences_line_append (hmarker : '\n' ∉ marker) (hne : marker ≠ [])
    (line behind : List Char) :
    occurrences marker (line ++ '\n' :: behind) =
      (occurrences marker line).map (· ++ '\n' :: behind) ++ occurrences marker behind := by
  induction line with
  | nil =>
    obtain ⟨c, marker, rfl⟩ := List.exists_cons_of_ne_nil hne
    exact occurrences_cons_of_notMem hmarker hne behind
  | cons c line ih =>
    have hstrip := stripStart?_line_append hmarker (c :: line) behind
    rw [List.cons_append] at hstrip ⊢
    rw [occurrences_cons, occurrences_cons, hstrip, ih]
    cases stripStart? marker (c :: line) <;> rfl

/-- The end of a line has no part in the occurrences of a marker. -/
theorem occurrences_newline (hmarker : '\n' ∉ marker) (hne : marker ≠ []) (text : List Char) :
    occurrences marker ('\n' :: text) = occurrences marker text :=
  occurrences_cons_of_notMem hmarker hne text

/-- Lines, each ended by a line feed. -/
def ofLines (lines : List String) : String := .join (lines.map (· ++ "\n"))

theorem toList_ofLines_cons (line : String) (lines : List String) :
    (ofLines (line :: lines)).toList = line.toList ++ '\n' :: (ofLines lines).toList := by
  simp [ofLines]

theorem toList_ofLines_append (lines lines' : List String) :
    (ofLines (lines ++ lines')).toList = (ofLines lines).toList ++ (ofLines lines').toList := by
  simp [ofLines]

/-- Lines in which a marker does not occur have no part in its occurrences. -/
theorem occurrences_ofLines_append (hmarker : '\n' ∉ marker) (hne : marker ≠ [])
    {lines : List String} (h : ∀ line ∈ lines, ¬ marker <:+: line.toList) (behind : List Char) :
    occurrences marker ((ofLines lines).toList ++ behind) = occurrences marker behind := by
  induction lines with
  | nil => rfl
  | cons line lines ih =>
    obtain ⟨hline, hlines⟩ := List.forall_mem_cons.mp h
    rw [toList_ofLines_cons, List.append_assoc, List.cons_append,
      occurrences_line_append hmarker hne, (occurrences_eq_nil_iff hne).mpr hline, ih hlines]
    rfl

/-- A search goes past lines in which the marker does not occur. -/
theorem after?_ofLines_append (hmarker : '\n' ∉ marker) (hne : marker ≠ []) {lines : List String}
    (h : ∀ line ∈ lines, ¬ marker <:+: line.toList) (behind : List Char) :
    after? marker ((ofLines lines).toList ++ behind) = after? marker behind := by
  rw [after?_eq_head? hne, after?_eq_head? hne, occurrences_ofLines_append hmarker hne h]

/-- A marker at the beginning is found there. -/
theorem after?_append (hne : marker ≠ []) (rest : List Char) :
    after? marker (marker ++ rest) = some rest := by
  obtain ⟨c, marker, rfl⟩ := List.exists_cons_of_ne_nil hne
  rw [List.cons_append, after?, ← List.cons_append, stripStart?_append]

end TestReport

end MutationTesting
