import MutationTesting.Mutation.LineDiff
/-!
# What a line difference tells

A difference shows the lines that were deleted and inserted and hides those that were kept. It takes
both texts apart: the lines with a minus and some kept lines make up the one text, the lines with a
plus and the same kept lines the other. This holds whatever edit script a differ finds.

The lines are taken from the text of the difference, as a reader would take them. That this can be
done rests on how lines end. A line keeps its end, so a text that ends in a line feed has no line
without one. And since a marked line begins with its mark, a carriage return at the end of the line
before stays an end of its own.

## Main definitions

* `Interleave` — two lists merged into one
* `IsLine` — a line with its end
* `markedLines` — the lines of a difference with a mark

## Main results

* `exists_interleave_changedLines` — how a difference takes two texts apart
* `lineDiff_eq_empty_iff`
-/

namespace MutationTesting

/-- The third list has the items of the other two, each in their order. To delete the first list
from the third leaves the second. -/
inductive Interleave {α : Type} : List α → List α → List α → Prop where
  | nil : Interleave [] [] []
  | left {x : α} {xs ys zs : List α} (h : Interleave xs ys zs) : Interleave (x :: xs) ys (x :: zs)
  | right {y : α} {xs ys zs : List α} (h : Interleave xs ys zs) :
      Interleave xs (y :: ys) (y :: zs)

/-- Nothing to delete leaves all. -/
theorem Interleave.eq_of_nil {α : Type} {ys zs : List α} (h : Interleave [] ys zs) : ys = zs := by
  generalize hxs : ([] : List α) = xs at h
  induction h with
  | nil => rfl
  | left h ih => cases hxs
  | right h ih => rw [ih hxs]

/-- What two selections take from a list makes up what a third takes that takes all of it. -/
theorem Interleave.filterMap {α β : Type} {p q r : α → Option β}
    (h : ∀ a, p a = none ∧ q a = r a ∨ q a = none ∧ p a = r a) (l : List α) :
    Interleave (l.filterMap p) (l.filterMap q) (l.filterMap r) := by
  induction l with
  | nil => exact .nil
  | cons a l ih =>
    rw [List.filterMap_cons, List.filterMap_cons, List.filterMap_cons]
    obtain ⟨hp, hq⟩ | ⟨hq, hp⟩ := h a
    · rw [hp, hq]
      cases r a with
      | none => exact ih
      | some b => exact .right ih
    · rw [hp, hq]
      cases r a with
      | none => exact ih
      | some b => exact .left ih

/-! ### Lines -/

/-- A line with its end. -/
inductive IsLine : List Char → Prop where
  | feed : IsLine ['\n']
  | carriageReturn : IsLine ['\r']
  | both : IsLine ['\r', '\n']
  | cons {c : Char} {line : List Char} (feed : c ≠ '\n') (carriageReturn : c ≠ '\r')
      (h : IsLine line) : IsLine (c :: line)

theorem IsLine.append {content line : List Char} (h : IsLine line)
    (hcontent : ∀ c ∈ content, c ≠ '\n' ∧ c ≠ '\r') : IsLine (content ++ line) := by
  induction content with
  | nil => exact h
  | cons c content ih =>
    obtain ⟨⟨hn, hr⟩, hcontent⟩ := List.forall_mem_cons.mp hcontent
    exact .cons hn hr (ih hcontent)

theorem IsLine.getLast?_eq {line : List Char} (h : IsLine line) :
    line.getLast? = some '\n' ∨ line.getLast? = some '\r' := by
  induction h with
  | feed => exact .inl rfl
  | carriageReturn => exact .inr rfl
  | both => exact .inl rfl
  | cons hn hr h ih =>
    rw [List.getLast?_cons]
    obtain hlast | hlast := ih
    · exact .inl (by rw [hlast, Option.getD_some])
    · exact .inr (by rw [hlast, Option.getD_some])

/-- A line is split off a text, unless its end would go on. -/
theorem IsLine.splitLinesFrom_append {line rest : List Char} (h : IsLine line)
    (hrest : rest.head? ≠ some '\n') (start : List Char) :
    splitLinesFrom start (line ++ rest) = (start.reverse ++ line) :: splitLines rest := by
  induction h generalizing start with
  | feed => simp [splitLinesFrom, splitLines]
  | carriageReturn =>
    cases rest with
    | nil => simp [splitLinesFrom, splitLines]
    | cons c rest =>
      have hc : c ≠ '\n' := fun hc => hrest (congrArg some hc)
      simp [splitLinesFrom, splitLines, hc]
  | both => simp [splitLinesFrom, splitLines]
  | cons hn hr h ih => simp [splitLinesFrom, hr, ih]

theorem flatten_splitLinesFrom (start text : List Char) :
    (splitLinesFrom start text).flatten = start.reverse ++ text := by
  fun_induction splitLinesFrom start text with
  | case1 start h => simp_all
  | case2 start h => simp
  | case3 start rest ih => simp [ih]
  | case4 start rest ih => simp [ih]
  | case5 start rest hrest ih => simp [ih]
  | case6 start c rest hn hboth hr ih => simp [ih]

/-- The lines of a text make up the text. -/
@[simp] theorem flatten_splitLines (text : List Char) : (splitLines text).flatten = text :=
  flatten_splitLinesFrom [] text

theorem isLine_of_mem_splitLinesFrom (start text : List Char)
    (hstart : ∀ c ∈ start, c ≠ '\n' ∧ c ≠ '\r')
    (hend : ∀ c ∈ (start.reverse ++ text).getLast?, c = '\n') :
    ∀ line ∈ splitLinesFrom start text, IsLine line := by
  have hlater {first rest : List Char} (hend : ∀ c ∈ (first ++ rest).getLast?, c = '\n') :
      ∀ c ∈ rest.getLast?, c = '\n' := fun c hc =>
    hend c (by simp [List.getLast?_append, Option.mem_def.mp hc])
  have hread {start stop : List Char} (hstart : ∀ c ∈ start, c ≠ '\n' ∧ c ≠ '\r')
      (hstop : IsLine stop) : IsLine (start.reverse ++ stop) :=
    hstop.append fun c hc => hstart c (List.mem_reverse.mp hc)
  fun_induction splitLinesFrom start text with
  | case1 start h => nofun
  | case2 start h =>
    -- what was read so far has no end
    cases start with
    | nil => exact absurd rfl h
    | cons c start => exact absurd (hend c (by simp)) (hstart c (List.mem_cons_self ..)).1
  | case3 start rest ih =>
    rw [List.append_cons] at hend
    rw [List.reverse_cons]
    exact List.forall_mem_cons.mpr ⟨hread hstart .feed, ih nofun (hlater hend)⟩
  | case4 start rest ih =>
    rw [List.append_cons, List.append_cons] at hend
    rw [List.reverse_cons, List.reverse_cons, List.append_assoc]
    exact List.forall_mem_cons.mpr ⟨hread hstart .both, ih nofun (hlater hend)⟩
  | case5 start rest hrest ih =>
    rw [List.append_cons] at hend
    rw [List.reverse_cons]
    exact List.forall_mem_cons.mpr ⟨hread hstart .carriageReturn, ih nofun (hlater hend)⟩
  | case6 start c rest hn hboth hr ih =>
    rw [List.append_cons, ← List.reverse_cons] at hend
    exact ih (List.forall_mem_cons.mpr ⟨⟨hn, hr⟩, hstart⟩) hend

/-- In a text that ends in a line feed every line has its end. -/
theorem isLine_of_mem_splitLines {text line : List Char} (hend : text.getLast? = some '\n')
    (h : line ∈ splitLines text) : IsLine line :=
  isLine_of_mem_splitLinesFrom [] text nofun (by simp [hend]) line h

/-! ### The sides of a script -/

namespace Edit

variable {α : Type}

/-- What the step leaves where it is. -/
def kept? : Edit α → Option α
  | .keep x => some x
  | .delete _ => none
  | .insert _ => none

/-- What the step takes out. -/
def deleted? : Edit α → Option α
  | .keep _ => none
  | .delete x => some x
  | .insert _ => none

/-- What the step puts in. -/
def inserted? : Edit α → Option α
  | .keep _ => none
  | .delete _ => none
  | .insert x => some x

/-- The old side is what is deleted and what is kept. -/
theorem interleave_before (script : List (Edit α)) :
    Interleave (script.filterMap deleted?) (script.filterMap kept?) (script.filterMap before?) :=
  .filterMap (fun e => by cases e <;> simp [deleted?, kept?, before?]) script

/-- The new side is what is inserted and what is kept. -/
theorem interleave_after (script : List (Edit α)) :
    Interleave (script.filterMap inserted?) (script.filterMap kept?) (script.filterMap after?) :=
  .filterMap (fun e => by cases e <;> simp [inserted?, kept?, after?]) script

end Edit

/-! ### Reading a difference -/

/-- What comes after the given mark in a line. -/
def unmarked? (mark : Char) : List Char → Option (List Char)
  | first :: ' ' :: line => if first = mark then some line else none
  | _ => none

/-- The lines of a difference with the given mark, without it. -/
def markedLines (mark : Char) (diff : List Char) : List (List Char) :=
  (splitLines diff).filterMap (unmarked? mark)

/-- The characters that mark lines. -/
def MarksLines (c : Char) : Prop := c = '-' ∨ c = '+'

theorem markedLine_of_isLine {line : List Char} (h : IsLine line) (mark : Char) :
    markedLine mark line = mark :: ' ' :: line := by
  rw [markedLine, if_pos h.getLast?_eq, List.append_nil]

theorem IsLine.markedLine {line : List Char} (h : IsLine line) {mark : Char}
    (hmark : MarksLines mark) : IsLine (markedLine mark line) := by
  rw [markedLine_of_isLine h]
  obtain rfl | rfl := hmark
  · exact .cons (by decide) (by decide) (.cons (by decide) (by decide) h)
  · exact .cons (by decide) (by decide) (.cons (by decide) (by decide) h)

section

variable {first mark : Char} {lines : List (List Char)} {rest : List Char}

/-- No line feed comes where a marked line may begin. -/
theorem head?_flatMap_markedLine (hfirst : MarksLines first) (hrest : rest.head? ≠ some '\n') :
    (lines.flatMap (markedLine first) ++ rest).head? ≠ some '\n' := by
  cases lines with
  | nil => exact hrest
  | cons line lines => obtain rfl | rfl := hfirst <;> simp [markedLine]

/-- A marked line is read back. -/
theorem markedLines_append {line : List Char} (hfirst : MarksLines first) (hline : IsLine line)
    (hrest : rest.head? ≠ some '\n') :
    markedLines mark (markedLine first line ++ rest) =
      (if first = mark then [line] else []) ++ markedLines mark rest := by
  have hsplit := (hline.markedLine hfirst).splitLinesFrom_append hrest []
  have hunmarked : unmarked? mark (markedLine first line) =
      if first = mark then some line else none := by
    rw [markedLine_of_isLine hline]
    rfl
  rw [markedLines, splitLines, hsplit, List.reverse_nil, List.nil_append, List.filterMap_cons,
    hunmarked]
  by_cases h : first = mark
  · rw [if_pos h, if_pos h]
    rfl
  · rw [if_neg h, if_neg h]
    rfl

theorem markedLines_flatMap_append (hfirst : MarksLines first)
    (hlines : ∀ line ∈ lines, IsLine line) (hrest : rest.head? ≠ some '\n') :
    markedLines mark (lines.flatMap (markedLine first) ++ rest) =
      (if first = mark then lines else []) ++ markedLines mark rest := by
  induction lines with
  | nil => simp
  | cons line lines ih =>
    obtain ⟨hline, hlines⟩ := List.forall_mem_cons.mp hlines
    rw [List.flatMap_cons, List.append_assoc,
      markedLines_append hfirst hline (head?_flatMap_markedLine hfirst hrest), ih hlines]
    split <;> rfl

end

section

variable {deleted inserted : List (List Char)} {script : List (Edit (List Char))}

/-- The lines of a run of changes, those that are deleted first. -/
theorem markedLines_run (mark : Char) (hdeleted : ∀ line ∈ deleted, IsLine line)
    (hinserted : ∀ line ∈ inserted, IsLine line) {rest : List Char}
    (hrest : rest.head? ≠ some '\n') :
    markedLines mark (deleted.reverse.flatMap (markedLine '-') ++
        inserted.reverse.flatMap (markedLine '+') ++ rest) =
      (if '-' = mark then deleted.reverse else []) ++
        ((if '+' = mark then inserted.reverse else []) ++ markedLines mark rest) := by
  have hplus : (inserted.reverse.flatMap (markedLine '+') ++ rest).head? ≠ some '\n' :=
    head?_flatMap_markedLine (.inr rfl) hrest
  rw [List.append_assoc, markedLines_flatMap_append (.inl rfl) (by simpa using hdeleted) hplus,
    markedLines_flatMap_append (.inr rfl) (by simpa using hinserted) hrest]

theorem head?_changedLines (deleted inserted : List (List Char))
    (script : List (Edit (List Char))) :
    (changedLines deleted inserted script).head? ≠ some '\n' := by
  fun_induction changedLines deleted inserted script with
  | case1 deleted inserted =>
    have hnil : ([] : List Char).head? ≠ some '\n' := nofun
    have hplus : (inserted.reverse.flatMap (markedLine '+') ++ []).head? ≠ some '\n' :=
      head?_flatMap_markedLine (.inr rfl) hnil
    rw [List.append_nil] at hplus
    exact head?_flatMap_markedLine (.inl rfl) hplus
  | case2 deleted inserted line rest ih =>
    rw [List.append_assoc]
    exact head?_flatMap_markedLine (.inl rfl) (head?_flatMap_markedLine (.inr rfl) ih)
  | case3 deleted inserted line rest ih => exact ih
  | case4 deleted inserted line rest ih => exact ih

/-- The lines with a minus are those that the script deletes, the lines with a plus those that it
inserts. -/
theorem markedLines_changedLines (hdeleted : ∀ line ∈ deleted, IsLine line)
    (hinserted : ∀ line ∈ inserted, IsLine line)
    (hbefore : ∀ line ∈ script.filterMap Edit.before?, IsLine line)
    (hafter : ∀ line ∈ script.filterMap Edit.after?, IsLine line) :
    markedLines '-' (changedLines deleted inserted script) =
        deleted.reverse ++ script.filterMap Edit.deleted? ∧
      markedLines '+' (changedLines deleted inserted script) =
        inserted.reverse ++ script.filterMap Edit.inserted? := by
  -- a kept line ends the run that is being read, any other line belongs to it
  fun_induction changedLines deleted inserted script with
  | case1 deleted inserted =>
    have hnil : ([] : List Char).head? ≠ some '\n' := nofun
    have hrun mark := markedLines_run mark hdeleted hinserted hnil
    simp only [List.append_nil] at hrun
    exact ⟨hrun '-', hrun '+'⟩
  | case2 deleted inserted line rest ih =>
    obtain ⟨-, hbefore⟩ := List.forall_mem_cons.mp hbefore
    obtain ⟨-, hafter⟩ := List.forall_mem_cons.mp hafter
    obtain ⟨hminus, hplus⟩ := ih nofun nofun hbefore hafter
    have hrun mark := markedLines_run mark hdeleted hinserted (head?_changedLines [] [] rest)
    constructor
    · rw [hrun, hminus]
      rfl
    · rw [hrun, hplus]
      rfl
  | case3 deleted inserted line rest ih =>
    obtain ⟨hline, hbefore⟩ := List.forall_mem_cons.mp hbefore
    obtain ⟨hminus, hplus⟩ :=
      ih (List.forall_mem_cons.mpr ⟨hline, hdeleted⟩) hinserted hbefore hafter
    rw [hminus, hplus, List.reverse_cons, List.append_assoc]
    exact ⟨rfl, rfl⟩
  | case4 deleted inserted line rest ih =>
    obtain ⟨hline, hafter⟩ := List.forall_mem_cons.mp hafter
    obtain ⟨hminus, hplus⟩ :=
      ih hdeleted (List.forall_mem_cons.mpr ⟨hline, hinserted⟩) hbefore hafter
    rw [hminus, hplus, List.reverse_cons, List.append_assoc]
    exact ⟨rfl, rfl⟩

end

/-- **A difference takes two texts apart**: the lines with a minus and the lines that are kept make
up the old one, the lines with a plus and the same kept lines the new one. -/
theorem exists_interleave_changedLines {script : List (Edit (List Char))}
    {before after : List (List Char)} (hbefore : script.filterMap Edit.before? = before)
    (hafter : script.filterMap Edit.after? = after) (hlines : ∀ line ∈ before, IsLine line)
    (hlines' : ∀ line ∈ after, IsLine line) :
    ∃ kept, Interleave (markedLines '-' (changedLines [] [] script)) kept before ∧
      Interleave (markedLines '+' (changedLines [] [] script)) kept after := by
  subst hbefore hafter
  obtain ⟨hminus, hplus⟩ :=
    markedLines_changedLines (List.forall_mem_nil _) (List.forall_mem_nil _) hlines hlines'
  rw [hminus, hplus]
  exact ⟨script.filterMap Edit.kept?, Edit.interleave_before script, Edit.interleave_after script⟩

theorem changedLines_map_keep (lines : List (List Char)) :
    changedLines [] [] (lines.map .keep) = [] := by
  induction lines with
  | nil => rfl
  | cons line lines ih => exact ih

section

variable {before after : List Char} (differ : Differ (List Char))

theorem exists_interleave_lineDiff (hbefore : before.getLast? = some '\n')
    (hafter : after.getLast? = some '\n') :
    ∃ kept,
      Interleave (markedLines '-' (lineDiff before after differ).toList) kept (splitLines before) ∧
        Interleave (markedLines '+' (lineDiff before after differ).toList) kept
          (splitLines after) := by
  rw [lineDiff, String.toList_ofList]
  exact exists_interleave_changedLines (differ.before_script ..) (differ.after_script ..)
    (fun _ => isLine_of_mem_splitLines hbefore) (fun _ => isLine_of_mem_splitLines hafter)

/-- **Texts without a difference** are equal. -/
theorem lineDiff_eq_empty_iff (hbefore : before.getLast? = some '\n')
    (hafter : after.getLast? = some '\n') :
    lineDiff before after differ = "" ↔ before = after := by
  constructor
  · intro h
    obtain ⟨kept, hminus, hplus⟩ := exists_interleave_lineDiff differ hbefore hafter
    rw [h] at hminus hplus
    rw [← flatten_splitLines before, ← flatten_splitLines after, ← hminus.eq_of_nil,
      ← hplus.eq_of_nil]
  · rintro rfl
    rw [lineDiff, differ.script_self, changedLines_map_keep]

end

end MutationTesting
