import Mathlib.Data.List.DropRight
import MutationTesting.Host.Path
/-!
# Where paths lead

Paths that take the same steps lead to the same place. A dot in front of a path is no step. What
operations on paths do to the steps is all that matters for the files that are reached; how the
paths are written does not.

## Main definitions

* `Path.steps` — the steps of a path
* `Path.componentsOf` — the components of pieces
* `Path.isName` — octets that a file can have as its name
* `Path.sibling` — the place with another name beside a place

## Main results

* `Path.components_join`, `Path.steps_join` — names below a directory
* `Path.lastName?_steps` — the name of a file is its last step
* `Path.components_withFileName`, `Path.steps_withFileName` — another name in the place of the last
  one
-/

namespace MutationTesting

/-! ### Cutting at a separator -/

section

variable {separator : Char}

theorem splitAt_ne_nil (text : List Char) : splitAt separator text ≠ [] := by
  cases text with
  | nil => nofun
  | cons c rest =>
    rw [splitAt]
    split
    · nofun
    · split <;> nofun

theorem splitAt_append_cons (first rest : List Char) :
    splitAt separator (first ++ separator :: rest) =
      splitAt separator first ++ splitAt separator rest := by
  induction first with
  | nil => simp [splitAt]
  | cons c first ih =>
    rw [List.cons_append, splitAt, splitAt, ih]
    split
    · rfl
    · cases h : splitAt separator first with
      | nil => exact absurd h (splitAt_ne_nil first)
      | cons piece pieces => rfl

theorem splitAt_of_notMem {text : List Char} (h : separator ∉ text) :
    splitAt separator text = [text] := by
  induction text with
  | nil => rfl
  | cons c rest ih =>
    obtain ⟨hc, hrest⟩ := List.ne_and_not_mem_of_not_mem_cons h
    rw [splitAt, if_neg hc.symm, ih hrest]

theorem notMem_of_mem_splitAt {text piece : List Char} (h : piece ∈ splitAt separator text) :
    separator ∉ piece := by
  induction text generalizing piece with
  | nil =>
    obtain rfl := List.mem_singleton.mp h
    exact List.not_mem_nil
  | cons c rest ih =>
    rw [splitAt] at h
    split at h
    · obtain rfl | h := List.mem_cons.mp h
      · exact List.not_mem_nil
      · exact ih h
    · next hc =>
      cases hrest : splitAt separator rest with
      | nil => exact absurd hrest (splitAt_ne_nil rest)
      | cons first pieces =>
        rw [hrest] at h ih
        obtain rfl | h := List.mem_cons.mp h
        · exact List.not_mem_cons_of_ne_of_not_mem (Ne.symm hc) (ih (List.mem_cons_self ..))
        · exact ih (List.mem_cons_of_mem _ h)

end

namespace Path

/-! ### Steps -/

/-- The steps of the pieces behind the first. -/
def laterSteps (rest : List Piece) : List Component := (rest.filter (!isVoid ·)).map stepOf

/-- The components of pieces. -/
def componentsOf : List Piece → List Component
  | [] => []
  | first :: rest => firstStep first :: laterSteps rest

/-- The steps of a path. -/
def steps (path : Path) : List Component := (components path).filter (· ≠ .current)

theorem stepOf_ne_current (piece : Piece) : stepOf piece ≠ .current := by
  rw [stepOf]
  split <;> nofun

theorem laterSteps_append (ps qs : List Piece) :
    laterSteps (ps ++ qs) = laterSteps ps ++ laterSteps qs := by
  rw [laterSteps, List.filter_append, List.map_append]
  rfl

theorem filter_laterSteps (rest : List Piece) :
    (laterSteps rest).filter (· ≠ .current) = laterSteps rest := by
  refine List.filter_eq_self.mpr fun step hstep => ?_
  obtain ⟨piece, -, rfl⟩ := List.mem_map.mp hstep
  exact decide_eq_true (stepOf_ne_current piece)

theorem components_eq (path : Path) : components path = componentsOf (pieces path) := by
  rw [components]
  cases pieces path <;> rfl

theorem componentsOf_append {ps : List Piece} (hps : ps ≠ []) (qs : List Piece) :
    componentsOf (ps ++ qs) = componentsOf ps ++ laterSteps qs := by
  obtain ⟨first, rest, rfl⟩ := List.exists_cons_of_ne_nil hps
  rw [List.cons_append, componentsOf, componentsOf, laterSteps_append, List.cons_append]

theorem pieces_of_ne_nil {path : Path} (h : path ≠ []) : pieces path = splitAt '/' path :=
  if_neg h

/-! ### Names -/

/-- A file can have the name. -/
def isName (n : Piece) : Bool :=
  n != [] && n != ['.'] && n != ['.', '.'] && n.all fun c => c != '/' && decide (c.toNat < 256)

section

variable {n : Piece}

theorem isName_iff : isName n = true ↔
    n ≠ [] ∧ n ≠ ['.'] ∧ n ≠ ['.', '.'] ∧ (∀ c ∈ n, c ≠ '/') ∧ ∀ c ∈ n, c.toNat < 256 := by
  simp only [isName, Bool.and_eq_true, bne_iff_ne, List.all_eq_true, decide_eq_true_eq, and_assoc,
    forall_and]

theorem slash_notMem_of_isName (h : isName n = true) : '/' ∉ n :=
  fun hmem => (isName_iff.mp h).2.2.2.1 _ hmem rfl

theorem stepOf_of_isName (h : isName n = true) : stepOf n = .name n :=
  if_neg (isName_iff.mp h).2.2.1

theorem firstStep_of_isName (h : isName n = true) : firstStep n = .name n := by
  obtain ⟨hempty, hdot, -⟩ := isName_iff.mp h
  rw [firstStep, if_neg hempty, if_neg hdot, stepOf_of_isName h]

theorem isVoid_of_isName (h : isName n = true) : isVoid n = false := by
  obtain ⟨hempty, hdot, -⟩ := isName_iff.mp h
  simp [isVoid, hempty, hdot]

end

theorem laterSteps_names {way : List Piece} (h : ∀ n ∈ way, isName n = true) :
    laterSteps way = way.map .name := by
  have hall : way.filter (!isVoid ·) = way :=
    List.filter_eq_self.mpr fun n hn => by rw [isVoid_of_isName (h n hn), Bool.not_false]
  rw [laterSteps, hall]
  exact List.map_congr_left fun n hn => stepOf_of_isName (h n hn)

theorem componentsOf_names {way : List Piece} (h : ∀ n ∈ way, isName n = true) :
    componentsOf way = way.map .name := by
  cases way with
  | nil => rfl
  | cons n rest =>
    rw [componentsOf, firstStep_of_isName (h n (List.mem_cons_self ..)),
      laterSteps_names fun m hm => h m (List.mem_cons_of_mem _ hm), List.map_cons]

theorem filter_names (way : List Piece) :
    (way.map Component.name).filter (· ≠ .current) = way.map .name := by
  refine List.filter_eq_self.mpr fun step hstep => ?_
  obtain ⟨n, -, rfl⟩ := List.mem_map.mp hstep
  rfl

/-! ### Paths put together -/

theorem joined_cons_cons (p q : Piece) (ps : List Piece) :
    joined (p :: q :: ps) = p ++ '/' :: joined (q :: ps) := by
  simp [joined, List.intercalate]

@[simp] theorem joined_singleton (p : Piece) : joined [p] = p := by
  simp [joined, List.intercalate]

/-- Cutting undoes joining. -/
theorem splitAt_joined {ps : List Piece} (hps : ps ≠ []) (h : ∀ p ∈ ps, '/' ∉ p) :
    splitAt '/' (joined ps) = ps := by
  induction ps with
  | nil => exact absurd rfl hps
  | cons p rest ih =>
    have hp : '/' ∉ p := h p (List.mem_cons_self ..)
    cases rest with
    | nil => rw [joined_singleton, splitAt_of_notMem hp]
    | cons q rest =>
      rw [joined_cons_cons, splitAt_append_cons, splitAt_of_notMem hp,
        ih nofun fun p hp => h p (List.mem_cons_of_mem _ hp)]
      rfl

theorem joined_ne_nil {n : Piece} {way : List Piece} (hn : n ≠ []) : joined (n :: way) ≠ [] := by
  cases way with
  | nil => rwa [joined_singleton]
  | cons q rest => simp [joined_cons_cons, hn]

theorem head?_joined {n : Piece} {way : List Piece} (hn : n ≠ []) :
    (joined (n :: way)).head? = n.head? := by
  cases way with
  | nil => rw [joined_singleton]
  | cons q rest => rw [joined_cons_cons, List.head?_append_of_ne_nil _ hn]

/-- **Names below a directory.** -/
theorem components_join (dir : Path) {way : List Piece} (hway : way ≠ [])
    (h : ∀ n ∈ way, isName n = true) :
    components (join dir (joined way)) = components dir ++ way.map .name := by
  obtain ⟨n, rest, rfl⟩ := List.exists_cons_of_ne_nil hway
  have hn : isName n = true := h n (List.mem_cons_self ..)
  have hempty : n ≠ [] := (isName_iff.mp hn).1
  have hrelative : isAbsolute (joined (n :: rest)) = false := by
    rw [isAbsolute, head?_joined hempty]
    refine decide_eq_false fun hhead => slash_notMem_of_isName hn ?_
    exact List.mem_of_mem_head? hhead
  have hpieces : splitAt '/' (joined (n :: rest)) = n :: rest :=
    splitAt_joined hway fun m hm => slash_notMem_of_isName (h m hm)
  -- a slash between two paths separates their pieces
  have hslash : ∀ first : Path, components (first ++ '/' :: joined (n :: rest)) =
      componentsOf (splitAt '/' first) ++ (n :: rest).map .name := fun first => by
    have hne : first ++ '/' :: joined (n :: rest) ≠ [] := by simp
    rw [components_eq, pieces_of_ne_nil hne, splitAt_append_cons, hpieces,
      componentsOf_append (splitAt_ne_nil first), laterSteps_names h]
  rw [join, hrelative, Bool.false_or]
  by_cases hdir : dir = []
  · subst hdir
    rw [if_pos (decide_eq_true rfl), components_eq, pieces_of_ne_nil (joined_ne_nil hempty),
      hpieces, componentsOf_names h]
    rfl
  · rw [if_neg (by simpa using hdir)]
    by_cases hlast : dir.getLast? = some '/'
    · obtain ⟨first, rfl⟩ := List.getLast?_eq_some_iff.mp hlast
      rw [if_pos hlast, List.append_assoc, List.singleton_append, hslash, components_eq,
        pieces_of_ne_nil hdir, splitAt_append_cons, componentsOf_append (splitAt_ne_nil first)]
      simp [splitAt, laterSteps, isVoid]
    · rw [if_neg hlast, hslash, components_eq, pieces_of_ne_nil hdir]

/-- Different names below a directory make different components. -/
theorem eq_of_components_join {dir : Path} {way way' : List Piece} (hway : way ≠ [])
    (hway' : way' ≠ []) (h : ∀ n ∈ way, isName n = true) (h' : ∀ n ∈ way', isName n = true)
    (heq : components (join dir (joined way)) = components (join dir (joined way'))) :
    way = way' := by
  rw [components_join dir hway h, components_join dir hway' h'] at heq
  have hinj : Function.Injective Component.name := fun _ _ => Component.name.inj
  exact List.map_injective_iff.mpr hinj (List.append_cancel_left heq)

theorem steps_join (dir : Path) {way : List Piece} (hway : way ≠ [])
    (h : ∀ n ∈ way, isName n = true) :
    steps (join dir (joined way)) = steps dir ++ way.map .name := by
  rw [steps, components_join dir hway h, List.filter_append, filter_names, steps]

/-- A name in a directory. -/
theorem components_join_name (dir : Path) {n : Piece} (h : isName n = true) :
    components (join dir n) = components dir ++ [.name n] := by
  have hway : ∀ m ∈ [n], isName m = true := List.forall_mem_singleton.mpr h
  have hcomponents := components_join dir (List.cons_ne_nil n []) hway
  rwa [joined_singleton] at hcomponents

theorem steps_join_name (dir : Path) {n : Piece} (h : isName n = true) :
    steps (join dir n) = steps dir ++ [.name n] := by
  rw [steps, components_join_name dir h, List.filter_append, steps]
  rfl

/-! ### The last step -/

/-- The last step, if it is a name. -/
def lastName? (place : List Component) : Option Piece :=
  match place.getLast? with
  | some (.name n) => some n
  | _ => none

/-- The place with another name in the place of the last one. -/
def sibling (place : List Component) (n : Piece) : List Component := place.dropLast ++ [.name n]

@[simp] theorem lastName?_concat (place : List Component) (n : Piece) :
    lastName? (place ++ [.name n]) = some n := by
  simp [lastName?]

@[simp] theorem lastName?_sibling (place : List Component) (n : Piece) :
    lastName? (sibling place n) = some n := lastName?_concat _ _

@[simp] theorem sibling_concat (place : List Component) (step : Component) (n : Piece) :
    sibling (place ++ [step]) n = place ++ [.name n] := by
  rw [sibling, List.dropLast_concat]

theorem eq_concat_of_lastName? {place : List Component} {n : Piece} (h : lastName? place = some n) :
    place = place.dropLast ++ [.name n] := by
  rw [lastName?] at h
  split at h
  · next m hlast =>
    obtain rfl := Option.some.inj h
    obtain ⟨first, rfl⟩ := List.getLast?_eq_some_iff.mp hlast
    rw [List.dropLast_concat]
  · cases h

/-- A dot in front does not change the last step. -/
theorem lastName?_filter (step : Component) {later : List Component}
    (h : later.filter (· ≠ .current) = later) :
    lastName? ((step :: later).filter (· ≠ .current)) = lastName? (step :: later) := by
  by_cases hstep : step = .current
  · subst hstep
    rw [List.filter_cons_of_neg (by simp), h]
    cases later with
    | nil => rfl
    | cons next later => rw [lastName?, lastName?, List.getLast?_cons_cons]
  · rw [List.filter_cons_of_pos (by simpa using hstep), h]

/-- **The name of a file** is the last step of its path. -/
theorem lastName?_steps (path : Path) : lastName? (steps path) = fileName? path := by
  change _ = lastName? (components path)
  rw [steps, components_eq]
  cases pieces path with
  | nil => rfl
  | cons first rest => exact lastName?_filter _ (filter_laterSteps rest)

/-! ### Another name in the place of the last one -/

theorem dropEndWhile_eq {α : Type} (p : α → Bool) (l : List α) :
    dropEndWhile p l = l.rdropWhile p := rfl

theorem laterSteps_dropEndWhile (rest : List Piece) :
    laterSteps (dropEndWhile isVoid rest) = laterSteps rest := by
  induction rest using List.reverseRecOn with
  | nil => rfl
  | append_singleton rest piece ih =>
    rw [dropEndWhile_eq] at ih ⊢
    by_cases hpiece : isVoid piece = true
    · rw [List.rdropWhile_concat_pos _ _ _ hpiece, ih, laterSteps_append]
      simp [laterSteps, hpiece]
    · rw [List.rdropWhile_concat_neg _ _ _ hpiece]

/-- Pieces that are put together to a path are found in it again. -/
theorem components_ofPieces {first : Piece} {rest : List Piece} (h : ∀ p ∈ first :: rest, '/' ∉ p) :
    components (ofPieces (first :: rest)) = componentsOf (first :: rest) := by
  by_cases hroot : first :: rest = [[]]
  · rw [hroot]
    rfl
  · have hjoined : ofPieces (first :: rest) = joined (first :: rest) := by
      rw [ofPieces]
      exact hroot
    have hpieces : splitAt '/' (joined (first :: rest)) = first :: rest := splitAt_joined nofun h
    have hne : joined (first :: rest) ≠ [] := by
      intro hempty
      rw [hempty] at hpieces
      exact hroot hpieces.symm
    rw [hjoined, components_eq, pieces_of_ne_nil hne, hpieces]

theorem parent?_of_trimmed {path : Path} {first : Piece} {rest : List Piece}
    (h : trimmed path = first :: rest) (hrest : rest ≠ []) :
    parent? path = some (ofPieces (first :: dropEndWhile isVoid rest.dropLast)) := by
  obtain ⟨next, rest, rfl⟩ := List.exists_cons_of_ne_nil hrest
  rw [parent?, h]
  cases first <;> rfl

/-- A step that is a name is written as the name. -/
theorem eq_of_stepOf {piece n : Piece} (h : stepOf piece = .name n) : piece = n := by
  rw [stepOf] at h
  split at h
  · cases h
  · exact Component.name.inj h

theorem eq_of_lastName?_concat (place : List Component) {step : Component} {n : Piece}
    (h : lastName? (place ++ [step]) = some n) : step = .name n := by
  rw [lastName?, List.getLast?_concat] at h
  split at h
  · next m hstep => rw [Option.some.inj hstep, Option.some.inj h]
  · cases h

theorem trimmed_of_pieces {path : Path} {first : Piece} {rest : List Piece}
    (h : pieces path = first :: rest) : trimmed path = first :: dropEndWhile isVoid rest := by
  rw [trimmed, h]

/-- The pieces of a path that ends in a name: the name is the first piece, or behind the first one.
Nothing that means a step comes behind it. -/
theorem exists_pieces {path : Path} {n : Piece} (h : fileName? path = some n) :
    stepOf n = .name n ∧ isVoid n = false ∧ ∃ first rest, pieces path = first :: rest ∧
      (first = n ∧ dropEndWhile isVoid rest = [] ∨
        ∃ init, dropEndWhile isVoid rest = init ++ [n]) := by
  have hlast : lastName? (components path) = some n := h
  cases hpieces : pieces path with
  | nil =>
    rw [components_eq, hpieces] at hlast
    cases hlast
  | cons first rest =>
    rw [components_eq, hpieces, componentsOf, ← laterSteps_dropEndWhile] at hlast
    obtain hrest | ⟨init, last, hrest⟩ := (dropEndWhile isVoid rest).eq_nil_or_concat'
    · rw [hrest] at hlast
      have hfirst : firstStep first = .name n := eq_of_lastName?_concat [] hlast
      have hempty : first ≠ [] := by
        rintro rfl
        cases hfirst
      have hdot : first ≠ ['.'] := by
        rintro rfl
        cases hfirst
      rw [firstStep, if_neg hempty, if_neg hdot] at hfirst
      obtain rfl := eq_of_stepOf hfirst
      exact ⟨hfirst, by simp [isVoid, hempty, hdot], first, rest, rfl, .inl ⟨rfl, hrest⟩⟩
    · have hvoid : isVoid last = false := by
        have hne : rest.rdropWhile isVoid ≠ [] := by simp [← dropEndWhile_eq, hrest]
        have := List.rdropWhile_last_not isVoid rest hne
        simpa [← dropEndWhile_eq, hrest] using this
      have hlater : laterSteps [last] = [stepOf last] := by simp [laterSteps, hvoid]
      rw [hrest, laterSteps_append, hlater, ← List.cons_append] at hlast
      have hstep := eq_of_lastName?_concat _ hlast
      obtain rfl := eq_of_stepOf hstep
      exact ⟨hstep, hvoid, first, rest, rfl, .inr ⟨init, hrest⟩⟩

/-- A path that ends in a name has a parent, which has all components but the last. -/
theorem exists_parent {path : Path} {n : Piece} (h : fileName? path = some n) :
    ∃ parent, parent? path = some parent ∧ components parent = (components path).dropLast := by
  obtain ⟨-, hvoid, first, rest, hpieces, hends⟩ := exists_pieces h
  have htrimmed := trimmed_of_pieces hpieces
  rw [components_eq, hpieces, componentsOf, ← laterSteps_dropEndWhile]
  obtain ⟨rfl, hrest⟩ | ⟨init, hrest⟩ := hends
  · rw [hrest] at htrimmed ⊢
    cases first with
    | nil => cases hvoid
    | cons c first => exact ⟨[], by rw [parent?, htrimmed], rfl⟩
  · have hslash : ∀ p ∈ first :: rest, '/' ∉ p := by
      intro p hp
      rw [← hpieces, pieces] at hp
      split at hp
      · cases hp
      · exact notMem_of_mem_splitAt hp
    have hinit : ∀ p ∈ first :: dropEndWhile isVoid init, '/' ∉ p := by
      intro p hp
      obtain rfl | hp := List.mem_cons.mp hp
      · exact hslash p (List.mem_cons_self ..)
      · have hmem : p ∈ dropEndWhile isVoid rest := by
          rw [hrest]
          exact List.mem_append_left _ ((List.rdropWhile_prefix isVoid _).subset hp)
        exact hslash p (List.mem_cons_of_mem _ ((List.rdropWhile_prefix isVoid _).subset hmem))
    rw [hrest] at htrimmed ⊢
    refine ⟨_, parent?_of_trimmed htrimmed (by simp), ?_⟩
    have hlater : laterSteps [n] = [stepOf n] := by simp [laterSteps, hvoid]
    rw [List.dropLast_concat, components_ofPieces hinit, componentsOf, laterSteps_dropEndWhile,
      laterSteps_append, hlater, ← List.cons_append, List.dropLast_concat]

/-- **Another name in the place of the last one.** -/
theorem components_withFileName {path : Path} {n : Piece} (hpath : fileName? path ≠ none)
    (hn : isName n = true) : components (withFileName path n) = sibling (components path) n := by
  obtain ⟨old, hold⟩ := Option.ne_none_iff_exists'.mp hpath
  obtain ⟨parent, hparent, hcomponents⟩ := exists_parent hold
  simp only [withFileName, hold, hparent]
  rw [components_join_name parent hn, hcomponents, sibling]

theorem steps_withFileName {path : Path} {n : Piece} (hpath : fileName? path ≠ none)
    (hn : isName n = true) : steps (withFileName path n) = sibling (steps path) n := by
  obtain ⟨old, hold⟩ := Option.ne_none_iff_exists'.mp hpath
  have hlast : components path = (components path).dropLast ++ [.name old] :=
    eq_concat_of_lastName? hold
  have hsteps : steps path = (components path).dropLast.filter (· ≠ .current) ++ [.name old] := by
    rw [steps, hlast, List.filter_append, List.dropLast_concat]
    rfl
  rw [hsteps, sibling_concat, steps, components_withFileName hpath hn, sibling, List.filter_append]
  rfl

end Path

end MutationTesting
