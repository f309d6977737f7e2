/-!
# Differs

An edit script leads from one list to another: it keeps items, deletes them and inserts others. A
differ finds such scripts. Of the many that lead from a list to another one it may take any, but
between equal lists it changes nothing; that is all that a difference of texts relies on.

The differ at hand sets equal beginnings and ends aside. Between them it searches for a shortest
script from both ends at once. A search goes on by one edit at a time and remembers for each
diagonal, which is the number of deletions less that of insertions, how far it came; where the two
searches meet, the lists are divided. In the end changes are moved first to the beginning and then
to the end, what is inserted over equal items too, and those that come together are joined. Wherever
the lists are divided and whatever is moved, the script leads from the one list to the other.

## Main definitions

* `Edit` — keeping, deleting and inserting
* `Differ` — what finds edit scripts
* `Differ.meet` — where the searches from both ends meet
* `Differ.align` — a shortest script, in blocks
* `Differ.settle` — blocks moved and joined
* `Differ.snakes` — the differ at hand

## Main statements

* `Differ.sides_align`, `Differ.sides_settle` — the two sides of a script
-/

namespace MutationTesting

/-- A step of an edit script. -/
inductive Edit (α : Type) where
  | keep (x : α)
  | delete (x : α)
  | insert (x : α)
  deriving DecidableEq

namespace Edit

variable {α : Type}

/-- What the step takes from the old side. -/
def before? : Edit α → Option α
  | .keep x => some x
  | .delete x => some x
  | .insert _ => none

/-- What the step leaves on the new side. -/
def after? : Edit α → Option α
  | .keep x => some x
  | .delete _ => none
  | .insert x => some x

end Edit

/-- What finds edit scripts. -/
structure Differ (α : Type) where
  script : List α → List α → List (Edit α)
  /-- A script starts from the old side. -/
  before_script (xs ys : List α) : (script xs ys).filterMap Edit.before? = xs
  /-- It leads to the new side. -/
  after_script (xs ys : List α) : (script xs ys).filterMap Edit.after? = ys
  /-- Between equal sides nothing changes. -/
  script_self (xs : List α) : script xs xs = xs.map .keep

namespace Differ

/-- A run of items to which the same happens. -/
abbrev Block (α : Type) := Edit (List α)

variable {α : Type}

/-! ### Sides -/

/-- The old and the new side of blocks. -/
def sides : List (Block α) → List α × List α
  | [] => ([], [])
  | .keep xs :: rest => (xs ++ (sides rest).1, xs ++ (sides rest).2)
  | .delete xs :: rest => (xs ++ (sides rest).1, (sides rest).2)
  | .insert xs :: rest => ((sides rest).1, xs ++ (sides rest).2)

@[simp] theorem sides_append (bs cs : List (Block α)) :
    sides (bs ++ cs) = ((sides bs).1 ++ (sides cs).1, (sides bs).2 ++ (sides cs).2) := by
  fun_induction sides bs <;> simp_all [sides]

/-- The steps of a block. -/
def steps : Block α → List (Edit α)
  | .keep xs => xs.map .keep
  | .delete xs => xs.map .delete
  | .insert xs => xs.map .insert

theorem filterMap_before_steps (bs : List (Block α)) :
    (bs.flatMap steps).filterMap Edit.before? = (sides bs).1 := by
  fun_induction sides bs <;>
    simp_all [steps, List.filterMap_append, List.filterMap_map, Function.comp_def, Edit.before?]

theorem filterMap_after_steps (bs : List (Block α)) :
    (bs.flatMap steps).filterMap Edit.after? = (sides bs).2 := by
  fun_induction sides bs <;>
    simp_all [steps, List.filterMap_append, List.filterMap_map, Function.comp_def, Edit.after?]

/-- A block, unless there is nothing in it. -/
def block (kind : List α → Block α) : List α → List (Block α)
  | [] => []
  | x :: xs => [kind (x :: xs)]

@[simp] theorem sides_block_keep (xs : List α) : sides (block .keep xs) = (xs, xs) := by
  cases xs <;> simp [block, sides]

@[simp] theorem sides_block_delete (xs : List α) : sides (block .delete xs) = (xs, []) := by
  cases xs <;> simp [block, sides]

@[simp] theorem sides_block_insert (xs : List α) : sides (block .insert xs) = ([], xs) := by
  cases xs <;> simp [block, sides]

/-- Items that are kept, in front of blocks. -/
def keepBefore (xs : List α) : List (Block α) → List (Block α)
  | .keep ys :: rest => .keep (xs ++ ys) :: rest
  | rest => block .keep xs ++ rest

@[simp] theorem sides_keepBefore (xs : List α) (bs : List (Block α)) :
    sides (keepBefore xs bs) = (xs ++ (sides bs).1, xs ++ (sides bs).2) := by
  fun_cases keepBefore xs bs <;> simp [sides]

/-- Items that are kept, behind blocks of which the last one comes first. -/
def keepAfter (xs : List α) : List (Block α) → List (Block α)
  | .keep ys :: rest => .keep (ys ++ xs) :: rest
  | rest => block .keep xs ++ rest

@[simp] theorem sides_reverse_block_keep (xs : List α) :
    sides (block .keep xs).reverse = (xs, xs) := by
  cases xs <;> simp [block, sides]

@[simp] theorem sides_keepAfter (xs : List α) (bs : List (Block α)) :
    sides (keepAfter xs bs).reverse = ((sides bs.reverse).1 ++ xs, (sides bs.reverse).2 ++ xs) := by
  fun_cases keepAfter xs bs <;> simp [sides]

/-- The block deletes items. -/
def deletes : Block α → Bool
  | .delete _ => true
  | _ => false

/-- The block inserts items. -/
def inserts : Block α → Bool
  | .insert _ => true
  | _ => false

/-- A block with those before it, the nearest one first, and those after it. -/
structure Focus (α : Type) where
  before : List (Block α)
  block : Block α
  after : List (Block α)

/-- All blocks. -/
def Focus.all (f : Focus α) : List (Block α) := f.before.reverse ++ f.block :: f.after

/-! ### Equal beginnings and ends -/

variable [DecidableEq α]

/-- The items with which two lists begin both, and what is left of them. -/
def splitCommon : List α → List α → List α × List α × List α
  | x :: xs, y :: ys =>
    if x = y then
      let (common, xs, ys) := splitCommon xs ys
      (x :: common, xs, ys)
    else ([], x :: xs, y :: ys)
  | xs, ys => ([], xs, ys)

theorem splitCommon_spec (xs ys : List α) :
    xs = (splitCommon xs ys).1 ++ (splitCommon xs ys).2.1 ∧
      ys = (splitCommon xs ys).1 ++ (splitCommon xs ys).2.2 := by
  fun_induction splitCommon xs ys with
  | case1 xs x ys common xs' ys' h ih =>
    rw [h] at ih
    exact ⟨congrArg (x :: ·) ih.1, congrArg (x :: ·) ih.2⟩
  | case2 x xs y ys h => exact ⟨rfl, rfl⟩
  | case3 xs ys h => exact ⟨rfl, rfl⟩

theorem splitCommon_self (xs : List α) : splitCommon xs xs = (xs, [], []) := by
  induction xs with
  | nil => rfl
  | cons x xs ih => simp [splitCommon, ih]

/-- Two lists without equal beginnings and ends. -/
structure Trimmed (α : Type) where
  first : List α
  old : List α
  new : List α
  last : List α

/-- Sets equal beginnings and then equal ends aside. -/
def trim (xs ys : List α) : Trimmed α :=
  let (first, xs, ys) := splitCommon xs ys
  let (last, xs, ys) := splitCommon xs.reverse ys.reverse
  ⟨first, xs.reverse, ys.reverse, last.reverse⟩

theorem trim_spec (xs ys : List α) :
    xs = (trim xs ys).first ++ (trim xs ys).old ++ (trim xs ys).last ∧
      ys = (trim xs ys).first ++ (trim xs ys).new ++ (trim xs ys).last := by
  obtain ⟨hxs, hys⟩ := splitCommon_spec xs ys
  obtain ⟨hold, hnew⟩ := splitCommon_spec (splitCommon xs ys).2.1.reverse
    (splitCommon xs ys).2.2.reverse
  rw [List.reverse_eq_iff, List.reverse_append] at hold hnew
  refine ⟨?_, ?_⟩
  · rw [trim, List.append_assoc, ← hold, ← hxs]
  · rw [trim, List.append_assoc, ← hnew, ← hys]

/-! ### A shortest script -/

/-- Where the paths with one more edit begin on their diagonals, from the lowest on, given how far
those without it came. A path comes from the diagonal above or below. -/
def begins (front : List Nat) : List Nat :=
  List.zipWith (fun low high =>
    match low, high with
    | some x, some x' => if x < x' then x' else x + 1
    | some x, none => x + 1
    | none, high => high.getD 0) (none :: front.map some) (front.map some ++ [none])

/-- The diagonal of a place among as many as there are. -/
def diagonal (count i : Nat) : Int := 2 * i - (count - 1)

/-- How far a path came on a diagonal, if it is one of those. -/
def reached? (front : List Nat) (k : Int) : Option Nat :=
  let i := k + (front.length - 1)
  if 0 ≤ i then front[(i / 2).toNat]? else none

/-- How far equal items lead on a diagonal. -/
def slide (xs ys : List α) (k : Int) (x : Nat) : Nat :=
  if k ≤ x then x + (splitCommon (xs.drop x) (ys.drop (x - k).toNat)).1.length else x

/-- The highest diagonal on which a search meets the one from the other end. -/
def meeting? (length : Nat) (delta : Int) (own other : List Nat) : Option Nat :=
  (List.range own.length).reverse.find? fun i =>
    match own[i]?, reached? other (delta - diagonal own.length i) with
    | some x, some x' => length ≤ x + x'
    | _, _ => false

/-- Where searches from both ends meet, after at most so many edits. -/
def meet (xs ys : List α) : Nat → List Nat → List Nat → Option (Nat × Nat)
  | 0, _, _ => none
  | n + 1, front, back =>
    let delta : Int := xs.length - ys.length
    let isOdd := delta % 2 = 1
    let starts := begins front
    let front := starts.mapIdx fun i x => slide xs ys (diagonal starts.length i) x
    match if isOdd then meeting? xs.length delta front back else none with
    | some i => starts[i]?.map fun x => (x, (x - diagonal starts.length i).toNat)
    | none =>
      let ends := begins back
      let back := ends.mapIdx fun i x => slide xs.reverse ys.reverse (diagonal ends.length i) x
      match if isOdd then none else meeting? xs.length delta back front with
      | some i => back[i]?.map fun x =>
        (xs.length - x, ys.length - (x - diagonal back.length i).toNat)
      | none => meet xs ys n front back

/-- A shortest script, in blocks. -/
def align (xs ys : List α) : List (Block α) :=
  let t := trim xs ys
  let change :=
    if t.old = [] ∨ t.new = [] then block .delete t.old ++ block .insert t.new
    else
      match meet t.old t.new ((t.old.length + t.new.length + 1) / 2 + 1) [] [] with
      | some (x, y) =>
        if _h : (t.old.take x).length + (t.new.take y).length < xs.length + ys.length ∧
            (t.old.drop x).length + (t.new.drop y).length < xs.length + ys.length then
          align (t.old.take x) (t.new.take y) ++ align (t.old.drop x) (t.new.drop y)
        else [.delete t.old, .insert t.new]
      | none => [.delete t.old, .insert t.new]
  block .keep t.first ++ change ++ block .keep t.last
termination_by xs.length + ys.length
decreasing_by
  · exact _h.1
  · exact _h.2

/-- Wherever the lists are divided, the script leads from the one to the other. -/
theorem sides_align (xs ys : List α) : sides (align xs ys) = (xs, ys) := by
  fun_induction align xs ys with
  | case1 xs ys t change ih ih' =>
    have hchange : sides change = (t.old, t.new) := by
      subst change
      split
      · simp
      · split
        · split
          · next x y _ h =>
            rw [sides_append, ih x y h, ih' x y h, List.take_append_drop, List.take_append_drop]
          · simp [sides]
        · simp [sides]
    obtain ⟨hxs, hys⟩ := trim_spec xs ys
    rw [sides_append, sides_append, hchange, sides_block_keep, sides_block_keep]
    exact Prod.ext hxs.symm hys.symm

/-! ### Moving blocks -/

/-- Moves a run of items over equal ones. The run begins with what it moves over and ends with it
when it has moved. What is left of the items, the run, and what it has moved over, last item
first. -/
def rotate : List α → List α → List α → List α × List α × List α
  | x :: xs, y :: ys, moved =>
    if x = y then rotate xs (ys ++ [x]) (x :: moved) else (x :: xs, y :: ys, moved)
  | xs, ys, moved => (xs, ys, moved)

theorem rotate_spec (xs ys moved : List α) :
    ∃ passed, (rotate xs ys moved).2.2 = passed.reverse ++ moved ∧
      xs = passed ++ (rotate xs ys moved).1 ∧
      passed ++ (rotate xs ys moved).2.1 = ys ++ passed := by
  fun_induction rotate xs ys moved with
  | case1 xs y ys moved ih =>
    obtain ⟨passed, hmoved, hxs, hys⟩ := ih
    refine ⟨y :: passed, ?_, ?_, ?_⟩
    · rw [hmoved, List.reverse_cons, List.append_assoc, List.singleton_append]
    · rw [List.cons_append, ← hxs]
    · rw [List.cons_append, hys, List.append_assoc, List.singleton_append, List.cons_append]
  | case2 x xs y ys moved h => exact ⟨[], rfl, rfl, (List.append_nil _).symm⟩
  | case3 xs ys moved h => exact ⟨[], rfl, rfl, (List.append_nil _).symm⟩

theorem eq_of_rotate {xs ys xs' ys' moved : List α} (h : rotate xs ys [] = (xs', ys', moved)) :
    xs = moved.reverse ++ xs' ∧
      ∀ rest, ys ++ (moved.reverse ++ rest) = moved.reverse ++ (ys' ++ rest) := by
  obtain ⟨passed, hmoved, hxs, hys⟩ := rotate_spec xs ys []
  rw [h] at hmoved hxs hys
  obtain rfl : passed = moved.reverse := by simp [show moved = passed.reverse by simpa using hmoved]
  exact ⟨hxs, fun rest => by rw [← List.append_assoc, ← hys, List.append_assoc]⟩

theorem eq_of_rotate_reverse {xs ys xs' ys' moved : List α}
    (h : rotate xs.reverse ys.reverse [] = (xs', ys', moved)) :
    xs = xs'.reverse ++ moved ∧
      ∀ rest, moved ++ (ys ++ rest) = ys'.reverse ++ (moved ++ rest) := by
  obtain ⟨hxs, hys⟩ := eq_of_rotate h
  have hys' : moved ++ ys = ys'.reverse ++ moved := by
    simpa using congrArg List.reverse (hys [])
  rw [List.reverse_eq_iff, List.reverse_append, List.reverse_reverse] at hxs
  exact ⟨hxs, fun rest => by rw [← List.append_assoc, hys', List.append_assoc]⟩

/-- Moves a block to the beginning as far as it can be moved. What is inserted moves over equal
items that are kept; blocks that are deleted and inserted change places, and others are joined. -/
def moveUp : List (Block α) → Block α → List (Block α) → Focus α
  | .keep xs :: before, .insert ys, after =>
    let (xs, ys, moved) := rotate xs.reverse ys.reverse []
    if xs = [] then moveUp before (.insert ys.reverse) (keepBefore moved after)
    else ⟨.keep xs.reverse :: before, .insert ys.reverse, keepBefore moved after⟩
  | .delete xs :: before, .insert ys, after => moveUp before (.insert ys) (.delete xs :: after)
  | .insert xs :: before, .insert ys, after => moveUp before (.insert (xs ++ ys)) after
  | .insert xs :: before, .delete ys, after => moveUp before (.delete ys) (.insert xs :: after)
  | .delete xs :: before, .delete ys, after => moveUp before (.delete (xs ++ ys)) after
  | before, block, after => ⟨before, block, after⟩

/-- Moves a block to the end in the same way. -/
def moveDown : List (Block α) → Block α → List (Block α) → Focus α
  | before, .insert ys, .keep xs :: after =>
    let (xs, ys, moved) := rotate xs ys []
    if xs = [] then moveDown (keepAfter moved.reverse before) (.insert ys) after
    else ⟨keepAfter moved.reverse before, .insert ys, .keep xs :: after⟩
  | before, .insert ys, .delete xs :: after => moveDown (.delete xs :: before) (.insert ys) after
  | before, .insert ys, .insert xs :: after => moveDown before (.insert (ys ++ xs)) after
  | before, .delete ys, .insert xs :: after => moveDown (.insert xs :: before) (.delete ys) after
  | before, .delete ys, .delete xs :: after => moveDown before (.delete (ys ++ xs)) after
  | before, block, after => ⟨before, block, after⟩

/-- Moves the blocks of a kind, one after the other and so many of them. -/
def settleFrom (kind : Block α → Bool) : Nat → List (Block α) → List (Block α) → List (Block α)
  | 0, before, after => before.reverse ++ after
  | n + 1, before, after =>
    match after.dropWhile fun b => !kind b with
    | b :: rest =>
      let passed := after.takeWhile fun b => !kind b
      let f := moveUp (passed.reverse ++ before) b rest
      let f := moveDown f.before f.block f.after
      settleFrom kind n (f.block :: f.before) f.after
    | [] => before.reverse ++ after

/-- Moves all blocks of a kind. -/
def settle (kind : Block α → Bool) (bs : List (Block α)) : List (Block α) :=
  settleFrom kind (bs.countP kind) [] bs

/-- Moving a block to the beginning keeps the sides. -/
theorem sides_moveUp (before : List (Block α)) (b : Block α) (after : List (Block α)) :
    sides (moveUp before b after).all = sides (before.reverse ++ b :: after) := by
  fun_induction moveUp before b after with
  | case1 xs before ys after ys' moved h ih =>
    obtain ⟨rfl, hys⟩ := eq_of_rotate_reverse h
    rw [ih]
    simp [sides, hys]
  | case2 xs before ys after xs' ys' moved h =>
    obtain ⟨rfl, hys⟩ := eq_of_rotate_reverse h
    simp [Focus.all, sides, hys]
  | case3 xs before ys after ih => simp_all [sides]
  | case4 xs before ys after ih => simp_all [sides]
  | case5 xs before ys after ih => simp_all [sides]
  | case6 xs before ys after ih => simp_all [sides]
  | case7 before b after => rfl

/-- Moving a block to the end keeps the sides. -/
theorem sides_moveDown (before : List (Block α)) (b : Block α) (after : List (Block α)) :
    sides (moveDown before b after).all = sides (before.reverse ++ b :: after) := by
  fun_induction moveDown before b after with
  | case1 before ys xs after ys' moved h ih =>
    obtain ⟨rfl, hys⟩ := eq_of_rotate h
    rw [ih]
    simp [sides, hys]
  | case2 before ys xs after xs' ys' moved h =>
    obtain ⟨rfl, hys⟩ := eq_of_rotate h
    simp [Focus.all, sides, hys]
  | case3 before ys xs after ih => simp_all [sides]
  | case4 before ys xs after ih => simp_all [sides]
  | case5 before ys xs after ih => simp_all [sides]
  | case6 before ys xs after ih => simp_all [sides]
  | case7 before b after => rfl

theorem sides_settleFrom (kind : Block α → Bool) (n : Nat) (before after : List (Block α)) :
    sides (settleFrom kind n before after) = sides (before.reverse ++ after) := by
  fun_induction settleFrom kind n before after with
  | case1 before after => rfl
  | case2 n before after b rest h passed f f' ih =>
    have hafter : passed ++ b :: rest = after := by
      rw [← h, List.takeWhile_append_dropWhile]
    have hup : sides f.all = _ := sides_moveUp (passed.reverse ++ before) b rest
    have hdown : sides f'.all = _ := sides_moveDown f.before f.block f.after
    rw [ih, ← hafter]
    rw [List.reverse_append, List.reverse_reverse, List.append_assoc] at hup
    rw [← hup, Focus.all, ← hdown, Focus.all, List.reverse_cons, List.append_assoc,
      List.singleton_append]
  | case3 n before after h => rfl

/-- Settling keeps the sides. -/
theorem sides_settle (kind : Block α → Bool) (bs : List (Block α)) :
    sides (settle kind bs) = sides bs := sides_settleFrom kind _ [] bs

theorem settle_of_none {kind : Block α → Bool} {bs : List (Block α)}
    (h : ∀ b ∈ bs, kind b = false) : settle kind bs = bs := by
  rw [settle, List.countP_eq_zero.mpr (by simpa using h)]
  rfl

theorem align_self (xs : List α) : align xs xs = block .keep xs := by
  have htrim : trim xs xs = ⟨xs, [], [], []⟩ := by rw [trim, splitCommon_self]; rfl
  rw [align, htrim]
  simp [block]

/-- The differ that searches from both ends. -/
def snakes : Differ α where
  script xs ys := (settle inserts (settle deletes (align xs ys))).flatMap steps
  before_script xs ys := by
    rw [filterMap_before_steps, sides_settle, sides_settle, sides_align]
  after_script xs ys := by
    rw [filterMap_after_steps, sides_settle, sides_settle, sides_align]
  script_self xs := by
    rw [align_self]
    cases xs with
    | nil => rfl
    | cons x xs =>
      rw [block, settle_of_none (List.forall_mem_singleton.mpr rfl),
        settle_of_none (List.forall_mem_singleton.mpr rfl)]
      exact List.append_nil _

end Differ

end MutationTesting
