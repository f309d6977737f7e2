/-!
# Alignments

Two sequences side by side: which items go and which come, so that all others are the same on both
sides and in the same order. A shortest way is looked for from both ends at once, and the place
where the two searches meet divides the sequences.

Items that are nowhere on the other side are put aside before, and so are those between them that
are there too often to tell anything. In the end runs of changed items are moved where that brings
them together, and otherwise as far to the end as they can be.

## Main definitions

* `Changes` — what is changed
* `Alignment.divide` — the place where two searches meet
* `Alignment.align` — a shortest way
* `Alignment.settle` — runs where they are best
* `Alignment.changes` — all of it
-/

namespace MutationTesting

/-- Which items of two sequences are changed. -/
structure Changes where
  old : Array Bool
  new : Array Bool

namespace Alignment

/-! ### A shortest way -/

/-- A part of either sequence. -/
structure Region where
  oldStart : Nat
  oldStop : Nat
  newStart : Nat
  newStop : Nat

/-- How far two searches have come on each diagonal between limits. The places of diagonals are
shifted, so that none is negative. -/
structure Search where
  shift : Int
  front : Array Int
  frontLow : Int
  frontHigh : Int
  back : Array Int
  backLow : Int
  backHigh : Int

/-- How far a search has come on a diagonal. -/
def reached (shift : Int) (a : Array Int) (d : Int) : Int := a.getD (d + shift).toNat 0

/-- A search that has come so far on a diagonal. -/
def reach (shift : Int) (a : Array Int) (d x : Int) : Array Int :=
  a.setIfInBounds (d + shift).toNat x

variable (xs ys : Array Nat)

/-- The place up to which items are the same from two places on, for at most so many items. -/
def slide : Nat → Nat → Nat → Nat
  | 0, x, _ => x
  | n + 1, x, y => if xs.getD x 0 = ys.getD y 0 then slide n (x + 1) (y + 1) else x

/-- The place from which on items are the same before two places, for at most so many items. -/
def slideBack : Nat → Nat → Nat → Nat
  | 0, x, _ => x
  | n + 1, x, y =>
    if xs.getD (x - 1) 0 = ys.getD (y - 1) 0 then slideBack n (x - 1) (y - 1) else x

/-- The search from the front takes a step on every second diagonal from one on downwards, until it
meets the other one. The first argument is above the number of diagonals. -/
def stepFront (r : Region) (isOdd : Bool) (s : Search) : Nat → Int → Search × Option (Nat × Nat)
  | 0, _ => (s, none)
  | n + 1, d =>
    if d < s.frontLow then (s, none)
    else
      let low := reached s.shift s.front (d - 1)
      let high := reached s.shift s.front (d + 1)
      let start := if low < high then high else low + 1
      let room := min (r.oldStop - start) (r.newStop - (start - d))
      let x : Int := slide xs ys room.toNat start.toNat (start - d).toNat
      let x := max start x
      let s := { s with front := reach s.shift s.front d x }
      if isOdd && s.backLow ≤ d && d ≤ s.backHigh && reached s.shift s.back d ≤ x then
        (s, some (x.toNat, (x - d).toNat))
      else stepFront r isOdd s n (d - 2)

/-- The search from the back takes a step in the same way. -/
def stepBack (r : Region) (isOdd : Bool) (s : Search) : Nat → Int → Search × Option (Nat × Nat)
  | 0, _ => (s, none)
  | n + 1, d =>
    if d < s.backLow then (s, none)
    else
      let low := reached s.shift s.back (d - 1)
      let high := reached s.shift s.back (d + 1)
      let start := if low < high then low else high - 1
      let room := min (start - r.oldStart) (start - d - r.newStart)
      let x : Int := slideBack xs ys room.toNat start.toNat (start - d).toNat
      let x := min start x
      let s := { s with back := reach s.shift s.back d x }
      if !isOdd && s.frontLow ≤ d && d ≤ s.frontHigh && x ≤ reached s.shift s.front d then
        (s, some (x.toNat, (x - d).toNat))
      else stepBack r isOdd s n (d - 2)

/-- Both searches take steps until they meet. -/
def meet (r : Region) (isOdd : Bool) (least most beyond : Int) : Nat → Search → Nat × Nat
  | 0, _ => (r.oldStop, r.newStop)
  | n + 1, s =>
    let size := s.front.size
    let (low, front) := if least < s.frontLow
      then (s.frontLow - 1, reach s.shift s.front (s.frontLow - 2) (-1))
      else (s.frontLow + 1, s.front)
    let (high, front) := if s.frontHigh < most
      then (s.frontHigh + 1, reach s.shift front (s.frontHigh + 2) (-1))
      else (s.frontHigh - 1, front)
    let s := { s with front, frontLow := low, frontHigh := high }
    match stepFront xs ys r isOdd s size high with
    | (_, some place) => place
    | (s, none) =>
      let (low, back) := if least < s.backLow
        then (s.backLow - 1, reach s.shift s.back (s.backLow - 2) beyond)
        else (s.backLow + 1, s.back)
      let (high, back) := if s.backHigh < most
        then (s.backHigh + 1, reach s.shift back (s.backHigh + 2) beyond)
        else (s.backHigh - 1, back)
      let s := { s with back, backLow := low, backHigh := high }
      match stepBack xs ys r isOdd s size high with
      | (_, some place) => place
      | (s, none) => meet r isOdd least most beyond n s

/-- The place where searches from both ends of a region meet. -/
def divide (r : Region) : Nat × Nat :=
  let size := (r.oldStop - r.oldStart) + (r.newStop - r.newStart)
  let least : Int := r.oldStart - r.newStop
  let most : Int := r.oldStop - r.newStart
  let front : Int := r.oldStart - r.newStart
  let back : Int := r.oldStop - r.newStop
  let shift := 2 - least
  let fresh := Array.replicate (size + 5) (0 : Int)
  let start : Search :=
    { shift
      front := reach shift fresh front r.oldStart
      frontLow := front
      frontHigh := front
      back := reach shift fresh back r.oldStop
      backLow := back
      backHigh := back }
  meet xs ys r ((front - back) % 2 != 0) least most (r.oldStop + size + 1) (size + 1) start

/-- Marks from a place on up to another one. -/
def mark (flags : Array Bool) (start stop : Nat) : Array Bool :=
  (List.range (stop - start)).foldl (fun flags i => flags.setIfInBounds (start + i) true) flags

/-- The changes of a region on a shortest way. The first argument is above its size. -/
def align : Nat → Region → Changes → Changes
  | 0, _, c => c
  | n + 1, r, c =>
    let x := slide xs ys (min (r.oldStop - r.oldStart) (r.newStop - r.newStart))
      r.oldStart r.newStart
    let r := { r with oldStart := x, newStart := r.newStart + (x - r.oldStart) }
    let x := slideBack xs ys (min (r.oldStop - r.oldStart) (r.newStop - r.newStart))
      r.oldStop r.newStop
    let r := { r with oldStop := x, newStop := r.newStop - (r.oldStop - x) }
    if r.oldStart = r.oldStop then { c with new := mark c.new r.newStart r.newStop }
    else if r.newStart = r.newStop then { c with old := mark c.old r.oldStart r.oldStop }
    else
      let (x, y) := divide xs ys r
      align n ⟨x, r.oldStop, y, r.newStop⟩ (align n ⟨r.oldStart, x, r.newStart, y⟩ c)

/-! ### Items that tell nothing -/

/-- Whether an item is put aside. -/
inductive Aside where
  | kept
  /-- It is there too often on the other side. -/
  | perhaps
  /-- It is nowhere on the other side. -/
  | surely
  deriving DecidableEq

/-- The greatest power of two that is at most the root of a number, or one. -/
def rootPower (n : Nat) : Nat :=
  let rec go : Nat → Nat → Nat → Nat
    | 0, _, power => power
    | fuel + 1, n, power => if n / 4 = 0 then power else go fuel (n / 4) (power * 2)
  go n n 1

/-- A run whose beginning keeps the items that are there too often, until it is clear that all
around it is put aside. -/
def keepEdge : Nat → Nat → List Aside → List Aside
  | _, _, [] => []
  | place, streak, a :: rest =>
    if 8 ≤ place && a = .surely then a :: rest
    else
      match a with
      | .surely => a :: if streak = 2 then rest else keepEdge (place + 1) (streak + 1) rest
      | _ => .kept :: keepEdge (place + 1) 0 rest

/-- A run of items that are put aside, the first and the last one surely. -/
def judgeRun (run : List Aside) : List Aside :=
  let doubtful := run.count .perhaps
  let cleared := run.map fun a => if a = .perhaps then .kept else a
  if run.length < doubtful * 4 then cleared
  else
    let least := rootPower (run.length / 4) + 1
    let groups := run.splitBy fun a b => a = b
    let run := groups.flatMap fun group =>
      if group.head? = some .perhaps && least ≤ group.length then group.map fun _ => .kept
      else group
    (keepEdge 0 0 (keepEdge 0 0 run).reverse).reverse

/-- Items that are there too often are only put aside inside runs of items that are. -/
def judge (all : List Aside) : List Aside :=
  (all.splitBy fun a b => (a = .kept) = (b = .kept)).flatMap fun run =>
    if run.head? = some .kept then run
    else
      let before := run.takeWhile (· = .perhaps)
      let rest := run.drop before.length
      let after := rest.reverse.takeWhile (· = .perhaps)
      let inner := rest.take (rest.length - after.length)
      before.map (fun _ => .kept) ++ (if inner.isEmpty then [] else judgeRun inner)
        ++ after.map (fun _ => .kept)

/-- How often each number below a limit occurs. -/
def counts (limit : Nat) (xs : Array Nat) : Array Nat :=
  xs.foldl (fun counts x => counts.setIfInBounds x (counts.getD x 0 + 1)) (Array.replicate limit 0)

/-- Which items are put aside, given how often they occur on the other side. -/
def asides (others : Array Nat) (xs : Array Nat) : Array Bool :=
  let many := 5 * rootPower (xs.size / 64)
  let all := xs.toList.map fun x =>
    let n := others.getD x 0
    if n = 0 then Aside.surely else if many < n then .perhaps else .kept
  ((judge all).map (· != .kept)).toArray

/-! ### Runs of changes -/

/-- A run of changed items, and the place on the other side that corresponds to its end. -/
structure Run where
  own : Array Bool
  start : Nat
  stop : Nat
  other : Nat

/-- The place after changed items from a place on. -/
def pastChanged (flags : Array Bool) : Nat → Nat → Nat
  | 0, i => i
  | n + 1, i => if flags.getD i false then pastChanged flags n (i + 1) else i

/-- The place before an item that is not changed and the changed ones after it. -/
def backOver (flags : Array Bool) : Nat → Nat
  | 0 => 0
  | i + 1 => if flags.getD i false then backOver flags i else i

/-- The place from which on items before a place are changed. -/
def runStart (flags : Array Bool) : Nat → Nat
  | 0 => 0
  | i + 1 => if flags.getD i false then runStart flags i else i + 1

variable (items : Array Nat) (others : Array Bool)

/-- A run moved to the front as far as possible. -/
def moveBack : Nat → Run → Run
  | 0, r => r
  | n + 1, r =>
    if r.start != 0 && items.getD (r.start - 1) 0 = items.getD (r.stop - 1) 0 then
      let own := (r.own.setIfInBounds (r.start - 1) true).setIfInBounds (r.stop - 1) false
      moveBack n ⟨own, runStart own (r.start - 1), r.stop - 1, backOver others r.other⟩
    else r

/-- A run moved to the end as far as possible, and the last place of its end at which it stood
beside a run on the other side. -/
def moveOn : Nat → Run × Nat → Run × Nat
  | 0, x => x
  | n + 1, (r, beside) =>
    if r.stop < items.size && items.getD r.start 0 = items.getD r.stop 0 then
      let own := (r.own.setIfInBounds r.start false).setIfInBounds r.stop true
      let stop := pastChanged own items.size (r.stop + 1)
      let other := pastChanged others others.size (r.other + 1)
      moveOn n (⟨own, r.start + 1, stop, other⟩, if r.other + 1 < other then stop else beside)
    else (r, beside)

/-- A run moved to and fro until it does not grow any more. -/
def moveAll : Nat → Run → Run × Nat
  | 0, r => (r, items.size)
  | n + 1, r =>
    let length := r.stop - r.start
    let r := moveBack items others items.size r
    let beside := if r.other != 0 && others.getD (r.other - 1) false then r.stop else items.size
    let (r, beside) := moveOn items others items.size (r, beside)
    if r.stop - r.start = length then (r, beside) else moveAll n r

/-- A run moved back until it ends at a place. -/
def moveTo (place : Nat) : Nat → Run → Run
  | 0, r => r
  | n + 1, r =>
    if place < r.stop then
      let own := (r.own.setIfInBounds (r.start - 1) true).setIfInBounds (r.stop - 1) false
      moveTo place n ⟨own, r.start - 1, r.stop - 1, backOver others r.other⟩
    else r

/-- All runs from a place on moved where they are best, given the place on the other side. -/
def settleFrom : Nat → Nat → Nat → Array Bool → Array Bool
  | 0, _, _, own => own
  | n + 1, i, j, own =>
    if items.size ≤ i then own
    else if !own.getD i false then
      settleFrom n (i + 1) (pastChanged others others.size j + 1) own
    else
      let r : Run := ⟨own, i, pastChanged own items.size i, pastChanged others others.size j⟩
      let (r, beside) := moveAll items others items.size r
      let r := moveTo others beside items.size r
      settleFrom n r.stop r.other r.own

/-- All runs moved where they are best. -/
def settle (own : Array Bool) : Array Bool :=
  settleFrom items others (2 * items.size + 1) 0 0 own

/-! ### Changes -/

/-- The items that are not put aside, with their places. -/
def remaining (aside : Array Bool) (items : Array Nat) : Array Nat × Array Nat :=
  let places := (Array.range items.size).filter fun i => !aside.getD i false
  (places.map fun i => items.getD i 0, places)

/-- What is changed between two sequences of numbers below a limit. If as little as possible is
changed, no items are put aside. -/
def changes (isMinimal : Bool) (limit : Nat) (old new : Array Nat) : Changes :=
  let aside (others items : Array Nat) : Array Bool :=
    if isMinimal then items.map fun _ => false else asides (counts limit others) items
  let oldAside := aside new old
  let newAside := aside old new
  let (xs, oldPlaces) := remaining oldAside old
  let (ys, newPlaces) := remaining newAside new
  let c := align xs ys (xs.size + ys.size + 1) ⟨0, xs.size, 0, ys.size⟩
    ⟨Array.replicate xs.size false, Array.replicate ys.size false⟩
  let spread (aside flags : Array Bool) (places : Array Nat) : Array Bool :=
    (places.zip flags).foldl (fun all (place, isChanged) => all.setIfInBounds place isChanged) aside
  let first := spread oldAside c.old oldPlaces
  let second := spread newAside c.new newPlaces
  let first := settle old second first
  ⟨first, settle new first second⟩

end Alignment

end MutationTesting
