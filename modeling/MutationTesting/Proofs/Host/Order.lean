import Mathlib.Data.List.Sort
import MutationTesting.Run.ArtifactGuard
/-!
# Paths in order

Paths are compared component by component, and names octet by octet. Only paths with the same
components are equal in this order, so a list that is sorted does not depend on the order in which
its paths were found.

## Main results

* `mergeSort_eq_of_perm` — sorting forgets the order
* `Path.sort_eq_of_perm`
* `map_mergeSort_pairLe` — the pairs of paths that are found after a run, in order
-/

namespace MutationTesting

open Std

/-- What does not come after something, and is not the same, comes before it. -/
theorem lt_of_isLE_of_ne {α : Type} {cmp : α → α → Ordering} [LawfulEqCmp cmp] {a b : α}
    (hle : (cmp a b).isLE = true) (hne : a ≠ b) : cmp a b = .lt := by
  cases hcompare : cmp a b with
  | lt => rfl
  | eq => exact absurd (LawfulEqCmp.eq_of_compare hcompare) hne
  | gt => rw [hcompare] at hle; cases hle

section

variable {α : Type} {cmp : α → α → Ordering} [TransCmp cmp]

theorem pairwise_mergeSort_isLE (xs : List α) :
    (xs.mergeSort fun a b => (cmp a b).isLE).Pairwise fun a b => (cmp a b).isLE = true :=
  List.pairwise_mergeSort (fun _ _ _ => TransCmp.isLE_trans) (fun a b => by
    have hswap : cmp b a = (cmp a b).swap := OrientedCmp.eq_swap
    rw [hswap]
    cases cmp a b <;> rfl) xs

/-- Lists with the same elements are the same once they are sorted, if elements that are equal in
the order are the same. -/
theorem mergeSort_eq_of_perm {xs ys : List α} (h : xs.Perm ys)
    (heq : ∀ a ∈ xs, ∀ b ∈ xs, cmp a b = .eq → a = b) :
    xs.mergeSort (fun a b => (cmp a b).isLE) = ys.mergeSort fun a b => (cmp a b).isLE := by
  refine List.Perm.eq_of_pairwise (fun a b ha hb hab hba => ?_) (pairwise_mergeSort_isLE xs)
    (pairwise_mergeSort_isLE ys)
    ((List.mergeSort_perm xs _).trans (h.trans (List.mergeSort_perm ys _).symm))
  have hb' : b ∈ xs := h.mem_iff.mpr (List.mem_mergeSort.mp hb)
  exact heq a (List.mem_mergeSort.mp ha) b hb' (OrientedCmp.isLE_antisymm hab hba)

end

/-- What is compared by one of its parts is in order if the parts are. -/
theorem transCmp_comap {α β : Type} (cmp : β → β → Ordering) [TransCmp cmp] (f : α → β) :
    TransCmp fun a b => cmp (f a) (f b) where
  eq_swap := OrientedCmp.eq_swap
  isLE_trans := TransCmp.isLE_trans

namespace Path

/-! ### Comparing -/

theorem compareChars_eq : compareChars = List.compareLex (compareOn Char.toNat) := by
  funext a b
  induction a generalizing b with
  | nil => cases b <;> rfl
  | cons c a ih =>
    cases b with
    | nil => rfl
    | cons d b => rw [compareChars, ih, List.compareLex_cons_cons, compareOn]

instance : TransCmp compareChars := by
  rw [compareChars_eq]
  infer_instance

instance : LawfulEqCmp compareChars := by
  have : LawfulEqCmp (compareOn Char.toNat) := {
    eq_of_compare := fun h => Char.toNat_inj.mp (LawfulEqCmp.eq_of_compare h) }
  rw [compareChars_eq]
  infer_instance

/-- The octets of a name. -/
def Component.octets : Component → Piece
  | .name n => n
  | _ => []

theorem Component.compare_eq : Component.compare =
    compareLex (compareOn Component.rank) fun a b => compareChars a.octets b.octets := by
  funext a b
  cases a <;> cases b <;> rfl

instance : TransCmp Component.compare := by
  have := transCmp_comap compareChars Component.octets
  rw [Component.compare_eq]
  infer_instance

instance : LawfulEqCmp Component.compare where
  eq_of_compare {a b} h := by
    cases a with
    | name m =>
      cases b with
      | name n => exact congrArg Component.name (LawfulEqCmp.eq_of_compare h)
      | _ => cases h
    | _ => cases b <;> first | rfl | cases h

theorem compareSteps_eq : compareSteps = List.compareLex Component.compare := by
  funext a b
  induction a generalizing b with
  | nil => cases b <;> rfl
  | cons x a ih =>
    cases b with
    | nil => rfl
    | cons y b => rw [compareSteps, ih, List.compareLex_cons_cons]

instance : TransCmp compareSteps := by
  rw [compareSteps_eq]
  infer_instance

instance : LawfulEqCmp compareSteps := by
  rw [compareSteps_eq]
  infer_instance

/-! ### Sorting -/

/-- Paths with the same components that are found in another order. -/
theorem sort_eq_of_perm {ps qs : List Path} (h : ps.Perm qs)
    (heq : ∀ p ∈ ps, ∀ q ∈ ps, components p = components q → p = q) : sort ps = sort qs := by
  have := transCmp_comap compareSteps components
  exact mergeSort_eq_of_perm h fun p hp q hq hpq => heq p hp q hq (LawfulEqCmp.eq_of_compare hpq)

end Path

/-! ### Pairs -/

section

variable {α : Type}

/-- The order of what has two paths. -/
def comparePairs (first second : α → List Path.Component) : α → α → Ordering :=
  compareLex (fun a b => Path.compareSteps (first a) (first b))
    fun a b => Path.compareSteps (second a) (second b)

instance (first second : α → List Path.Component) : TransCmp (comparePairs first second) := by
  have := transCmp_comap Path.compareSteps first
  have := transCmp_comap Path.compareSteps second
  rw [comparePairs]
  infer_instance

theorem comparePairs_eq {first second : α → List Path.Component} {a b : α}
    (h : comparePairs first second a b = .eq) : first a = first b ∧ second a = second b := by
  obtain ⟨hfirst, hsecond⟩ := compareLex_eq_eq.mp h
  exact ⟨LawfulEqCmp.eq_of_compare hfirst, LawfulEqCmp.eq_of_compare hsecond⟩

end

/-- The components of two paths. -/
def pairComponents (pair : Path × Path) : List Path.Component × List Path.Component :=
  (Path.components pair.1, Path.components pair.2)

theorem pairwise_mergeSort_pairLe (ps : List (Path × Path)) :
    (ps.mergeSort pairLe).Pairwise (pairLe · · = true) := by
  have hpairLe : pairLe = fun a b => (comparePairs (fun p : Path × Path => Path.components p.1)
    (fun p => Path.components p.2) a b).isLE := rfl
  rw [hpairLe]
  exact pairwise_mergeSort_isLE ps

/-- Pairs of paths in order, as far as paths with the same components are the same. -/
theorem map_mergeSort_pairLe {ps qs : List (Path × Path)}
    (h : (ps.map pairComponents).Perm (qs.map pairComponents)) :
    (ps.mergeSort pairLe).map pairComponents = (qs.mergeSort pairLe).map pairComponents := by
  have hmap : ∀ rs : List (Path × Path), (rs.mergeSort pairLe).map pairComponents =
      (rs.map pairComponents).mergeSort fun a b => (comparePairs Prod.fst Prod.snd a b).isLE :=
    fun rs => List.map_mergeSort fun _ _ _ _ => rfl
  rw [hmap, hmap]
  refine mergeSort_eq_of_perm h fun a _ b _ hab => ?_
  obtain ⟨hfirst, hsecond⟩ := comparePairs_eq hab
  exact Prod.ext hfirst hsecond

end MutationTesting
