import MutationTesting.Proofs.Mutation.Frame
/-!
# Policies do not disturb each other

The sites of a policy in a chain are its sites when it is the only policy, and they have the same
mutants: only the numbers differ. The chain orders the sites of all its policies by their methods,
in a method by their items and at an item by the policies themselves.

## Main definitions

* `Policy.IsSelection` — the chains that can be asked for
* `Mutation.renumber`
* `Site.Precedes` — the order of issue

## Main results

* `ClassFile.filter_sitesOf` — the sites of one policy
* `ClassFile.pairwise_precedes_sitesOf` — sites are issued in order
* `policies_do_not_disturb_each_other`
-/

namespace MutationTesting

/-! ### Selections -/

/-- The chains that can be asked for: every policy, those in use when none are named, and those
that are named. -/
def Policy.IsSelection (policies : List Policy) : Prop :=
  policies = all ∨ policies = defaults ∨ ∃ requested, named? requested = .ok policies

/-- A selection takes some of the policies in their order. -/
theorem Policy.IsSelection.sublist {policies : List Policy} (h : IsSelection policies) :
    policies.Sublist all := by
  obtain rfl | rfl | ⟨requested, h⟩ := h
  · exact List.Sublist.refl _
  · exact List.filter_sublist
  · rw [named?] at h
    split at h
    · cases h
    · obtain rfl := Except.ok.inj h
      exact List.filter_sublist

theorem Policy.IsSelection.nodup {policies : List Policy} (h : IsSelection policies) :
    policies.Nodup := h.sublist.nodup (by decide)

variable {c : ClassFile} {policies : List Policy} {p : Policy}

/-! ### The sites of one policy -/

theorem Place.filter_sitesOf (classInfo : ClassInfo) (policies : List Policy) (pl : Place)
    (p : Policy) :
    (pl.sitesOf classInfo policies).filter (fun s => decide (s.policy = p)) =
      pl.sitesOf classInfo (policies.filter (fun q => decide (q = p))) := by
  induction policies with
  | nil => rfl
  | cons q policies ih =>
    have hone : (pl.sitesOf classInfo [q]).filter (fun s => decide (s.policy = p)) =
        if q = p then pl.sitesOf classInfo [q] else [] := by
      split
      · next hq =>
        refine List.filter_eq_self.mpr fun s hs => ?_
        simpa [hq] using (mem_sitesOf.mp hs).1
      · next hq =>
        refine List.filter_eq_nil_iff.mpr fun s hs => ?_
        have hs : s.policy = q := by simpa using (mem_sitesOf.mp hs).1
        simpa [hs] using hq
    rw [sitesOf_cons, List.filter_append, hone, ih, List.filter_cons]
    by_cases hq : q = p
    · rw [if_pos hq, if_pos (decide_eq_true hq), ← sitesOf_cons]
    · rw [if_neg hq, if_neg (by simpa using hq), List.nil_append]

/-- **The sites of one policy** in a chain are those it has alone. -/
theorem ClassFile.filter_sitesOf (c : ClassFile) (hnodup : policies.Nodup) (hp : p ∈ policies) :
    (c.sitesOf policies).filter (fun s => decide (s.policy = p)) = c.sitesOf [p] := by
  have hone : policies.filter (fun q => decide (q = p)) = [p] := by
    rw [List.filter_eq, hnodup.count, if_pos hp]
    rfl
  have hheeded : ((ClassInfo.ofClass c).heeded policies).filter (fun q => decide (q = p)) =
      (ClassInfo.ofClass c).heeded [p] := by
    rw [ClassInfo.heeded, ClassInfo.heeded, ← hone, List.filter_filter, List.filter_filter]
    exact List.filter_congr fun q _ => Bool.and_comm ..
  rw [sitesOf, sitesOf, List.filter_flatMap, ← hheeded]
  congr 1
  funext pl
  exact pl.filter_sitesOf _ _ p

/-! ### The order of issue -/

/-- The position of a site: its method, its item, and its policy in the chain. -/
def Site.position (policies : List Policy) (s : Site) : Nat × Nat × Nat :=
  (s.place.methods.before.length, s.place.code.before.length, policies.idxOf s.policy)

/-- A site comes before another one in a class. -/
def Site.Precedes (policies : List Policy) (s s' : Site) : Prop :=
  Prod.Lex (· < ·) (Prod.Lex (· < ·) (· < ·)) (s.position policies) (s'.position policies)

theorem pairwise_length_splitsFrom {α : Type} (before mid after : List α) :
    (splitsFrom before mid after).Pairwise fun s s' => s.before.length < s'.before.length := by
  induction mid generalizing before with
  | nil => exact .nil
  | cons x mid ih =>
    refine List.pairwise_cons.mpr ⟨fun s hs => ?_, ih (before ++ [x])⟩
    obtain ⟨first, rest, h⟩ := List.append_of_mem hs
    obtain ⟨front, back, hb, -⟩ := eq_splitsFrom_of_append_cons h
    simp [hb]

theorem pairwise_idxOf (hnodup : policies.Nodup) :
    policies.Pairwise fun p q => policies.idxOf p < policies.idxOf q := by
  refine List.pairwise_iff_getElem.mpr fun i j hi hj hij => ?_
  rwa [hnodup.idxOf_getElem, hnodup.idxOf_getElem]

/-- **Sites are issued in order.** -/
theorem ClassFile.pairwise_precedes_sitesOf (c : ClassFile) (hnodup : policies.Nodup) :
    (c.sitesOf policies).Pairwise (Site.Precedes policies) := by
  rw [sitesOf_eq, List.pairwise_flatMap]
  refine ⟨fun methods _ => ?_, (pairwise_length_splitsFrom [] c.methods []).imp ?_⟩
  · rw [Split.sitesOf, Split.sitesAt, List.pairwise_flatMap]
    refine ⟨fun code _ => ?_,
      (pairwise_length_splitsFrom [] methods.item.instructions []).imp ?_⟩
    · refine List.Pairwise.filterMap _ ?_ ((pairwise_idxOf hnodup).filter _)
      intro p q hpq s hs s' hs'
      obtain ⟨f, -, rfl⟩ := Option.map_eq_some_iff.mp hs
      obtain ⟨f', -, rfl⟩ := Option.map_eq_some_iff.mp hs'
      exact .right _ (.right _ hpq)
    · intro code code' hlt s hs s' hs'
      rw [Site.Precedes, Site.position, Site.position, (Place.mem_sitesOf.mp hs).2.1,
        (Place.mem_sitesOf.mp hs').2.1]
      exact .right _ (.left _ _ hlt)
  · intro methods methods' hlt s hs s' hs'
    rw [Site.Precedes, Site.position, Site.position, Split.methods_of_mem_sitesAt hs,
      Split.methods_of_mem_sitesAt hs']
    exact .left _ _ hlt

/-! ### The sites of a policy by their places -/

/-- What is found for a policy is a site of this policy with its number. -/
theorem exists_site_of_policy {m : Mutation} (hm : m ∈ findMutations c policies)
    (hp : m.id.policy = p.name) :
    ∃ (n : Nat) (s : Site), (c.sitesOf policies)[n]? = some s ∧ s.policy = p ∧
      m = s.mutation (.ofClass c) n := by
  obtain ⟨n, s, hs, rfl⟩ := exists_site_of_mem hm
  exact ⟨n, s, hs, Policy.name_injective hp, rfl⟩

/-- At a place there is a site of a policy iff the policy finds something there. -/
theorem exists_mutation_at_iff (hp : p ∈ policies) (hclass : p.excludes (.ofClass c) = false)
    {pl : Place} (hpl : pl ∈ c.places) {description : String} :
    (∃ m ∈ findMutations c policies, m.id.policy = p.name ∧ m.id.description = description ∧
        c.IssuesAt policies pl m.id.index) ↔
      ∃ f, pl.finding? (.ofClass c) p = some f ∧ f.description = description := by
  constructor
  · rintro ⟨m, hm, hpolicy, rfl, hissued⟩
    obtain ⟨n, s, hs, rfl, rfl⟩ := exists_site_of_policy hm hpolicy
    obtain rfl := (ClassFile.issuesAt_iff_eq_place hs).mp hissued
    exact ⟨s.finding, (ClassFile.mem_sitesOf.mp (List.mem_of_getElem? hs)).2.2.2, rfl⟩
  · rintro ⟨f, hf, rfl⟩
    have hsite : (⟨pl, p, f⟩ : Site) ∈ c.sitesOf policies :=
      ClassFile.mem_sitesOf.mpr ⟨hp, hclass, hpl, hf⟩
    obtain ⟨n, hn⟩ := List.mem_iff_getElem?.mp hsite
    refine ⟨Site.mutation (.ofClass c) n ⟨pl, p, f⟩, ?_, rfl, rfl, ?_⟩
    · exact List.mem_of_getElem? (by rw [getElem?_findMutations, hn]; rfl)
    · exact ClassFile.issuesAt_iff.mpr ⟨_, hn, rfl⟩

/-- At a place there is one site of a policy at most. -/
theorem eq_of_issuesAt (hnodup : policies.Nodup) {m m' : Mutation}
    (hm : m ∈ findMutations c policies) (hm' : m' ∈ findMutations c policies)
    (hp : m.id.policy = p.name) (hp' : m'.id.policy = p.name) {pl : Place}
    (h : c.IssuesAt policies pl m.id.index) (h' : c.IssuesAt policies pl m'.id.index) : m = m' := by
  obtain ⟨n, s, hs, hpolicy, rfl⟩ := exists_site_of_policy hm hp
  obtain ⟨n', s', hs', hpolicy', rfl⟩ := exists_site_of_policy hm' hp'
  have hplace : s.place = s'.place := by
    rw [← (ClassFile.issuesAt_iff_eq_place hs).mp h, ← (ClassFile.issuesAt_iff_eq_place hs').mp h']
  -- sites are issued in the strict order of their positions
  have hposition : s.position policies = s'.position policies := by
    rw [Site.position, Site.position, hplace, hpolicy, hpolicy']
  have hne : ∀ {i j : Nat} {t t' : Site}, (c.sitesOf policies)[i]? = some t →
      (c.sitesOf policies)[j]? = some t' → i < j → t.position policies ≠ t'.position policies := by
    intro i j t t' ht ht' hij heq
    obtain ⟨hi, rfl⟩ := List.getElem?_eq_some_iff.mp ht
    obtain ⟨hj, rfl⟩ := List.getElem?_eq_some_iff.mp ht'
    have hlex := List.pairwise_iff_getElem.mp (c.pairwise_precedes_sitesOf hnodup) i j hi hj hij
    simp [Site.Precedes, heq, Prod.lex_def] at hlex
  obtain hlt | rfl | hlt := Nat.lt_trichotomy n n'
  · exact absurd hposition (hne hs hs' hlt)
  · rw [Option.some.inj (hs.symm.trans hs')]
  · exact absurd hposition.symm (hne hs' hs hlt)

/-! ### Chains and single policies -/

/-- The same site with another number. -/
def Mutation.renumber (n : Nat) (m : Mutation) : Mutation :=
  { m with id := { m.id with index := n } }

/-- What a chain finds for one policy, with the sites that it stands for: those that the policy has
alone, under the numbers of the chain. -/
theorem exists_numbered_sites (c : ClassFile) (hnodup : policies.Nodup) (hp : p ∈ policies) :
    ∃ numbered : List (Site × Nat),
      (∀ x ∈ numbered, (c.sitesOf policies)[x.2]? = some x.1) ∧
      numbered.map Prod.fst = c.sitesOf [p] ∧
      (findMutations c policies).filter (fun m => decide (m.id.policy = p.name)) =
        numbered.map fun x => x.1.mutation (.ofClass c) x.2 := by
  refine ⟨(c.sitesOf policies).zipIdx.filter fun x => decide (x.1.policy = p), fun x hx => ?_,
    ?_, ?_⟩
  · exact List.mem_zipIdx_iff_getElem?.mp (List.mem_filter.mp hx).1
  · rw [← c.filter_sitesOf hnodup hp, ← List.zipIdx_map_fst 0 (c.sitesOf policies),
      List.filter_map, List.zipIdx_map_fst]
    rfl
  · rw [findMutations_eq, List.mapIdx_eq_zipIdx_map, List.filter_map]
    congr 2
    funext x
    exact decide_eq_decide.mpr ⟨Policy.name_injective, fun h => congrArg Policy.name h⟩

/-- **Policies do not disturb each other.** In a selection the sites of a policy are those that it
finds alone, and the mutant of the `n`-th of them has the artifact and the difference that the
`n`-th site has alone. What the selection finds is one list of sites by their places, in order of
their methods, items and policies, and numbered from zero; the sites of one policy in this list,
numbered from zero by themselves, are what the policy finds alone, at the same places. -/
theorem policies_do_not_disturb_each_other (hselection : Policy.IsSelection policies)
    (c : ClassFile) :
    (∀ p ∈ policies,
      findMutations c [p] =
          ((findMutations c policies).filter fun m => decide (m.id.policy = p.name)).mapIdx
            Mutation.renumber ∧
        ∀ (n : Nat) (m : Mutation),
          ((findMutations c policies).filter fun m => decide (m.id.policy = p.name))[n]? = some m →
          ∃ mutant alone, materialize c policies m.id = .ok mutant ∧
            materialize c [p] (m.renumber n).id = .ok alone ∧
            mutant.artifact = alone.artifact ∧ mutant.diff = alone.diff) ∧
    ∃ sites : List Site,
      findMutations c policies = sites.mapIdx (fun n s => s.mutation (.ofClass c) n) ∧
      sites.Pairwise (Site.Precedes policies) ∧
      (∀ (n : Nat) (s : Site), sites[n]? = some s →
        s.policy ∈ policies ∧ c.IssuesAt policies s.place n) ∧
      ∀ p ∈ policies,
        findMutations c [p] =
            (sites.filter fun s => decide (s.policy = p)).mapIdx
              (fun n s => s.mutation (.ofClass c) n) ∧
          ∀ (n : Nat) (s : Site), (sites.filter fun s => decide (s.policy = p))[n]? = some s →
            c.IssuesAt [p] s.place n := by
  have hnodup := hselection.nodup
  refine ⟨fun p hp => ?_, c.sitesOf policies, findMutations_eq c policies,
    c.pairwise_precedes_sitesOf hnodup, fun n s hs =>
      ⟨(ClassFile.mem_sitesOf.mp (List.mem_of_getElem? hs)).1,
        ClassFile.issuesAt_iff.mpr ⟨s, hs, rfl⟩⟩, fun p hp => ?_⟩
  · obtain ⟨numbered, hnumbered, halone, hfilter⟩ := exists_numbered_sites c hnodup hp
    rw [hfilter]
    refine ⟨?_, fun n m hm => ?_⟩
    · rw [findMutations_eq, ← halone, List.mapIdx_eq_zipIdx_map, List.mapIdx_eq_zipIdx_map,
        List.zipIdx_map, List.zipIdx_map, List.map_map, List.map_map]
      rfl
    · rw [List.getElem?_map] at hm
      obtain ⟨⟨s, k⟩, hx, rfl⟩ := Option.map_eq_some_iff.mp hm
      have hs : (c.sitesOf policies)[k]? = some s := hnumbered _ (List.mem_of_getElem? hx)
      have hs' : (c.sitesOf [p])[n]? = some s := by
        rw [← halone, List.getElem?_map, hx]
        rfl
      exact ⟨_, _, materialize_id hs, materialize_id hs', rfl, rfl⟩
  · rw [c.filter_sitesOf hnodup hp]
    exact ⟨findMutations_eq c [p], fun n s hs => ClassFile.issuesAt_iff.mpr ⟨s, hs, rfl⟩⟩

/-- In a method whose body can be replaced, a later text has the mutant that it has alone. -/
theorem text_behind_new_body_has_its_mutant :
    let c : ClassFile := { ClassFile.empty "a/B" with
      interfaces := ["javax/net/ssl/HostnameVerifier"]
      methods := [.plain "verify" "()Z" publicFlag
        [.label 0, .line 7 0, .loadText "https://a", .simple .pop, .simple .iconst0,
          .simple .ireturn]] }
    let policies : List Policy := [.plainScheme, .anyHost]
    let id : Nat → MutationId := fun n =>
      ⟨"https_to_http", "a/B", "verify()Z", n, "Changed 'https' to 'http' in String"⟩
    Policy.IsSelection policies ∧
      (findMutations c policies).map (·.id.policy) = ["hostname_verifier_true", "https_to_http"] ∧
      ∃ mutant alone, materialize c policies (id 1) = .ok mutant ∧
        materialize c [.plainScheme] (id 0) = .ok alone ∧
        mutant.artifact = alone.artifact ∧ mutant.diff = alone.diff := by
  intro c policies id
  have hselection : Policy.IsSelection policies :=
    .inr (.inr ⟨["hostname_verifier_true", "https_to_http"], rfl⟩)
  have hfound : findMutations c policies =
      [⟨⟨"hostname_verifier_true", "a/B", "verify()Z", 0,
        "Changed result of HostnameVerifier to constant true"⟩, 7, none⟩, ⟨id 1, 7, none⟩] := by
    subst c policies id
    decide
  obtain ⟨-, hmutants⟩ :=
    (policies_do_not_disturb_each_other hselection c).1 .plainScheme (List.mem_cons_self ..)
  refine ⟨hselection, by rw [hfound]; rfl, hmutants 0 ⟨id 1, 7, none⟩ ?_⟩
  rw [hfound]
  decide

end MutationTesting
