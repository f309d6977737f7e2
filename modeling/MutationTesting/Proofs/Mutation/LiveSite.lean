import MutationTesting.Proofs.Mutation.ClassPass
import MutationTesting.Proofs.Mutation.Finding
/-!
# Identifiers and mutants

An identifier that was issued for a class stands for one site of it, and a pass with the identifier
as its target changes the class at this site and at no other. An identifier that was not issued
stands for nothing, and a pass with it changes nothing.

## Main results

* `mutateClass_id` — the pass whose target is the identifier of a site
* `mutateClass_of_not_issued` — the pass whose target is another identifier
* `materialize_id`, `materialize_of_not_issued` — what becomes of the mutants
* `one_live_site_per_identifier` — all of it about the sites that are found
-/

namespace MutationTesting

namespace Pass

theorem isNumbered_start (classInfo : ClassInfo) (target : Option MutationId) :
    (start classInfo target).IsNumbered := rfl

theorem IsNumbered.nodup_ids {p : Pass} (h : p.IsNumbered) : (p.sites.map (·.id)).Nodup := by
  have hindex : ((p.sites.map (·.id)).map (·.index)).Nodup := by
    rw [List.map_map]
    exact h ▸ List.nodup_range
  exact List.Pairwise.of_map _ (fun a b hab heq => hab (congrArg _ heq)) hindex

/-- In a numbered pass a site is the only one with its identifier. -/
theorem IsNumbered.filter_id_eq {p : Pass} (h : p.IsNumbered) {m : Mutation} (hm : m ∈ p.sites) :
    p.sites.filter (fun m' => decide (m'.id = m.id)) = [m] := by
  obtain ⟨first, rest, hsites⟩ := List.append_of_mem hm
  have hnodup := h.nodup_ids
  rw [hsites, List.map_append, List.map_cons, List.nodup_append] at hnodup
  obtain ⟨-, hrest, hfirst⟩ := hnodup
  have hnone : ∀ m' ∈ first, ¬ decide (m'.id = m.id) = true := fun m' hm' => by
    simpa using hfirst m'.id (List.mem_map_of_mem hm') m.id (List.mem_cons_self ..)
  have hnone' : ∀ m' ∈ rest, ¬ decide (m'.id = m.id) = true := fun m' hm' heq =>
    (List.nodup_cons.mp hrest).1 (of_decide_eq_true heq ▸ List.mem_map_of_mem hm')
  rw [hsites, List.filter_append, List.filter_eq_nil_iff.mpr hnone,
    List.filter_cons_of_pos (by simp), List.filter_eq_nil_iff.mpr hnone', List.nil_append]

theorem Grows.mem_sites {p q : Pass} (h : p.Grows q) {m : Mutation} (hm : m ∈ p.sites) :
    m ∈ q.sites := h.sites.subset hm

end Pass

variable {c : ClassFile} {policies : List Policy}

/-- The site of a policy at a place can be live iff the policy is not the inert one. -/
theorem Site.replacement_eq_none_iff {s : Site} (hs : s ∈ c.sitesOf policies) :
    s.finding.replacement = none ↔ s.policy = .inert :=
  Policy.replacement_eq_none_iff (ClassFile.mem_sitesOf.mp hs).2.2.2

theorem length_findMutations (c : ClassFile) (policies : List Policy) :
    (findMutations c policies).length = (c.sitesOf policies).length := by
  rw [findMutations_eq, List.length_mapIdx]

theorem getElem?_findMutations (c : ClassFile) (policies : List Policy) (n : Nat) :
    (findMutations c policies)[n]? =
      ((c.sitesOf policies)[n]?).map fun s : Site => s.mutation (.ofClass c) n := by
  rw [findMutations_eq, List.getElem?_mapIdx]

/-- What is found is a site with its number. -/
theorem exists_site_of_mem {m : Mutation} (h : m ∈ findMutations c policies) :
    ∃ (n : Nat) (s : Site), (c.sitesOf policies)[n]? = some s ∧
      m = s.mutation (.ofClass c) n := by
  obtain ⟨n, hn⟩ := List.mem_iff_getElem?.mp h
  rw [getElem?_findMutations] at hn
  obtain ⟨s, hs, rfl⟩ := Option.map_eq_some_iff.mp hn
  exact ⟨n, s, hs, rfl⟩

/-- A pass without a live site finds what a pass without a target finds. -/
theorem mutateClass_of_misses_sites {target : Option MutationId}
    (hmiss : (Pass.start (.ofClass c) target).Misses (c.sitesOf policies)) :
    (mutateClass c policies target).1 = c ∧
      (mutateClass c policies target).2.sites = findMutations c policies ∧
      (mutateClass c policies target).2.liveAnswers = 0 ∧
      (mutateClass c policies target).2.IsNumbered := by
  obtain ⟨method, line, h⟩ := mutateClass_of_misses hmiss
  have hgrows := ((Pass.start (.ofClass c) target).grows_noteAll (c.sitesOf policies)).trans
    (Pass.grows_goTo _ method line)
  rw [h]
  refine ⟨rfl, ?_, hgrows.liveAnswers, hgrows.numbered (Pass.isNumbered_start _ _)⟩
  rw [Pass.sites_goTo, Pass.sites_noteAll, findMutations_eq]
  simp [Pass.start, Pass.sites, Pass.issued]

/-- **The pass whose target is the identifier of a site** makes the class in which the site is live.
The site is told so once, unless it is inert, and no other site has its identifier. -/
theorem mutateClass_id {n : Nat} {s : Site} (hs : (c.sitesOf policies)[n]? = some s) :
    ∃ p, mutateClass c policies (some (s.id (.ofClass c) n)) = (s.mutate c, p) ∧
      p.liveAnswers = (if s.policy = .inert then 0 else 1) ∧ p.IsNumbered ∧
      s.mutation (.ofClass c) n ∈ p.sites := by
  have hmem : s ∈ c.sitesOf policies := List.mem_of_getElem? hs
  have hfound : (findMutations c policies)[n]? = some (s.mutation (.ofClass c) n) := by
    rw [getElem?_findMutations, hs]
    rfl
  cases hr : s.finding.replacement with
  | none =>
    have hmiss : (Pass.start (.ofClass c) (some (s.id (.ofClass c) n))).Misses
        (c.sitesOf policies) := by
      refine Pass.misses_iff.mpr fun k s' hk hr' heq => hr' ?_
      have hnk : n = 0 + k := congrArg MutationId.index (Option.some.inj heq)
      rw [Nat.zero_add] at hnk
      obtain rfl : s = s' := Option.some.inj (hs.symm.trans (hnk ▸ hk))
      exact hr
    obtain ⟨hclass, hsites, hlive, hnumbered⟩ := mutateClass_of_misses_sites hmiss
    refine ⟨_, Prod.ext (hclass.trans (Site.mutate_of_inert hmem hr).symm) rfl, ?_, hnumbered, ?_⟩
    · rw [hlive, if_pos ((Site.replacement_eq_none_iff hmem).mp hr)]
    · rw [hsites]
      exact List.mem_of_getElem? hfound
  | some r =>
    obtain ⟨first, rest, hsplit, hlength⟩ := exists_append_of_getElem? hs
    subst hlength
    obtain ⟨p, hp, hgrows⟩ := mutateClass_of_live hsplit hr
    have hnoted := (Pass.start (.ofClass c) (some (s.id (.ofClass c) first.length))).grows_noteAll
      first
    have hpolicy : s.policy ≠ .inert := fun h =>
      nomatch hr.symm.trans ((Site.replacement_eq_none_iff hmem).mpr h)
    have hinfo := hnoted.classInfo
    refine ⟨p, hp, ?_, hgrows.numbered ?_, hgrows.mem_sites ?_⟩
    · rw [hgrows.liveAnswers, if_neg hpolicy]
      exact congrArg (· + 1) hnoted.liveAnswers
    · exact (Pass.grows_note _ s).numbered (hnoted.numbered (Pass.isNumbered_start _ _))
    · change _ ∈ (Pass.note _ s).sites
      rw [Pass.sites_note, Pass.issued_noteAll, hinfo]
      simp [Pass.start, Pass.issued]

/-- A pass whose target was not issued changes nothing and finds what any pass finds. -/
theorem mutateClass_of_not_issued {id : MutationId}
    (h : ∀ m ∈ findMutations c policies, m.id ≠ id) :
    (mutateClass c policies (some id)).1 = c ∧
      (mutateClass c policies (some id)).2.sites = findMutations c policies := by
  have hmiss : (Pass.start (.ofClass c) (some id)).Misses (c.sitesOf policies) := by
    refine Pass.misses_iff.mpr fun n s hn _ heq => ?_
    have hmem : s.mutation (.ofClass c) n ∈ findMutations c policies :=
      List.mem_of_getElem? (by rw [getElem?_findMutations, hn]; rfl)
    refine h _ hmem ?_
    rw [Option.some.inj heq]
    simp [Site.mutation, Pass.start, Pass.issued]
  exact ⟨(mutateClass_of_misses_sites hmiss).1, (mutateClass_of_misses_sites hmiss).2.1⟩

/-- The mutant of a site, whatever finds its difference. -/
theorem materialize_id {n : Nat} {s : Site} (hs : (c.sitesOf policies)[n]? = some s)
    (differ : Differ (List Char) := .snakes) :
    materialize c policies (s.id (.ofClass c) n) differ =
      .ok ⟨s.mutation (.ofClass c) n, (s.mutate c).toBytes,
        methodDiff s.place.method.signature c (s.mutate c) differ⟩ := by
  obtain ⟨p, hp, hlive, hnumbered, hmem⟩ := mutateClass_id hs
  have hfilter := hnumbered.filter_id_eq hmem
  have hle : ¬ 1 < p.liveAnswers := by rw [hlive]; split <;> decide
  rw [materialize, hp]
  simp only
  rw [show (fun m : Mutation => decide (m.id = s.id (.ofClass c) n)) =
    fun m => decide (m.id = (s.mutation (.ofClass c) n).id) from rfl, hfilter]
  simp only [if_neg hle]
  rfl

theorem materialize_of_mem {m : Mutation} (hm : m ∈ findMutations c policies) :
    ∃ diff, materialize c policies m.id =
      .ok ⟨m, (mutateClass c policies (some m.id)).1.toBytes, diff⟩ := by
  obtain ⟨n, s, hs, rfl⟩ := exists_site_of_mem hm
  obtain ⟨pass, hpass, -⟩ := mutateClass_id hs
  have hclass : (mutateClass c policies (some (s.mutation (.ofClass c) n).id)).1 = s.mutate c :=
    congrArg Prod.fst hpass
  refine ⟨methodDiff s.place.method.signature c (s.mutate c), (materialize_id hs).trans ?_⟩
  rw [hclass]

/-- A mutant is stored as the class that the pass with its target makes. -/
theorem exists_mutant_of_mem {m : Mutation} (hm : m ∈ findMutations c policies) :
    ∃ mutant, materialize c policies m.id = .ok mutant ∧
      mutant.artifact = (mutateClass c policies (some m.id)).1.toBytes := by
  obtain ⟨diff, hmutant⟩ := materialize_of_mem hm
  -- `rfl` would compare the artifacts by writing them
  generalize (mutateClass c policies (some m.id)).1.toBytes = artifact at hmutant ⊢
  exact ⟨_, hmutant, rfl⟩

/-- There is no mutant for an identifier that was not issued. -/
theorem materialize_of_not_issued {id : MutationId}
    (h : ∀ m ∈ findMutations c policies, m.id ≠ id) :
    materialize c policies id = .error (.mutationNotFound id) := by
  have hfilter : (findMutations c policies).filter (fun m => decide (m.id = id)) = [] :=
    List.filter_eq_nil_iff.mpr fun m hm => by simpa using h m hm
  simp only [materialize, (mutateClass_of_not_issued h).2, hfilter]

/-- **Each identifier stands for one site.** A pass without a target changes nothing, and the sites
that it finds are numbered from zero. The identifier of a site has a mutant, with what was found,
and just one site was told that it is live, or none for the inert policy. Every other identifier
changes nothing and has no mutant, and no mutant is refused for any other reason. -/
theorem one_live_site_per_identifier (c : ClassFile) (policies : List Policy) :
    (mutateClass c policies none).1 = c ∧
      (∀ (i : Nat) (m : Mutation), (findMutations c policies)[i]? = some m → m.id.index = i) ∧
      (∀ m ∈ findMutations c policies,
        (∃ mutant, materialize c policies m.id = .ok mutant ∧ mutant.mutation = m) ∧
          (mutateClass c policies (some m.id)).2.liveAnswers =
            if m.id.policy = Policy.inert.name then 0 else 1) ∧
      (∀ id, (∀ m ∈ findMutations c policies, m.id ≠ id) →
        (mutateClass c policies (some id)).1 = c ∧
          materialize c policies id = .error (.mutationNotFound id)) ∧
      ∀ id failure, materialize c policies id = .error failure →
        failure = .mutationNotFound id := by
  refine ⟨?_, fun i m hi => ?_, fun m hm => ?_, fun id h =>
    ⟨(mutateClass_of_not_issued h).1, materialize_of_not_issued h⟩, fun id failure h => ?_⟩
  · exact (mutateClass_of_misses_sites (Pass.misses_start_none _ _)).1
  · rw [getElem?_findMutations] at hi
    obtain ⟨s, -, rfl⟩ := Option.map_eq_some_iff.mp hi
    rfl
  · obtain ⟨n, s, hs, rfl⟩ := exists_site_of_mem hm
    obtain ⟨p, hp, hlive, -, -⟩ := mutateClass_id hs
    refine ⟨⟨_, materialize_id hs, rfl⟩, ?_⟩
    have hname : s.policy.name = Policy.inert.name ↔ s.policy = .inert :=
      ⟨Policy.name_injective, congrArg _⟩
    change (mutateClass c policies (some (s.id (.ofClass c) n))).2.liveAnswers =
      if s.policy.name = Policy.inert.name then 0 else 1
    rw [hp, hlive]
    simp only [hname]
  · by_cases hissued : ∀ m ∈ findMutations c policies, m.id ≠ id
    · exact (Except.error.inj (h.symm.trans (materialize_of_not_issued hissued)))
    · simp only [Classical.not_forall, Decidable.not_not] at hissued
      obtain ⟨m, hm, rfl⟩ := hissued
      obtain ⟨n, s, hs, rfl⟩ := exists_site_of_mem hm
      exact nomatch h.symm.trans (materialize_id hs)

/-- A method that loads one secure address has one identifier, which has a mutant; with another
description the identifier stands for nothing. -/
theorem one_live_site_of_secure_address :
    let c : ClassFile := { ClassFile.empty "a/B" with
      methods := [.plain "m" "()V" publicFlag [.line 7 0, .loadText "https://a", .simple .pop]] }
    let id : MutationId :=
      ⟨"https_to_http", "a/B", "m()V", 0, "Changed 'https' to 'http' in String"⟩
    findMutations c Policy.defaults = [⟨id, 7, none⟩] ∧
      ((∃ mutant, materialize c Policy.defaults id = .ok mutant ∧
          mutant.mutation = ⟨id, 7, none⟩) ∧
        (mutateClass c Policy.defaults (some id)).2.liveAnswers = 1) ∧
      ((mutateClass c Policy.defaults (some { id with description := "" })).1 = c ∧
        materialize c Policy.defaults { id with description := "" } =
          .error (.mutationNotFound { id with description := "" })) := by
  intro c id
  have hfound : findMutations c Policy.defaults = [⟨id, 7, none⟩] := by
    subst c id
    decide
  obtain ⟨-, -, hissued, hother, -⟩ := one_live_site_per_identifier c Policy.defaults
  have hmem : ⟨id, 7, none⟩ ∈ findMutations c Policy.defaults := by
    rw [hfound]
    exact List.mem_singleton_self _
  obtain ⟨hmutant, hlive⟩ := hissued ⟨id, 7, none⟩ hmem
  have hpolicy : id.policy ≠ Policy.inert.name := by decide
  rw [if_neg hpolicy] at hlive
  -- `exact hlive` would compare the two passes by running them
  refine ⟨hfound, ⟨hmutant, by simpa only using hlive⟩, hother { id with description := "" } ?_⟩
  rw [hfound]
  decide

end MutationTesting
