import MutationTesting.Proofs.Mutation.Chain
/-!
# Passes over a class

What the chain of one method does is carried over to all methods of a class. A pass whose target is
none of the identifiers of the class leaves the class as it is and numbers all its sites. A pass
whose target belongs to a site makes that one site live: the methods before are left as they are
and their sites numbered, the method of the site gets other code, and the methods behind are left
as they are because the target is past.

## Main results

* `mutateClass_of_misses` — a pass without a live site
* `mutateClass_of_live` — a pass with a live site
* `findMutations_eq` — the sites that a pass finds
-/

namespace MutationTesting

namespace Pass

/-- The pass in a method and at a line. -/
def goTo (p : Pass) (method : String) (line : UInt32) : Pass := { p with method, line }

@[simp] theorem sites_goTo (p : Pass) (method : String) (line : UInt32) :
    (p.goTo method line).sites = p.sites := rfl

@[simp] theorem goTo_classInfo (p : Pass) (method : String) (line : UInt32) :
    (p.goTo method line).classInfo = p.classInfo := rfl

@[simp] theorem goTo_target (p : Pass) (method : String) (line : UInt32) :
    (p.goTo method line).target = p.target := rfl

@[simp] theorem issued_goTo (p : Pass) (method : String) (line : UInt32) :
    (p.goTo method line).issued = p.issued := rfl

@[simp] theorem goTo_goTo (p : Pass) (method method' : String) (line line' : UInt32) :
    (p.goTo method line).goTo method' line' = p.goTo method' line' := rfl

theorem noteAll_goTo (p : Pass) (method : String) (line : UInt32) (sites : List Site) :
    (p.goTo method line).noteAll sites = (p.noteAll sites).goTo method line := by
  induction sites generalizing p with
  | nil => rfl
  | cons s rest ih => exact ih (p.note s)

theorem misses_goTo {p : Pass} {method : String} {line : UInt32} {sites : List Site} :
    (p.goTo method line).Misses sites ↔ p.Misses sites := by
  rw [misses_iff, misses_iff]
  rfl

theorem grows_goTo (p : Pass) (method : String) (line : UInt32) : p.Grows (p.goTo method line) :=
  ⟨rfl, rfl, rfl, List.prefix_refl _, id⟩

/-- Once a site with the target for its identifier is registered, the target is past. -/
theorem isPast_answered_note {p : Pass} {sites : List Site} {s : Site}
    (h : p.target = some (s.id p.classInfo (p.issued + sites.length))) :
    ((p.noteAll sites).note s).answered.IsPast := by
  intro id hid
  obtain rfl := Option.some.inj (((p.noteAll_target sites).symm.trans hid).symm.trans h)
  change p.issued + sites.length < (p.noteAll sites).issued + 1
  rw [issued_noteAll]
  exact Nat.lt_succ_self _

/-- A pass without a target has no live site. -/
theorem misses_start_none (classInfo : ClassInfo) (sites : List Site) :
    (start classInfo none).Misses sites := misses_iff.mpr fun _ _ _ _ h => nomatch h

/-- Where a pass is does not matter for what grows from it. -/
theorem Grows.of_goTo {p q : Pass} (method : String) (line : UInt32)
    (h : (p.goTo method line).Grows q) : p.Grows q := (p.grows_goTo method line).trans h

end Pass

/-! ### The code of a method -/

namespace Policy

/-- The stages of policies for a method behind the one that keeps the line up to date. -/
def trackedStages (m : MethodInfo) (policies : List Policy) : Transducer :=
  Transducer.trackLines.andThen (stages m policies)

/-- The state in which the stages behind the tracking of lines are in the given one. -/
def tracked {m : MethodInfo} {policies : List Policy} (s : (stages m policies).State) :
    (trackedStages m policies).State := ((), s)

/-- In no stage behind the tracking of lines the body has ended. -/
def isTrackedOpen (m : MethodInfo) (policies : List Policy)
    (s : (trackedStages m policies).State) : Bool := isOpen m policies s.2

theorem step_trackedStages {m : MethodInfo} {policies : List Policy}
    {s s' : (stages m policies).State} {i : Instruction} {out : List Instruction} {p p' : Pass}
    (h : (stages m policies).step s i (p.goTo p.method (i.sourceLine?.getD p.line)) =
      (s', out, p')) :
    (trackedStages m policies).step (tracked s) i p = (tracked s', out, p') := by
  have htrack : Transducer.trackLines.step () i p =
      ((), [i], p.goTo p.method (i.sourceLine?.getD p.line)) := by
    cases i <;> rfl
  exact Transducer.step_andThen htrack (Transducer.run_singleton h)

theorem goesThrough_trackedStages (m : MethodInfo) (policies : List Policy) :
    (trackedStages m policies).GoesThrough (isTrackedOpen m policies) := by
  rintro ⟨⟨⟩, s⟩ i p hp
  obtain ⟨s', p', hstep, hopen, hgrows⟩ := goesThrough_stages policies s i
    (p.goTo p.method (i.sourceLine?.getD p.line)) ((p.grows_goTo _ _).isPast hp)
  exact ⟨tracked s', p', step_trackedStages hstep, hopen, hgrows.of_goTo _ _⟩

variable {classInfo : ClassInfo} {policies : List Policy} (methods : Split Method)

/-- Code without a live site is emitted as it is, and its sites are registered in order. -/
theorem run_trackedStages_of_misses (before mid after : List Instruction) {p : Pass}
    (hmethod : p.method = methods.item.signature) (hline : p.line = lineAfter before)
    (hmiss : p.Misses (methods.sitesAt classInfo policies (splitsFrom before mid after))) :
    (trackedStages ⟨classInfo, methods.item.name⟩ policies).run
        (tracked (resting _ before policies)) mid p =
      (tracked (resting _ (before ++ mid) policies), mid,
        (p.noteAll (methods.sitesAt classInfo policies (splitsFrom before mid after))).goTo
          methods.item.signature (lineAfter (before ++ mid))) := by
  induction mid generalizing before p with
  | nil =>
    rw [List.append_nil, ← hmethod, ← hline]
    rfl
  | cons x mid ih =>
    rw [splitsFrom, Split.sitesAt, List.flatMap_cons] at hmiss ⊢
    obtain ⟨hx, hmid⟩ := Pass.misses_append.mp hmiss
    have hline' : x.sourceLine?.getD p.line = lineAfter (before ++ [x]) := by
      rw [lineAfter_concat, hline]
    have hat : (p.goTo p.method (x.sourceLine?.getD p.line)).IsAt
        ⟨methods, ⟨before, x, mid ++ after⟩⟩ := ⟨hmethod, hline'⟩
    have hstep := step_trackedStages (step_stages_of_misses hat (Pass.misses_goTo.mpr hx))
    rw [Pass.noteAll_goTo] at hstep
    have hrun := ih (before ++ [x])
      (p := (p.noteAll (Place.sitesOf classInfo policies ⟨methods, ⟨before, x, mid ++ after⟩⟩)).goTo
        p.method (x.sourceLine?.getD p.line)) hmethod hline' (Pass.misses_goTo.mpr hmid)
    rw [Pass.noteAll_goTo, List.append_assoc] at hrun
    rw [Pass.noteAll_append]
    exact Transducer.run_cons hstep hrun

theorem start_stages (m : MethodInfo) (policies : List Policy) :
    (stages m policies).start = resting m [] policies := by
  induction policies with
  | nil => rfl
  | cons q rest ih => exact congrArg (Prod.mk _) ih

end Policy

section Code

variable {policies : List Policy}

/-- The code of a method is what its stages emit. -/
theorem transformMethod_eq_of_run {m : Method} {p p' : Pass} {code : List Instruction}
    {s : (Policy.trackedStages ⟨p.classInfo, m.name⟩ (p.classInfo.heeded policies)).State}
    (h : (Policy.trackedStages ⟨p.classInfo, m.name⟩ (p.classInfo.heeded policies)).run
      (Policy.tracked (Policy.resting _ [] _)) m.instructions (p.goTo m.signature 0) =
        (s, code, p')) :
    transformMethod policies m p = (code, p') := by
  rw [← Policy.start_stages] at h
  have hrun : (methodChain policies p.classInfo m).run (methodChain policies p.classInfo m).start
      m.instructions (p.enterMethod m.signature) = (s, code, p') := h
  rw [transformMethod, hrun]

theorem transformMethod_of_misses {methods : Split Method} {p : Pass}
    (hmiss : p.Misses (methods.sitesOf p.classInfo (p.classInfo.heeded policies))) :
    transformMethod policies methods.item p = (methods.item.instructions,
      (p.noteAll (methods.sitesOf p.classInfo (p.classInfo.heeded policies))).goTo
        methods.item.signature (lineAfter methods.item.instructions)) := by
  have hrun := Policy.run_trackedStages_of_misses methods [] methods.item.instructions []
    (p := p.goTo methods.item.signature 0) rfl rfl (Pass.misses_goTo.mpr hmiss)
  rw [Pass.noteAll_goTo] at hrun
  exact transformMethod_eq_of_run hrun

theorem transformMethod_of_isPast (policies : List Policy) (m : Method) {p : Pass} (hp : p.IsPast) :
    ∃ p', transformMethod policies m p = (m.instructions, p') ∧ p.Grows p' := by
  obtain ⟨s, p', hrun, -, hgrows⟩ :=
    (Policy.goesThrough_trackedStages ⟨p.classInfo, m.name⟩ (p.classInfo.heeded policies)).run
      (Policy.tracked (Policy.resting _ [] _)) m.instructions
      ((p.grows_goTo m.signature 0).isPast hp)
  rw [Policy.isTrackedOpen, Policy.tracked, Policy.isOpen_resting, if_pos rfl] at hrun
  exact ⟨p', transformMethod_eq_of_run hrun, hgrows.of_goTo _ _⟩

/-- The code of the method of a live site, and what has been registered before the site. -/
theorem transformMethod_of_live {classInfo : ClassInfo} {p : Pass} {s : Site}
    {front back : List Policy} {first : List Site} {r : List Instruction}
    (hinfo : p.classInfo = classInfo)
    (hcode : s.place.code.whole = s.place.method.instructions)
    (hpolicies : classInfo.heeded policies = front ++ s.policy :: back)
    (hf : s.place.finding? classInfo s.policy = some s.finding)
    (hr : s.finding.replacement = some r)
    (hfirst : first = s.place.sitesInItemsBefore classInfo (classInfo.heeded policies) ++
      s.place.sitesOf classInfo front)
    (hmiss : p.Misses first) (hlive : p.target = some (s.id classInfo (p.issued + first.length))) :
    ∃ p', transformMethod policies s.place.method p = (s.code, p') ∧
      ((p.noteAll first).note s).answered.Grows p' := by
  subst hinfo
  generalize hearlier : s.place.sitesInItemsBefore p.classInfo (p.classInfo.heeded policies) =
    earlier at hfirst
  subst hfirst
  obtain ⟨hbefore, hfront⟩ := Pass.misses_append.mp hmiss
  have hline : s.place.code.item.sourceLine?.getD (lineAfter s.place.code.before) =
      s.place.line := (lineAfter_concat _ _).symm
  -- the items before the site
  rw [← hearlier] at hbefore
  have hrun := Policy.run_trackedStages_of_misses s.place.methods [] s.place.code.before _
    (p := p.goTo s.place.method.signature 0) rfl rfl (Pass.misses_goTo.mpr hbefore)
  rw [Pass.noteAll_goTo, List.nil_append, Pass.goTo_goTo] at hrun
  rw [Place.sitesInItemsBefore] at hearlier
  rw [hearlier] at hrun
  -- the item of the site
  have hat : ((p.noteAll earlier).goTo s.place.method.signature s.place.line).IsAt s.place :=
    ⟨rfl, rfl⟩
  have htarget : p.target = some (s.id p.classInfo
      (p.issued + earlier.length + (s.place.sitesOf p.classInfo front).length)) := by
    rw [hlive, List.length_append, Nat.add_assoc]
  obtain ⟨t, p₁, hstep, hopen, hp₁⟩ := Policy.step_stages_of_live hpolicies hat
    (Pass.misses_goTo.mpr hfront) hf hr (by simpa using htarget)
  have hlater : ((p.noteAll (earlier ++ s.place.sitesOf p.classInfo front)).note s).answered.Grows
      p₁ := by
    rw [Pass.noteAll_goTo] at hp₁
    rw [Pass.noteAll_append]
    exact hp₁.of_goTo s.place.method.signature s.place.line
  rw [← hline] at hstep
  -- the items behind the site
  have hpast : ((p.noteAll (earlier ++ s.place.sitesOf p.classInfo front)).note
      s).answered.IsPast := Pass.isPast_answered_note hlive
  obtain ⟨t', p₂, hafter, -, hp₂⟩ := (Policy.goesThrough_trackedStages _ _).run (Policy.tracked t)
    s.place.code.after (hlater.isPast hpast)
  have hwhole := Transducer.run_append hrun
    (Transducer.run_cons (Policy.step_trackedStages hstep) hafter)
  have hout : s.code = s.place.code.before ++ (r ++
      if Policy.isTrackedOpen _ _ (Policy.tracked t) then s.place.code.after else []) := by
    rw [Site.code_of_some hr, Policy.isTrackedOpen, Policy.tracked, hopen]
    cases s.finding.endsBody <;> rfl
  rw [← hout] at hwhole
  have hcode' : s.place.code.before ++ s.place.code.item :: s.place.code.after =
      s.place.method.instructions := hcode
  rw [hcode'] at hwhole
  exact ⟨p₂, transformMethod_eq_of_run hwhole, hlater.trans hp₂⟩

end Code

/-! ### The methods of a class -/

section Methods

variable {policies : List Policy}

theorem mutateMethod_eq {m : Method} {p p' : Pass} {code : List Instruction}
    (h : transformMethod policies m p = (code, p')) :
    mutateMethod policies m p = (m.withCode code, p') := by
  rw [mutateMethod, h]
  rfl

theorem mutateMethods_cons {m m' : Method} {ms ms' : List Method} {p p₁ p₂ : Pass}
    (hm : mutateMethod policies m p = (m', p₁)) (hms : mutateMethods policies ms p₁ = (ms', p₂)) :
    mutateMethods policies (m :: ms) p = (m' :: ms', p₂) := by
  simp only [mutateMethods, hm, hms]

theorem mutateMethods_append {first first' rest rest' : List Method} {p p₁ p₂ : Pass}
    (hfirst : mutateMethods policies first p = (first', p₁))
    (hrest : mutateMethods policies rest p₁ = (rest', p₂)) :
    mutateMethods policies (first ++ rest) p = (first' ++ rest', p₂) := by
  induction first generalizing p first' with
  | nil =>
    obtain ⟨rfl, rfl⟩ : [] = first' ∧ p = p₁ := by simpa [mutateMethods] using hfirst
    exact hrest
  | cons m first ih =>
    obtain ⟨rfl, rfl⟩ : _ = first' ∧ _ = p₁ := by simpa [mutateMethods] using hfirst
    exact mutateMethods_cons rfl (ih rfl)

/-- Methods without a live site are left as they are, and their sites are registered in order. -/
theorem mutateMethods_of_misses {classInfo : ClassInfo} (before mid after : List Method) {p : Pass}
    (hinfo : p.classInfo = classInfo)
    (hmiss : p.Misses ((splitsFrom before mid after).flatMap
      (Split.sitesOf classInfo (classInfo.heeded policies)))) :
    ∃ method line, mutateMethods policies mid p =
      (mid, (p.noteAll ((splitsFrom before mid after).flatMap
        (Split.sitesOf classInfo (classInfo.heeded policies)))).goTo method line) := by
  subst hinfo
  induction mid generalizing before p with
  | nil => exact ⟨p.method, p.line, rfl⟩
  | cons m mid ih =>
    rw [splitsFrom, List.flatMap_cons] at hmiss ⊢
    obtain ⟨hm, hmid⟩ := Pass.misses_append.mp hmiss
    have hstep := mutateMethod_eq (transformMethod_of_misses hm)
    rw [Method.withCode_self] at hstep
    obtain ⟨method, line, hrest⟩ := ih (before ++ [m])
      (p := (p.noteAll (Split.sitesOf p.classInfo (p.classInfo.heeded policies)
        ⟨before, m, mid ++ after⟩)).goTo m.signature (lineAfter m.instructions))
      (Pass.misses_goTo.mpr (by simpa using hmid))
    refine ⟨method, line, ?_⟩
    rw [mutateMethods_cons hstep hrest]
    simp [Pass.noteAll_goTo]

theorem mutateMethods_of_isPast (policies : List Policy) (ms : List Method) {p : Pass}
    (hp : p.IsPast) :
    ∃ p', mutateMethods policies ms p = (ms, p') ∧ p.Grows p' := by
  induction ms generalizing p with
  | nil => exact ⟨p, rfl, .refl p⟩
  | cons m ms ih =>
    obtain ⟨p₁, hm, hp₁⟩ := transformMethod_of_isPast policies m hp
    obtain ⟨p₂, hms, hp₂⟩ := ih (hp₁.isPast hp)
    have hstep := mutateMethod_eq hm
    rw [Method.withCode_self] at hstep
    exact ⟨p₂, mutateMethods_cons hstep hms, hp₁.trans hp₂⟩

end Methods

/-! ### The class -/

/-- **A pass without a live site** leaves the class as it is and registers all its sites. -/
theorem mutateClass_of_misses {c : ClassFile} {policies : List Policy} {target : Option MutationId}
    (hmiss : (Pass.start (.ofClass c) target).Misses (c.sitesOf policies)) :
    ∃ method line, mutateClass c policies target =
      (c, ((Pass.start (.ofClass c) target).noteAll (c.sitesOf policies)).goTo method line) := by
  rw [ClassFile.sitesOf_eq] at hmiss ⊢
  obtain ⟨method, line, h⟩ := mutateMethods_of_misses [] c.methods [] rfl hmiss
  refine ⟨method, line, ?_⟩
  rw [mutateClass, h]
  rfl

/-- **A pass with a live site** ends with the class in which the site is live. One site is told that
it is live, and the sites up to it are registered as in any other pass. -/
theorem mutateClass_of_live {c : ClassFile} {policies : List Policy} {first rest : List Site}
    {s : Site} {r : List Instruction} (h : c.sitesOf policies = first ++ s :: rest)
    (hr : s.finding.replacement = some r) :
    ∃ p, mutateClass c policies (some (s.id (.ofClass c) first.length)) = (s.mutate c, p) ∧
      (((Pass.start (.ofClass c) (some (s.id (.ofClass c) first.length))).noteAll first).note
        s).answered.Grows p := by
  obtain ⟨-, -, hplace, hf⟩ := ClassFile.mem_sitesOf.mp (h ▸ List.mem_append_right first
    (List.mem_cons_self ..) : s ∈ c.sitesOf policies)
  obtain ⟨hmethods, hcode⟩ := ClassFile.mem_places.mp hplace
  obtain ⟨front, back, hpolicies, hfirst⟩ := ClassFile.sites_before h
  generalize hinMethod : s.place.sitesInItemsBefore _ _ ++ _ = inMethod at hfirst
  generalize hbefore : s.place.sitesInMethodsBefore _ _ = before at hfirst
  generalize hstart : Pass.start (.ofClass c) (some (s.id (.ofClass c) first.length)) = p₀
  have hinfo : p₀.classInfo = .ofClass c := by rw [← hstart]; rfl
  have htarget : p₀.target = some (s.id (.ofClass c) first.length) := by rw [← hstart]; rfl
  have hissued : p₀.issued = 0 := by rw [← hstart]; rfl
  have hmiss : p₀.Misses first := Pass.misses_of_le htarget (by rw [hissued]; simp [Site.id])
  rw [hfirst] at hmiss
  obtain ⟨hmissBefore, hmissMethod⟩ := Pass.misses_append.mp hmiss
  -- the methods before the site
  rw [← hbefore, Place.sitesInMethodsBefore] at hmissBefore
  obtain ⟨method, line, hrunBefore⟩ := mutateMethods_of_misses _ _ _ hinfo hmissBefore
  rw [Place.sitesInMethodsBefore] at hbefore
  rw [hbefore] at hrunBefore
  -- the method of the site
  have hlive : ((p₀.noteAll before).goTo method line).target = some (s.id (.ofClass c)
      (((p₀.noteAll before).goTo method line).issued + inMethod.length)) := by
    rw [Pass.issued_goTo, Pass.issued_noteAll, hissued, Nat.zero_add, ← List.length_append,
      ← hfirst, ← htarget]
    exact p₀.noteAll_target before
  obtain ⟨p₁, hsite, hp₁⟩ := transformMethod_of_live
    (p := (p₀.noteAll before).goTo method line) (by simpa using hinfo) hcode hpolicies hf hr
    hinMethod.symm (Pass.misses_goTo.mpr hmissMethod) hlive
  have hgrows : ((p₀.noteAll first).note s).answered.Grows p₁ := by
    rw [hfirst, Pass.noteAll_append]
    rw [Pass.noteAll_goTo] at hp₁
    exact hp₁.of_goTo method line
  -- the methods behind the site
  have hpast : ((p₀.noteAll first).note s).answered.IsPast :=
    Pass.isPast_answered_note (by rw [hissued, Nat.zero_add, hinfo, htarget])
  obtain ⟨p₂, hafter, hp₂⟩ := mutateMethods_of_isPast policies
    s.place.methods.after (hgrows.isPast hpast)
  have hall := mutateMethods_append hrunBefore (mutateMethods_cons (mutateMethod_eq hsite) hafter)
  rw [show s.place.methods.before ++ s.place.method :: s.place.methods.after = c.methods from
    hmethods] at hall
  refine ⟨p₂, ?_, hgrows.trans hp₂⟩
  rw [mutateClass, hstart, hall]
  rfl

/-- The sites that a pass finds are those of the policies, numbered in order. -/
theorem findMutations_eq (c : ClassFile) (policies : List Policy) :
    findMutations c policies =
      (c.sitesOf policies).mapIdx fun n s => s.mutation (.ofClass c) n := by
  obtain ⟨method, line, h⟩ :=
    mutateClass_of_misses (Pass.misses_start_none (.ofClass c) (c.sitesOf policies))
  rw [findMutations, h, Pass.sites_goTo, Pass.sites_noteAll]
  simp [Pass.start, Pass.sites, Pass.issued]

end MutationTesting
