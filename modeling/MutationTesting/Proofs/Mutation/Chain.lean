import MutationTesting.Proofs.Mutation.Site
/-!
# What a chain of policies does in a pass

A stage that holds no live site emits what it reads, so as long as the target of the pass is not
met every stage of a chain sees the same stream, and what is registered are the sites of the items
in order. This ends with the live site: later stages see its replacement. But then the index of the
target has been issued, no later identifier can be equal to it, and from there on every stage emits
what it reads again, or nothing once the body has ended. What is registered there no longer matters.

So a run through a chain has three parts, and there is a lemma for each of them.

## Main definitions

* `Pass.noteAll` — a pass after the registration of sites
* `Pass.Misses` — none of them is live
* `Pass.IsPast` — the index of the target has been issued
* `Pass.Grows` — a later state of a pass in which nothing was live in between
* `Transducer.GoesThrough` — what is read is emitted once the target is past
* `Policy.stages`, `Policy.resting`, `Policy.isOpen` — a chain, and its states

## Main results

* `step_stages_of_misses` — an item before the live site, or without one
* `step_stages_of_live` — the item of the live site
* `goesThrough_stages` — the items after it
-/

namespace MutationTesting

/-! ### Registration -/

namespace Pass

/-- The pass after a site was registered. -/
def note (p : Pass) (s : Site) : Pass :=
  { p with latest := s.mutation p.classInfo p.issued :: p.latest }

/-- The pass after sites were registered, one after the other. -/
def noteAll (p : Pass) (sites : List Site) : Pass := sites.foldl note p

/-- No site is live when the sites are registered, one after the other. -/
def Misses (p : Pass) : List Site → Prop
  | [] => True
  | s :: rest =>
    (s.finding.replacement = none ∨ p.target ≠ some (s.id p.classInfo p.issued)) ∧
      (p.note s).Misses rest

/-- The pass is in the method and at the line of a place. -/
structure IsAt (p : Pass) (pl : Place) : Prop where
  method : p.method = pl.method.signature
  line : p.line = pl.line

@[simp] theorem noteAll_nil (p : Pass) : p.noteAll [] = p := rfl

@[simp] theorem noteAll_cons (p : Pass) (s : Site) (rest : List Site) :
    p.noteAll (s :: rest) = (p.note s).noteAll rest := rfl

@[simp] theorem noteAll_append (p : Pass) (first rest : List Site) :
    p.noteAll (first ++ rest) = (p.noteAll first).noteAll rest := List.foldl_append

@[simp] theorem issued_note (p : Pass) (s : Site) : (p.note s).issued = p.issued + 1 := rfl

@[simp] theorem sites_note (p : Pass) (s : Site) :
    (p.note s).sites = p.sites ++ [s.mutation p.classInfo p.issued] := by
  simp [sites, note]

@[simp] theorem issued_noteAll (p : Pass) (sites : List Site) :
    (p.noteAll sites).issued = p.issued + sites.length := by
  induction sites generalizing p with
  | nil => rfl
  | cons s rest ih => rw [noteAll_cons, ih, issued_note, List.length_cons]; omega

/-- Sites that are registered in order are numbered in order. -/
theorem sites_noteAll (p : Pass) (sites : List Site) :
    (p.noteAll sites).sites =
      p.sites ++ sites.mapIdx fun n s => s.mutation p.classInfo (p.issued + n) := by
  induction sites generalizing p with
  | nil => simp
  | cons s rest ih =>
    rw [noteAll_cons, ih, sites_note, issued_note, List.mapIdx_cons, List.append_assoc]
    simp only [List.singleton_append, Nat.add_assoc, Nat.add_comm 1, Nat.add_zero]
    rfl

theorem misses_append {p : Pass} {first rest : List Site} :
    p.Misses (first ++ rest) ↔ p.Misses first ∧ (p.noteAll first).Misses rest := by
  induction first generalizing p with
  | nil => simp [Misses]
  | cons s first ih => simp only [List.cons_append, Misses, noteAll_cons, ih, and_assoc]

/-- The sites are missed iff the target is none of the identifiers that they get, those of sites
without a replacement apart. -/
theorem misses_iff {p : Pass} {sites : List Site} :
    p.Misses sites ↔ ∀ (n : Nat) (s : Site), sites[n]? = some s → s.finding.replacement ≠ none →
      p.target ≠ some (s.id p.classInfo (p.issued + n)) := by
  induction sites generalizing p with
  | nil => simp [Misses]
  | cons s rest ih =>
    rw [Misses, ih]
    constructor
    · rintro ⟨hs, hrest⟩ n s' hn hr
      cases n with
      | zero =>
        obtain rfl : s = s' := by simpa using hn
        exact hs.resolve_left hr
      | succ n =>
        have := hrest n s' (by simpa using hn) hr
        rwa [issued_note, Nat.add_assoc, Nat.add_comm 1] at this
    · intro h
      refine ⟨Classical.or_iff_not_imp_left.mpr fun hr => h 0 s rfl hr, fun n s' hn hr => ?_⟩
      have := h (n + 1) s' (by simpa using hn) hr
      rwa [issued_note, Nat.add_assoc, Nat.add_comm 1]

/-- Sites that are registered before the index of the target is issued are missed. -/
theorem misses_of_le {p : Pass} {sites : List Site} {id : MutationId} (ht : p.target = some id)
    (hle : p.issued + sites.length ≤ id.index) : p.Misses sites := by
  refine misses_iff.mpr fun n s hn _ heq => ?_
  obtain rfl := Option.some.inj (ht.symm.trans heq)
  have hlt : n < sites.length := (List.getElem?_eq_some_iff.mp hn).1
  have : p.issued + sites.length ≤ p.issued + n := hle
  omega

/-- The index of the target has been issued. -/
def IsPast (p : Pass) : Prop := ∀ id, p.target = some id → id.index < p.issued

/-- The index of every site says how many sites were registered before it. -/
def IsNumbered (p : Pass) : Prop := p.sites.map (·.id.index) = List.range p.issued

/-- The pass after a site has been told that it is live. -/
def answered (p : Pass) : Pass := { p with liveAnswers := p.liveAnswers + 1 }

/-- `q` is a later state of the pass `p`, and no site was live in between. -/
structure Grows (p q : Pass) : Prop where
  classInfo : q.classInfo = p.classInfo
  target : q.target = p.target
  liveAnswers : q.liveAnswers = p.liveAnswers
  sites : p.sites <+: q.sites
  numbered : p.IsNumbered → q.IsNumbered

theorem length_sites (p : Pass) : p.sites.length = p.issued := by simp [sites, issued]

theorem Grows.refl (p : Pass) : p.Grows p := ⟨rfl, rfl, rfl, List.prefix_refl _, id⟩

theorem Grows.trans {p q r : Pass} (h : p.Grows q) (h' : q.Grows r) : p.Grows r :=
  ⟨h'.classInfo.trans h.classInfo, h'.target.trans h.target, h'.liveAnswers.trans h.liveAnswers,
    h.sites.trans h'.sites, h'.numbered ∘ h.numbered⟩

theorem Grows.issued_le {p q : Pass} (h : p.Grows q) : p.issued ≤ q.issued := by
  rw [← length_sites, ← length_sites]
  exact h.sites.length_le

theorem Grows.isPast {p q : Pass} (h : p.Grows q) (hp : p.IsPast) : q.IsPast := fun id hid =>
  Nat.lt_of_lt_of_le (hp id (h.target ▸ hid)) h.issued_le

theorem grows_register (p : Pass) (policy description : String) :
    p.Grows (p.register policy description).2 := by
  refine ⟨rfl, rfl, rfl, ?_, fun h => ?_⟩
  · rw [sites_register]
    exact List.prefix_append _ _
  · rw [IsNumbered, sites_register, issued_register, List.map_append, h, List.range_succ]
    rfl

theorem grows_note (p : Pass) (s : Site) : p.Grows (p.note s) := by
  refine ⟨rfl, rfl, rfl, ?_, fun h => ?_⟩
  · rw [sites_note]
    exact List.prefix_append _ _
  · rw [IsNumbered, sites_note, issued_note, List.map_append, h, List.range_succ]
    rfl

theorem grows_noteAll (p : Pass) (sites : List Site) : p.Grows (p.noteAll sites) := by
  induction sites generalizing p with
  | nil => exact .refl p
  | cons s rest ih => exact (p.grows_note s).trans (ih _)

@[simp] theorem noteAll_classInfo (p : Pass) (sites : List Site) :
    (p.noteAll sites).classInfo = p.classInfo := (p.grows_noteAll sites).classInfo

@[simp] theorem noteAll_target (p : Pass) (sites : List Site) :
    (p.noteAll sites).target = p.target := (p.grows_noteAll sites).target

/-- At the place of a site its policy gets the identifier that belongs to the site. -/
theorem IsAt.id_register {p : Pass} {s : Site} (h : p.IsAt s.place) :
    (p.register s.policy.name s.finding.description).1 = s.id p.classInfo p.issued := by
  rw [register, Site.id, h.method]

theorem IsAt.register {p : Pass} {s : Site} (h : p.IsAt s.place) :
    (p.register s.policy.name s.finding.description).2 = p.note s := by
  rw [Pass.register, Pass.note, Site.mutation, Site.id, h.method, h.line]

theorem IsAt.note {p : Pass} {pl : Place} (h : p.IsAt pl) (s : Site) : (p.note s).IsAt pl :=
  ⟨h.method, h.line⟩

theorem IsAt.noteAll {p : Pass} {pl : Place} (h : p.IsAt pl) (sites : List Site) :
    (p.noteAll sites).IsAt pl := by
  induction sites generalizing p with
  | nil => exact h
  | cons s rest ih => exact ih (h.note s)

end Pass

/-! ### Runs of transducers -/

namespace Transducer

variable (t : Transducer)

@[simp] theorem run_nil (s : t.State) (p : Pass) : t.run s [] p = (s, [], p) := rfl

variable {t}

theorem run_cons {s s₁ s₂ : t.State} {i : Instruction} {rest out later : List Instruction}
    {p p₁ p₂ : Pass} (hstep : t.step s i p = (s₁, out, p₁))
    (hrun : t.run s₁ rest p₁ = (s₂, later, p₂)) :
    t.run s (i :: rest) p = (s₂, out ++ later, p₂) := by
  simp only [run, hstep, hrun]

theorem run_singleton {s s' : t.State} {i : Instruction} {out : List Instruction} {p p' : Pass}
    (h : t.step s i p = (s', out, p')) : t.run s [i] p = (s', out, p') := by
  rw [run_cons h (t.run_nil s' p'), List.append_nil]

theorem run_append {s s₁ s₂ : t.State} {first rest out later : List Instruction} {p p₁ p₂ : Pass}
    (hfirst : t.run s first p = (s₁, out, p₁)) (hrest : t.run s₁ rest p₁ = (s₂, later, p₂)) :
    t.run s (first ++ rest) p = (s₂, out ++ later, p₂) := by
  induction first generalizing s p out with
  | nil =>
    obtain ⟨rfl, rfl, rfl⟩ : s = s₁ ∧ [] = out ∧ p = p₁ := by simpa using hfirst
    exact hrest
  | cons i first ih =>
    obtain ⟨rfl, rfl, rfl⟩ : _ = s₁ ∧ _ = out ∧ _ = p₁ := by simpa [run] using hfirst
    rw [List.cons_append, List.append_assoc]
    exact run_cons rfl (ih rfl)

/-- A step of two stages, of which the second reads what the first has emitted. -/
theorem step_andThen {a b : Transducer} {s s' : a.State} {t t' : b.State} {i : Instruction}
    {emitted out : List Instruction} {p p₁ p₂ : Pass} (ha : a.step s i p = (s', emitted, p₁))
    (hb : b.run t emitted p₁ = (t', out, p₂)) :
    (a.andThen b).step (s, t) i p = ((s', t'), out, p₂) := by
  simp only [andThen, ha, hb]

/-- Past its target, a pass changes nothing in the transducer but what is registered: items go
through in an open state and are dropped in any other, and a state stays open or closed. -/
def GoesThrough (t : Transducer) (isOpen : t.State → Bool) : Prop :=
  ∀ (s : t.State) (i : Instruction) (p : Pass), p.IsPast →
    ∃ s' p', t.step s i p = (s', if isOpen s then [i] else [], p') ∧ isOpen s' = isOpen s ∧
      p.Grows p'

theorem GoesThrough.run {t : Transducer} {isOpen : t.State → Bool} (h : t.GoesThrough isOpen)
    (s : t.State) (items : List Instruction) {p : Pass} (hp : p.IsPast) :
    ∃ s' p', t.run s items p = (s', if isOpen s then items else [], p') ∧ isOpen s' = isOpen s ∧
      p.Grows p' := by
  induction items generalizing s p with
  | nil => exact ⟨s, p, by simp, rfl, .refl p⟩
  | cons i rest ih =>
    obtain ⟨s₁, p₁, hstep, hopen₁, hp₁⟩ := h s i p hp
    obtain ⟨s₂, p₂, hrun, hopen₂, hp₂⟩ := ih s₁ (hp₁.isPast hp)
    refine ⟨s₂, p₂, ?_, hopen₂.trans hopen₁, hp₁.trans hp₂⟩
    rw [run_cons hstep hrun, hopen₁]
    cases isOpen s <;> rfl

end Transducer

/-! ### One stage -/

namespace Inspector

variable (I : Inspector) (policy : String)

theorem step_transducer_of_ended (m : I.Memory) (i : Instruction) (p : Pass) :
    (I.transducer policy).step (true, m) i p = ((true, m), [], p) := rfl

theorem step_transducer_of_none {m : I.Memory} {i : Instruction} (p : Pass)
    (h : (I.inspect m i).2 = none) :
    (I.transducer policy).step (false, m) i p = ((false, (I.inspect m i).1), [i], p) := by
  simp [transducer, h]

theorem step_transducer_of_some {m : I.Memory} {i : Instruction} {p : Pass} {f : Finding}
    (h : (I.inspect m i).2 = some f)
    (hmiss : f.replacement = none ∨ p.target ≠ some (p.register policy f.description).1) :
    (I.transducer policy).step (false, m) i p =
      ((false, (I.inspect m i).1), [i], (p.register policy f.description).2) := by
  have htarget : (p.register policy f.description).2.target = p.target := rfl
  cases hr : f.replacement with
  | none => simp [transducer, h, hr]
  | some r =>
    have hne := hmiss.resolve_left (by simp [hr])
    simp [transducer, h, hr, Pass.ask, htarget, hne]

theorem step_transducer_of_live {m : I.Memory} {i : Instruction} {p : Pass} {f : Finding}
    {r : List Instruction} (h : (I.inspect m i).2 = some f) (hr : f.replacement = some r)
    (hlive : p.target = some (p.register policy f.description).1) :
    (I.transducer policy).step (false, m) i p =
      ((f.endsBody, (I.inspect m i).1), r, (p.register policy f.description).2.answered) := by
  have htarget : (p.register policy f.description).2.target = p.target := rfl
  simp [transducer, h, hr, Pass.ask, htarget, ← hlive, Pass.answered]

/-- Past its target, a pass changes nothing in a stage but what is registered. -/
theorem step_transducer_of_isPast (ended : Bool) (m : I.Memory) (i : Instruction) {p : Pass}
    (hp : p.IsPast) :
    ∃ m' p', (I.transducer policy).step (ended, m) i p =
      ((ended, m'), if ended then [] else [i], p') ∧ p.Grows p' := by
  cases ended with
  | true => exact ⟨m, p, I.step_transducer_of_ended policy m i p, .refl p⟩
  | false =>
    cases h : (I.inspect m i).2 with
    | none => exact ⟨_, p, I.step_transducer_of_none policy p h, .refl p⟩
    | some f =>
      have hne : p.target ≠ some (p.register policy f.description).1 := fun heq =>
        Nat.lt_irrefl _ (hp _ heq)
      exact ⟨_, _, I.step_transducer_of_some policy h (.inr hne), p.grows_register _ _⟩

end Inspector

/-! ### The chain of the policies -/

namespace Policy

/-- The stages of policies for a method. -/
def stages (m : MethodInfo) (policies : List Policy) : Transducer :=
  .chain (policies.map (stage m))

/-- The state of the stages after the items of a stream, of which none was a live site. -/
def resting (m : MethodInfo) (items : List Instruction) :
    (policies : List Policy) → (stages m policies).State
  | [] => ()
  | p :: rest => ((false, (p.inspector m).memoryAfter items), resting m items rest)

/-- In no stage the body has ended. -/
def isOpen (m : MethodInfo) : (policies : List Policy) → (stages m policies).State → Bool
  | [], _ => true
  | _ :: rest, (s, t) => !s.1 && isOpen m rest t

variable {m : MethodInfo}

@[simp] theorem isOpen_resting (items : List Instruction) (policies : List Policy) :
    isOpen m policies (resting m items policies) = true := by
  induction policies with
  | nil => rfl
  | cons p rest ih => simpa [isOpen, resting] using ih

/-- **After the live site.** A chain emits what it reads, until the body has ended. -/
theorem goesThrough_stages (policies : List Policy) :
    (stages m policies).GoesThrough (isOpen m policies) := by
  intro s i p hp
  induction policies generalizing p with
  | nil => exact ⟨s, p, rfl, rfl, .refl p⟩
  | cons q rest ih =>
    obtain ⟨⟨ended, memory⟩, t⟩ := s
    obtain ⟨memory', p₁, hstep, hp₁⟩ :=
      (q.inspector m).step_transducer_of_isPast q.name ended memory i hp
    cases ended with
    | true =>
      exact ⟨((true, memory'), t), p₁, Transducer.step_andThen hstep (Transducer.run_nil _ _ _),
        rfl, hp₁⟩
    | false =>
      obtain ⟨t', p₂, hrest, hopen, hp₂⟩ := ih t p₁ (hp₁.isPast hp)
      refine ⟨((false, memory'), t'), p₂,
        Transducer.step_andThen hstep (Transducer.run_singleton hrest), ?_, hp₁.trans hp₂⟩
      simpa [isOpen] using hopen

variable {classInfo : ClassInfo} {pl : Place}

/-- The stage of a policy at a place where it has no live site. -/
theorem step_stage_of_misses {q : Policy} {p : Pass} (hat : p.IsAt pl)
    (hmiss : p.Misses (pl.sitesOf classInfo [q])) :
    (stage (pl.methodInfo classInfo) q).step
        (false, (q.inspector (pl.methodInfo classInfo)).memoryAfter pl.code.before)
        pl.code.item p =
      ((false, (q.inspector (pl.methodInfo classInfo)).memoryAfter
        (pl.code.before ++ [pl.code.item])), [pl.code.item],
        p.noteAll (pl.sitesOf classInfo [q])) := by
  rw [Inspector.memoryAfter_concat]
  cases hf : pl.finding? classInfo q with
  | none =>
    have hsites : pl.sitesOf classInfo [q] = [] := by simp [Place.sitesOf, hf]
    rw [hsites]
    exact Inspector.step_transducer_of_none _ _ p hf
  | some f =>
    have hsites : pl.sitesOf classInfo [q] = [⟨pl, q, f⟩] := by simp [Place.sitesOf, hf]
    have hsite : p.IsAt (Site.mk pl q f).place := hat
    rw [hsites, Pass.Misses, ← hsite.id_register] at hmiss
    rw [hsites, Pass.noteAll_cons, Pass.noteAll_nil, ← hsite.register]
    exact Inspector.step_transducer_of_some _ _ hf hmiss.1

/-- **Before the live site.** A chain emits the item that it reads and registers its sites. -/
theorem step_stages_of_misses {policies : List Policy} {p : Pass} (hat : p.IsAt pl)
    (hmiss : p.Misses (pl.sitesOf classInfo policies)) :
    (stages (pl.methodInfo classInfo) policies).step
        (resting (pl.methodInfo classInfo) pl.code.before policies) pl.code.item p =
      (resting (pl.methodInfo classInfo) (pl.code.before ++ [pl.code.item]) policies,
        [pl.code.item], p.noteAll (pl.sitesOf classInfo policies)) := by
  induction policies generalizing p with
  | nil => rfl
  | cons q rest ih =>
    rw [Place.sitesOf_cons] at hmiss ⊢
    obtain ⟨hq, hrest⟩ := Pass.misses_append.mp hmiss
    have hlater := ih (hat.noteAll _) hrest
    rw [Pass.noteAll_append]
    exact Transducer.step_andThen (step_stage_of_misses hat hq) (Transducer.run_singleton hlater)

/-- **The live site.** The stages before its policy emit the item, its own stage emits the
replacement, and so does every stage behind. -/
theorem step_stages_of_live {policies front back : List Policy} {s : Site} {r : List Instruction}
    {p : Pass} (hpolicies : policies = front ++ s.policy :: back)
    (hat : p.IsAt s.place) (hmiss : p.Misses (s.place.sitesOf classInfo front))
    (hf : s.place.finding? classInfo s.policy = some s.finding)
    (hr : s.finding.replacement = some r)
    (hlive : p.target = some
      (s.id p.classInfo (p.issued + (s.place.sitesOf classInfo front).length))) :
    ∃ s' p', (stages (s.place.methodInfo classInfo) policies).step
        (resting (s.place.methodInfo classInfo) s.place.code.before policies)
        s.place.code.item p = (s', r, p') ∧
      isOpen _ _ s' = !s.finding.endsBody ∧
      ((p.noteAll (s.place.sitesOf classInfo front)).note s).answered.Grows p' := by
  subst hpolicies
  induction front generalizing p with
  | nil =>
    have htarget : p.target = some (p.register s.policy.name s.finding.description).1 := by
      rw [hlive, hat.id_register]
      rfl
    have hstep := Inspector.step_transducer_of_live _ s.policy.name hf hr htarget
    rw [hat.register] at hstep
    have hpast : (p.note s).answered.IsPast := by
      intro id hid
      obtain rfl := Option.some.inj (hid.symm.trans hlive)
      exact Nat.lt_succ_self _
    obtain ⟨t, p', hrun, hopen, hgrows⟩ := (goesThrough_stages back).run
      (resting (s.place.methodInfo classInfo) s.place.code.before back) r hpast
    rw [isOpen_resting, if_pos rfl] at hrun
    rw [isOpen_resting] at hopen
    refine ⟨_, p', Transducer.step_andThen hstep hrun, ?_, hgrows⟩
    simp [isOpen, hopen]
  | cons q front ih =>
    rw [Place.sitesOf_cons] at hmiss hlive ⊢
    obtain ⟨hq, hrest⟩ := Pass.misses_append.mp hmiss
    obtain ⟨t, p', hlater, hopen, hgrows⟩ := ih (hat.noteAll _) hrest (by
      rw [Pass.noteAll_target, Pass.noteAll_classInfo, Pass.issued_noteAll, hlive,
        List.length_append, Nat.add_assoc])
    rw [Pass.noteAll_append]
    refine ⟨_, p', Transducer.step_andThen (step_stage_of_misses hat hq)
      (Transducer.run_singleton hlater), ?_, hgrows⟩
    simpa [isOpen] using hopen

end Policy

end MutationTesting
