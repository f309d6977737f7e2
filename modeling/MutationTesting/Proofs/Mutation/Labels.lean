import MutationTesting.Proofs.Mutation.Frame
/-!
# Labels

Jumps, switches, line markers and ranges name labels, and a method in which the code defines all of
them is closed. A mutant forgets the handlers, local variables and line markers whose labels are
gone, but not the jumps and switches, since an instruction cannot be taken out of the code. So all
depends on the branches that are left.

A policy that replaces an item leaves them as they are: what it replaces neither defines a label nor
branches to one, and what it writes does not, either. A policy that replaces a body cuts the code
off at the first line marker, and the branches before it may have gone to labels behind it.

## Main definitions

* `BranchesClosed` — code that defines the labels to which it branches
* `Method.IsLabelClosed`, `ClassFile.IsLabelClosed` — every label that is named is defined

## Main results

* `Method.isLabelClosed_pruneDangling_iff` — what forgetting achieves, and what not
* `Policy.straight_of_finding` — replacements have nothing to do with labels
* `mutant_is_label_closed_iff`
-/

namespace MutationTesting

/-! ### Labels that are named -/

/-- The labels to which an instruction may branch. -/
def Instruction.branchTargets : Instruction → List Label
  | .jump _ target => [target]
  | .tableSwitch _ _ default targets => default :: targets
  | .lookupSwitch default _ targets => default :: targets
  | _ => []

/-- The label that a line marker names. -/
def Instruction.markedLabel? : Instruction → Option Label
  | .line _ start => some start
  | _ => none

/-- The labels that code defines. -/
def definedLabels (code : List Instruction) : List Label := code.filterMap (·.definedLabel?)

/-- The code defines every label to which it branches. -/
def BranchesClosed (code : List Instruction) : Prop :=
  ∀ i ∈ code, ∀ l ∈ i.branchTargets, l ∈ definedLabels code

-- by way of lists: a quantifier over labels might be decided by going through all of them
instance (code : List Instruction) : Decidable (BranchesClosed code) :=
  decidable_of_iff (code.all fun i => i.branchTargets.all (definedLabels code).contains)
    (by simp [BranchesClosed])

/-- The code of the method defines every label that the method names. -/
structure Method.IsLabelClosed (m : Method) : Prop where
  branches : BranchesClosed m.instructions
  lines : ∀ i ∈ m.instructions, ∀ l ∈ i.markedLabel?, l ∈ m.labels
  handlers : ∀ h ∈ m.handlers, h.start ∈ m.labels ∧ h.stop ∈ m.labels ∧ h.handler ∈ m.labels
  locals : ∀ v ∈ m.locals, v.start ∈ m.labels ∧ v.stop ∈ m.labels

theorem Method.isLabelClosed_iff {m : Method} :
    m.IsLabelClosed ↔ BranchesClosed m.instructions ∧
      (∀ i ∈ m.instructions, i.markedLabel?.all m.labels.contains) ∧
      (∀ h ∈ m.handlers, h.start ∈ m.labels ∧ h.stop ∈ m.labels ∧ h.handler ∈ m.labels) ∧
      ∀ v ∈ m.locals, v.start ∈ m.labels ∧ v.stop ∈ m.labels := by
  simp only [Option.all_eq_true, List.contains_iff_mem]
  exact ⟨fun h => ⟨h.branches, h.lines, h.handlers, h.locals⟩,
    fun ⟨hb, hl, hh, hv⟩ => ⟨hb, hl, hh, hv⟩⟩

instance (m : Method) : Decidable m.IsLabelClosed := decidable_of_iff' _ Method.isLabelClosed_iff

/-- Every method of the class is closed. -/
def ClassFile.IsLabelClosed (c : ClassFile) : Prop := ∀ m ∈ c.methods, m.IsLabelClosed

instance (c : ClassFile) : Decidable c.IsLabelClosed :=
  inferInstanceAs (Decidable (∀ m ∈ c.methods, m.IsLabelClosed))

/-! ### What is forgotten -/

/-- The items that stay define what all of them have defined. -/
theorem Method.labels_pruneDangling (m : Method) : m.pruneDangling.labels = m.labels := by
  rw [labels, labels, pruneDangling, List.filterMap_filter]
  refine congrArg (List.filterMap · m.instructions) (funext fun i => ?_)
  cases i with
  | line n l => exact ite_self _
  | _ => rfl

/-- Only line markers go. -/
theorem Method.mem_instructions_pruneDangling {m : Method} {i : Instruction} :
    i ∈ m.pruneDangling.instructions ↔
      i ∈ m.instructions ∧ ∀ l ∈ i.markedLabel?, l ∈ m.labels := by
  rw [pruneDangling, List.mem_filter]
  cases i <;> simp [Instruction.markedLabel?]

/-- Nothing is forgotten of a method whose markers and ranges name labels that its code defines. -/
theorem Method.pruneDangling_eq_self_iff {m : Method} : m.pruneDangling = m ↔
    (∀ i ∈ m.instructions, ∀ l ∈ i.markedLabel?, l ∈ m.labels) ∧
      (∀ h ∈ m.handlers, h.start ∈ m.labels ∧ h.stop ∈ m.labels ∧ h.handler ∈ m.labels) ∧
      ∀ v ∈ m.locals, v.start ∈ m.labels ∧ v.stop ∈ m.labels := by
  have hparts : m.pruneDangling = m ↔ m.pruneDangling.instructions = m.instructions ∧
      m.pruneDangling.handlers = m.handlers ∧ m.pruneDangling.locals = m.locals := by
    constructor
    · intro h
      rw [h]
      exact ⟨rfl, rfl, rfl⟩
    · rintro ⟨hcode, hhandlers, hlocals⟩
      change { m with
        instructions := m.pruneDangling.instructions
        handlers := m.pruneDangling.handlers
        locals := m.pruneDangling.locals } = m
      rw [hcode, hhandlers, hlocals]
  rw [hparts]
  refine and_congr ?_ (and_congr ?_ ?_)
  · rw [pruneDangling, List.filter_eq_self]
    refine forall₂_congr fun i _ => ?_
    cases i <;> simp [Instruction.markedLabel?]
  · rw [pruneDangling, List.filter_eq_self]
    simp [and_assoc]
  · rw [pruneDangling, List.filter_eq_self]
    simp

/-- **What forgetting achieves**: the method is closed if its branches are. -/
theorem Method.isLabelClosed_pruneDangling_iff {m : Method} :
    m.pruneDangling.IsLabelClosed ↔ BranchesClosed m.instructions := by
  have hlabels : definedLabels m.pruneDangling.instructions = definedLabels m.instructions :=
    m.labels_pruneDangling
  constructor
  · -- an item that branches is no line marker, so it has stayed
    intro h i hi l hl
    rw [← hlabels]
    refine h.branches i (mem_instructions_pruneDangling.mpr ⟨hi, fun l' hl' => ?_⟩) l hl
    cases i with
    | line n start => cases hl
    | _ => cases hl'
  · intro h
    refine ⟨fun i hi l hl => ?_, fun i hi l hl => ?_, fun h hh => ?_, fun v hv => ?_⟩
    · rw [hlabels]
      exact h i (mem_instructions_pruneDangling.mp hi).1 l hl
    · rw [labels_pruneDangling]
      exact (mem_instructions_pruneDangling.mp hi).2 l hl
    · rw [labels_pruneDangling]
      simpa [and_assoc] using (List.mem_filter.mp hh).2
    · rw [labels_pruneDangling]
      simpa using (List.mem_filter.mp hv).2

/-- A closed method is closed with other code iff the branches of the code are. -/
theorem Method.IsLabelClosed.withCode_iff {m : Method} (h : m.IsLabelClosed)
    (code : List Instruction) : (m.withCode code).IsLabelClosed ↔ BranchesClosed code := by
  rw [withCode]
  split
  · next hcode => exact iff_of_true h (hcode ▸ h.branches)
  · exact isLabelClosed_pruneDangling_iff

/-! ### Items that have nothing to do with labels -/

/-- The item neither defines a label nor branches to one. -/
def Instruction.IsStraight (i : Instruction) : Prop := i.definedLabel? = none ∧ i.branchTargets = []

/-- Such items may be put into code and taken out of it. -/
theorem branchesClosed_append_iff {before after mid : List Instruction}
    (h : ∀ i ∈ mid, i.IsStraight) :
    BranchesClosed (before ++ (mid ++ after)) ↔ BranchesClosed (before ++ after) := by
  have hmid : definedLabels mid = [] := List.filterMap_eq_nil_iff.mpr fun i hi => (h i hi).1
  have hlabels : definedLabels (before ++ (mid ++ after)) = definedLabels (before ++ after) := by
    simp only [definedLabels, List.filterMap_append] at hmid ⊢
    rw [hmid, List.nil_append]
  have hstraight : ∀ i ∈ mid, ∀ l ∈ i.branchTargets, l ∈ definedLabels (before ++ after) := by
    intro i hi l hl
    rw [(h i hi).2] at hl
    cases hl
  rw [BranchesClosed, BranchesClosed, hlabels, List.forall_mem_append, List.forall_mem_append,
    List.forall_mem_append, and_iff_right hstraight]

@[simp] theorem Instruction.isStraight_simple (op : Opcode) : (simple op).IsStraight := ⟨rfl, rfl⟩

@[simp] theorem Instruction.isStraight_slot (op : Opcode) (n : UInt16) : (slot op n).IsStraight :=
  ⟨rfl, rfl⟩

@[simp] theorem Instruction.isStraight_call (op : Opcode) (m : Member) (interface : Bool) :
    (call op m interface).IsStraight :=
  ⟨rfl, rfl⟩

@[simp] theorem Instruction.isStraight_load (value : Constant) : (load value).IsStraight :=
  ⟨rfl, rfl⟩

@[simp] theorem Instruction.isStraight_loadText (s : String) : (loadText s).IsStraight := ⟨rfl, rfl⟩

@[simp] theorem Instruction.isStraight_line (n : UInt32) (start : Label) :
    (line n start).IsStraight :=
  ⟨rfl, rfl⟩

/-- Nothing is forgotten with straight items in the place of straight items, if nothing is without
them. -/
theorem Method.pruneDangling_exchange {m : Method} {before old mid after : List Instruction}
    (hcode : m.instructions = before ++ old ++ after) (hold : ∀ i ∈ old, i.IsStraight)
    (hmid : ∀ i ∈ mid, i.IsStraight ∧ i.markedLabel? = none) (h : m.pruneDangling = m) :
    { m with instructions := before ++ mid ++ after }.pruneDangling =
      { m with instructions := before ++ mid ++ after } := by
  have hlabels : { m with instructions := before ++ mid ++ after }.labels = m.labels := by
    have hnone : mid.filterMap (·.definedLabel?) = [] :=
      List.filterMap_eq_nil_iff.mpr fun i hi => (hmid i hi).1.1
    have hnone' : old.filterMap (·.definedLabel?) = [] :=
      List.filterMap_eq_nil_iff.mpr fun i hi => (hold i hi).1
    simp only [labels, hcode, List.filterMap_append, hnone, hnone']
  obtain ⟨hlines, hranges⟩ := pruneDangling_eq_self_iff.mp h
  simp only [hcode, List.forall_mem_append] at hlines
  rw [pruneDangling_eq_self_iff, hlabels]
  refine ⟨?_, hranges⟩
  simp only [List.forall_mem_append]
  refine ⟨⟨hlines.1.1, fun i hi l hl => ?_⟩, hlines.2⟩
  rw [(hmid i hi).2] at hl
  cases hl

theorem Instruction.IsReplaceable.isStraight {i : Instruction} (h : i.IsReplaceable) :
    i.IsStraight := by
  cases h <;> simp

theorem Instruction.IsReplaceable.markedLabel? {i : Instruction} (h : i.IsReplaceable) :
    i.markedLabel? = none := by
  cases h <;> rfl

namespace Policy

variable {i j : Instruction} {f : Finding} {r : List Instruction} {p : Policy}

theorem Writes.isStraight (h : Writes i j) (hi : i.IsStraight) : j.IsStraight := by
  cases h with
  | item => exact hi
  | _ => simp

theorem Writes.markedLabel? (h : Writes i j) (hi : i.markedLabel? = none) :
    j.markedLabel? = none := by
  cases h with
  | item => exact hi
  | _ => rfl

/-- Nothing is forgotten where a single item is replaced, if nothing is without it. -/
theorem Replaces.pruneDangling (hr : p.Replaces i r) {m : Method} {before after : List Instruction}
    (hcode : m.instructions = before ++ i :: after) (h : m.pruneDangling = m) :
    { m with instructions := before ++ r ++ after }.pruneDangling =
      { m with instructions := before ++ r ++ after } := by
  have hi := hr.isReplaceable
  have hcode' : m.instructions = before ++ [i] ++ after := by simpa using hcode
  refine Method.pruneDangling_exchange hcode' (List.forall_mem_singleton.mpr hi.isStraight)
    (fun j hj => ?_) h
  exact ⟨(hr.writes j hj).isStraight hi.isStraight, (hr.writes j hj).markedLabel? hi.markedLabel?⟩

theorem straight_newBody? {body : List Instruction} (h : p.newBody? = some body) :
    ∀ j ∈ body, j.IsStraight := by
  cases p with
  | anyHost =>
    obtain rfl := Option.some.inj h
    simp
  | anyCertificate =>
    obtain rfl := Option.some.inj h
    simp
  | _ => cases h

/-- **Replacements have nothing to do with labels**, and neither have the items that they replace
nor the items behind which they put a new body. -/
theorem straight_of_finding {m : MethodInfo} {before : List Instruction}
    (h : (p.inspector m).finding? before i = some f) (hr : f.replacement = some r) :
    ∀ j ∈ i :: r, j.IsStraight := by
  obtain ⟨-, hnone, -⟩ | ⟨body, hbody, ⟨n, l, rfl⟩, hr', -⟩ | ⟨-, -, hf⟩ := finding_cases h
  · exact nomatch hr.symm.trans hnone
  · obtain rfl := Option.some.inj (hr.symm.trans hr')
    simpa using straight_newBody? hbody
  · have hitem := hf.item.isStraight
    exact List.forall_mem_cons.mpr ⟨hitem, fun j hj => (hf.writes r hr j hj).isStraight hitem⟩

end Policy

/-! ### The class with a live site -/

variable {c : ClassFile} {policies : List Policy} {s : Site}

/-- The branches that a live site leaves are closed if its method is; but those before a new body
have to do without the labels behind it. -/
theorem Site.branchesClosed_code (hs : s ∈ c.sitesOf policies)
    (hm : BranchesClosed s.place.method.instructions) :
    BranchesClosed s.code ↔ (s.policy.newBody? ≠ none → BranchesClosed s.place.code.before) := by
  obtain ⟨-, -, hplace, hf⟩ := ClassFile.mem_sitesOf.mp hs
  obtain ⟨-, hcode⟩ := ClassFile.mem_places.mp hplace
  cases hr : s.finding.replacement with
  | none =>
    rw [code_of_none hr, hcode, (replacement_eq_none_iff hs).mp hr]
    exact iff_of_true hm fun h => absurd rfl h
  | some r =>
    obtain ⟨hitem, hreplacement⟩ := List.forall_mem_cons.mp (Policy.straight_of_finding hf hr)
    rw [code_of_some hr, branchesClosed_append_iff hreplacement]
    obtain ⟨-, hnone, -⟩ | ⟨body, hbody, -, -, hend⟩ | ⟨-, hbody, hrewrite⟩ :=
      Policy.finding_cases hf
    · exact nomatch hr.symm.trans hnone
    · rw [if_pos hend, List.append_nil, hbody]
      exact ⟨fun h _ => h, fun h => h (Option.some_ne_none body)⟩
    · rw [if_neg (by simp [hrewrite.endsBody]), hbody]
      rw [← hcode, Split.whole, ← List.singleton_append,
        branchesClosed_append_iff (List.forall_mem_singleton.mpr hitem)] at hm
      exact iff_of_true hm fun h => absurd rfl h

/-- When the class with a live site is closed. -/
theorem Site.isLabelClosed_mutate (hc : c.IsLabelClosed) (hs : s ∈ c.sitesOf policies) :
    (s.mutate c).IsLabelClosed ↔
      (s.policy.newBody? ≠ none → BranchesClosed s.place.code.before) := by
  obtain ⟨-, -, hplace, -⟩ := ClassFile.mem_sitesOf.mp hs
  obtain ⟨hmethods, -⟩ := ClassFile.mem_places.mp hplace
  rw [ClassFile.IsLabelClosed, ← hmethods, Split.whole, List.forall_mem_append,
    List.forall_mem_cons] at hc
  obtain ⟨hbefore, hm, hafter⟩ := hc
  rw [← branchesClosed_code hs hm.branches, ← hm.withCode_iff, ClassFile.IsLabelClosed, mutate,
    List.forall_mem_append, List.forall_mem_cons]
  exact ⟨fun h => h.2.1, fun h => ⟨hbefore, h, hafter⟩⟩

/-- **A mutant is closed** if its class is, unless its policy replaces a body: then it is closed iff
the code before the place of the mutant, the only one where its number is issued, branches to no
label behind it. -/
theorem mutant_is_label_closed_iff {c : ClassFile} (hc : c.IsLabelClosed) (policies : List Policy)
    {m : Mutation} (hm : m ∈ findMutations c policies) :
    ∃ pl : Place, (∀ pl', c.IssuesAt policies pl' m.id.index ↔ pl' = pl) ∧
      m.id.method = pl.method.signature ∧
      ((mutateClass c policies (some m.id)).1.IsLabelClosed ↔
        (m.id.policy = Policy.anyHost.name ∨ m.id.policy = Policy.anyCertificate.name →
          BranchesClosed pl.code.before)) := by
  obtain ⟨n, s, hs, rfl⟩ := exists_site_of_mem hm
  obtain ⟨pass, hpass, -⟩ := mutateClass_id hs
  refine ⟨s.place, fun pl => ClassFile.issuesAt_iff_eq_place hs, rfl, ?_⟩
  have hbody : s.policy.name = Policy.anyHost.name ∨ s.policy.name = Policy.anyCertificate.name ↔
      s.policy.newBody? ≠ none := by
    cases s.policy <;> simp [Policy.newBody?, Policy.name]
  change (mutateClass c policies (some (s.id (.ofClass c) n))).1.IsLabelClosed ↔
    (s.policy.name = _ ∨ s.policy.name = _ → _)
  rw [hpass, hbody]
  exact Site.isLabelClosed_mutate hc (List.mem_of_getElem? hs)

/-- A verifier that refuses to be given no host before its first line. The branch of this check ends
before the line, too, so the mutant is closed, without the handler and the variable that end behind
the line. -/
theorem mutant_of_checked_verifier_is_label_closed :
    let verify : Method := { Method.plain "verify" "(Ljava/lang/String;)Z" publicFlag
        [.slot .aload 1, .jump .ifnonnull 3, .simple .aconstNull, .simple .athrow, .label 3,
          .label 0, .line 7 0, .simple .iconst0, .simple .ireturn, .label 1, .line 9 1,
          .simple .athrow] with
      handlers := [⟨0, 1, 1, none⟩], locals := [⟨"host", "Ljava/lang/String;", 1, 0, 1⟩] }
    let c : ClassFile := { ClassFile.empty "a/B" with
      interfaces := ["javax/net/ssl/HostnameVerifier"], methods := [verify] }
    let m : Mutation := ⟨⟨"hostname_verifier_true", "a/B", "verify(Ljava/lang/String;)Z", 0,
      "Changed result of HostnameVerifier to constant true"⟩, 7, none⟩
    c.IsLabelClosed ∧ m ∈ findMutations c Policy.defaults ∧
      (mutateClass c Policy.defaults (some m.id)).1.IsLabelClosed := by
  intro verify c m
  have hc : c.IsLabelClosed := by decide
  have hm : m ∈ findMutations c Policy.defaults := by
    subst m c verify
    decide
  obtain ⟨pl, hplace, -, hclosed⟩ := mutant_is_label_closed_iff hc Policy.defaults hm
  have hissued : c.IssuesAt Policy.defaults
      ⟨⟨[], verify, []⟩, verify.instructions.take 6, .line 7 0, verify.instructions.drop 7⟩ 0 := by
    subst m c verify
    constructor <;> decide
  obtain rfl := (hplace _).mp hissued
  exact ⟨hc, hm, hclosed.mpr fun _ => by decide⟩

/-- A verifier that begins with a jump to a test behind its first line. In the mutant the test is
gone and the jump is not. -/
theorem mutant_of_rotated_verifier_has_open_jump :
    let c : ClassFile := { ClassFile.empty "a/B" with
      interfaces := ["javax/net/ssl/HostnameVerifier"]
      methods := [.plain "verify" "(Ljava/lang/String;)Z" publicFlag
        [.jump .goto 1, .label 0, .line 7 0, .simple .iconst0, .simple .ireturn, .label 1,
          .slot .aload 1, .jump .ifnull 0, .simple .iconst1, .simple .ireturn]] }
    let m : Mutation := ⟨⟨"hostname_verifier_true", "a/B", "verify(Ljava/lang/String;)Z", 0,
      "Changed result of HostnameVerifier to constant true"⟩, 7, none⟩
    c.IsLabelClosed ∧ m ∈ findMutations c Policy.defaults ∧
      ¬ (mutateClass c Policy.defaults (some m.id)).1.IsLabelClosed := by
  intro c m
  subst m c
  decide

end MutationTesting
