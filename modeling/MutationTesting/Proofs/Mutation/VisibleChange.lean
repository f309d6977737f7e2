import MutationTesting.Proofs.Class.Artifact
import MutationTesting.Proofs.Mutation.Labels
/-!
# Changes that can be seen

A mutant that is its class again can never be killed. Whether a mutant differs from its class is
asked here of a view of the code, which need not show everything: artifacts write all infinite
numbers alike, and listings leave operands out.

Two things make a change visible. A policy that replaces single items changes the weight of the
code, for a weight that a view lets one compute, and nothing makes up for it, since the line markers
that are forgotten have no weight. A policy that replaces a body leaves a view that can be read in
one way only. So the one change that cannot be seen is none at all: a body that was there already.

## Main definitions

* `Reveals` — a view that shows the changes of all policies

## Main results

* `Reveals.flatMap_view_eq_iff` — when a change cannot be seen
* `reveals_toJson` — artifacts show all changes
* `mutant_is_class_again_iff`
-/

namespace MutationTesting

open Json

/-- A view of code, item by item, in which every change of a policy can be seen. -/
structure Reveals {β : Type} (view : Instruction → List β) (weight : Instruction → Nat) : Prop where
  /-- Line markers may be forgotten. -/
  line (n : UInt32) (l : Label) : weight (.line n l) = 0
  /-- A replacement has another weight than what it replaces. -/
  replaces {p : Policy} {i : Instruction} {r : List Instruction} (h : p.Replaces i r) :
    (r.map weight).sum ≠ weight i
  /-- The weight of code can be told from its view. -/
  sum_weight {code code' : List Instruction} (h : code.flatMap view = code'.flatMap view) :
    (code.map weight).sum = (code'.map weight).sum
  /-- Operations without operands can be told from their view. -/
  simple {code : List Instruction} {ops : List Opcode}
    (h : code.flatMap view = (ops.map Instruction.simple).flatMap view) : code = ops.map .simple

/-! ### Weights -/

theorem sum_map_filter {α : Type} {p : α → Bool} {w : α → Nat} {l : List α}
    (h : ∀ a, p a = false → w a = 0) : ((l.filter p).map w).sum = (l.map w).sum := by
  induction l with
  | nil => rfl
  | cons a l ih =>
    cases hp : p a with
    | true => simp [hp, ih]
    | false => simp [hp, ih, h a hp]

/-- What is forgotten has no weight. -/
theorem Method.sum_weight_withCode {weight : Instruction → Nat}
    (hline : ∀ n l, weight (.line n l) = 0) (m : Method) (code : List Instruction) :
    ((m.withCode code).instructions.map weight).sum = (code.map weight).sum := by
  obtain ⟨kept, hkept, hcode⟩ := m.exists_filter_withCode code
  rw [hcode]
  refine sum_map_filter fun i hi => ?_
  obtain ⟨n, l, rfl⟩ := hkept i hi
  exact hline n l

/-! ### New bodies -/

namespace Policy

/-- A new body consists of operations without operands. -/
theorem exists_ops_of_newBody? {p : Policy} {body : List Instruction}
    (h : p.newBody? = some body) : ∃ ops : List Opcode, body = ops.map .simple := by
  cases p with
  | anyHost => exact ⟨[.iconst1, .ireturn], (Option.some.inj h).symm⟩
  | anyCertificate => exact ⟨[.returnVoid], (Option.some.inj h).symm⟩
  | _ => cases h

section

variable {eligible : Bool} {description : String} {body : List Instruction} {i : Instruction}
  {f : Finding}

/-- What is waited for is a line marker. -/
theorem inspect_bodyInspector_eq_true {awaiting : Bool}
    (h : ((bodyInspector eligible description body).inspect awaiting i).1 = true) :
    awaiting = true ∧ ∀ n l, i ≠ .line n l := by
  cases awaiting with
  | false => simp [bodyInspector] at h
  | true =>
    refine ⟨rfl, ?_⟩
    rintro n l rfl
    cases h

/-- A policy that replaces bodies waits for the first line marker. -/
theorem line_notMem_of_memoryAfter {items : List Instruction}
    (h : (bodyInspector eligible description body).memoryAfter items = true) (n : UInt32)
    (l : Label) : .line n l ∉ items := by
  induction items using List.reverseRecOn with
  | nil => exact List.not_mem_nil
  | append_singleton items i ih =>
    rw [Inspector.memoryAfter_concat] at h
    obtain ⟨hbefore, hi⟩ := inspect_bodyInspector_eq_true h
    rw [List.mem_append, List.mem_singleton, not_or]
    exact ⟨ih hbefore, (hi n l).symm⟩

/-- A site of such a policy is waited for. -/
theorem awaiting_of_finding {awaiting : Bool}
    (h : ((bodyInspector eligible description body).inspect awaiting i).2 = some f) :
    awaiting = true := by
  cases awaiting with
  | false => simp [bodyInspector] at h
  | true => rfl

end

/-- Before the site of a new body there is no line marker. -/
theorem line_notMem_of_finding {m : MethodInfo} {p : Policy} {before body : List Instruction}
    {i : Instruction} {f : Finding} (hbody : p.newBody? = some body)
    (h : (p.inspector m).finding? before i = some f) (n : UInt32) (l : Label) :
    .line n l ∉ before := by
  cases p with
  | anyHost => exact line_notMem_of_memoryAfter (awaiting_of_finding h) n l
  | anyCertificate => exact line_notMem_of_memoryAfter (awaiting_of_finding h) n l
  | _ => cases hbody

end Policy

section

variable {policies : List Policy} {c : ClassFile} {s : Site} {body : List Instruction}

/-- A new body that is there already changes nothing. -/
theorem Site.code_eq_of_newBody? (hs : s ∈ c.sitesOf policies)
    (h : s.policy.newBody? = some s.place.code.after) :
    s.code = s.place.method.instructions := by
  obtain ⟨-, -, hplace, -⟩ := ClassFile.mem_sitesOf.mp hs
  obtain ⟨-, hwhole⟩ := ClassFile.mem_places.mp hplace
  rw [code_of_newBody? hs h, ← hwhole, Split.whole, List.append_assoc, List.singleton_append]

/-- The code of a method with a new body: the line marker before it may be forgotten. -/
theorem Site.instructions_of_newBody? (hs : s ∈ c.sitesOf policies)
    (hbody : s.policy.newBody? = some body) :
    ∃ marker, (marker = [] ∨ marker = [s.place.code.item]) ∧
      (s.place.method.withCode s.code).instructions = s.place.code.before ++ marker ++ body := by
  obtain ⟨-, -, -, hfinding⟩ := ClassFile.mem_sitesOf.mp hs
  obtain ⟨ops, rfl⟩ := Policy.exists_ops_of_newBody? hbody
  obtain ⟨kept, hkept, hcode⟩ := s.place.method.exists_filter_withCode s.code
  have hall {items : List Instruction} (h : ∀ n l, .line n l ∉ items) :
      items.filter kept = items := by
    refine List.filter_eq_self.mpr fun i hi => ?_
    by_contra hi'
    obtain ⟨n, l, rfl⟩ := hkept i (Bool.eq_false_of_not_eq_true hi')
    exact h n l hi
  have hbefore := hall (Policy.line_notMem_of_finding hbody hfinding)
  have hafter : (ops.map Instruction.simple).filter kept = ops.map .simple := hall (by simp)
  refine ⟨[s.place.code.item].filter kept, ?_, ?_⟩
  · cases hitem : kept s.place.code.item <;> simp [hitem]
  · rw [hcode, code_of_newBody? hs hbody, List.filter_append, List.filter_append, hbefore, hafter]

/-- **When a change cannot be seen**: the body that a policy puts into a method is there already. -/
theorem Reveals.flatMap_view_eq_iff {β : Type} {view : Instruction → List β}
    {weight : Instruction → Nat} (h : Reveals view weight) (hs : s ∈ c.sitesOf policies)
    (hinert : s.policy ≠ .inert) :
    (s.place.method.withCode s.code).instructions.flatMap view =
        s.place.method.instructions.flatMap view ↔
      s.policy.newBody? = some s.place.code.after := by
  obtain ⟨-, -, hplace, hfinding⟩ := ClassFile.mem_sitesOf.mp hs
  obtain ⟨-, hwhole⟩ := ClassFile.mem_places.mp hplace
  cases hbody : s.policy.newBody? with
  | none =>
    refine iff_of_false (fun hview => ?_) nofun
    obtain ⟨r, hr, -, hcode⟩ := Site.exists_replaces hs hinert hbody
    have hsum := h.sum_weight hview
    rw [Method.sum_weight_withCode h.line, hcode, ← hwhole, Split.whole] at hsum
    refine h.replaces hr ?_
    simp only [List.map_append, List.map_cons, List.sum_append, List.sum_cons] at hsum
    omega
  | some body =>
    rw [Option.some.injEq]
    constructor
    · intro hview
      by_contra hnew
      obtain ⟨ops, hops⟩ := Policy.exists_ops_of_newBody? hbody
      obtain ⟨⟨n, l, hitem⟩, -⟩ := Policy.finding_of_newBody? hbody hfinding
      obtain ⟨marker, hmarker, hcode⟩ := Site.instructions_of_newBody? hs hbody
      rw [hcode, ← hwhole, Split.whole] at hview
      simp only [List.append_assoc, List.flatMap_append, List.append_cancel_left_eq] at hview
      obtain rfl | rfl := hmarker
      · -- the new body would begin with the line marker
        have hops' := h.simple (hops ▸ hview.symm)
        rw [hitem] at hops'
        cases ops <;> cases hops'
      · rw [List.flatMap_singleton, List.flatMap_cons, List.append_cancel_left_eq] at hview
        exact hnew (hops ▸ (h.simple (hops ▸ hview.symm)).symm)
    · rintro rfl
      rw [Site.code_eq_of_newBody? hs hbody, Method.withCode_self]

end

/-! ### Artifacts -/

namespace Instruction

variable {i j : Instruction}

/-- How much of an artifact an item takes: line markers count for nothing, and what is loaded counts
for its length if it is a text. -/
def bulk : Instruction → Nat
  | .line _ _ => 0
  | .load (.string s) => s.toList.length + 1
  | _ => 1

/-- The artifact of an item tells its bulk, also where its constants cannot be read. -/
theorem bulk_eq (i : Instruction) : i.bulk = (i.reread?.map bulk).getD 1 := by
  cases i with
  | load v =>
    cases v with
    | float x =>
      cases h : (ofBinary32 x : Json String).raw.binary32? <;>
        simp [reread?, Constant.reread?, h, bulk]
    | double x =>
      cases h : (ofBinary64 x : Json String).raw.binary64? <;>
        simp [reread?, Constant.reread?, h, bulk]
    | _ => rfl
  | callDynamic name d arguments =>
    cases h : allOf? Constant.reread? arguments <;> simp [reread?, h, bulk]
  | _ => rfl

theorem reread?_eq_of_toJson_eq (h : i.toJson = j.toJson) : i.reread? = j.reread? := by
  have hnesting : 0 + 2 ≤ nestingLimit := by decide
  rw [← ofJson?_toJson hnesting, ← ofJson?_toJson hnesting, h]

theorem eq_simple_of_toJson_eq {op : Opcode} (h : i.toJson = (simple op).toJson) :
    i = .simple op := by
  have hread : i.reread? = some (.simple op) := reread?_eq_of_toJson_eq h
  cases i with
  | load v => simp [reread?] at hread
  | callDynamic name d arguments => simp [reread?] at hread
  | _ => exact Option.some.inj hread

end Instruction

/-- **Replacements** take another part of an artifact than what they replace. -/
theorem sum_bulk_ne_of_replaces {p : Policy} {i : Instruction} {r : List Instruction}
    (h : p.Replaces i r) : (r.map Instruction.bulk).sum ≠ i.bulk := by
  cases h with
  | scheme hplain =>
    obtain ⟨start, rest, hlength, -, hs, hplain⟩ := Policy.exists_of_downgradeScheme? hplain
    simp [Instruction.bulk, Instruction.loadText, hs, hplain, hlength]
    omega
  | @newDefault op m interface o _ ho =>
    obtain ⟨result, drop, push, hmem, hpush, -⟩ := Policy.exists_override ho
    have hpositive : ∀ x ∈ Policy.overrides, 0 < x.2.2.bulk := by decide
    have hpush' : 0 < o.push.bulk := hpush ▸ hpositive _ hmem
    have hcall : Instruction.bulk (.call op { m with descriptor := o.descriptor } interface) = 1 :=
      rfl
    simp only [List.map_append, List.map_cons, List.sum_append, List.sum_cons, hcall]
    change _ ≠ 1
    omega
  | key op m interface other => simp [Instruction.bulk, Instruction.loadText]
  | stored n => simp [Instruction.bulk, Policy.processDocumentTypes]
  | returned => simp [Instruction.bulk, Policy.processDocumentTypes]
  | index _ => simp [Instruction.bulk]
  | check _ => split <;> simp [Instruction.bulk]
  | protocol _ => simp [Instruction.bulk, Policy.breakProtocol, Instruction.loadText]
  | buriedProtocol _ _ => simp [Instruction.bulk, Policy.breakProtocol, Instruction.loadText]

theorem map_eq_of_map_eq {α β γ : Type} {f : α → β} {g : α → γ}
    (h : ∀ a a', f a = f a' → g a = g a') {l l' : List α} (hl : l.map f = l'.map f) :
    l.map g = l'.map g := by
  induction l generalizing l' with
  | nil => rw [List.map_eq_nil_iff.mp hl.symm]
  | cons a l ih =>
    cases l' with
    | nil => cases hl
    | cons a' l' =>
      obtain ⟨ha, hl⟩ := List.cons.inj hl
      rw [List.map_cons, List.map_cons, h a a' ha, ih hl]

/-- **Artifacts show all changes.** -/
theorem reveals_toJson : Reveals (fun i => [i.toJson]) Instruction.bulk where
  line _ _ := rfl
  replaces := sum_bulk_ne_of_replaces
  sum_weight h := by
    simp only [← List.map_eq_flatMap] at h
    rw [map_eq_of_map_eq (fun i j hij => ?_) h]
    rw [Instruction.bulk_eq, Instruction.bulk_eq, Instruction.reread?_eq_of_toJson_eq hij]
  simple {code ops} h := by
    simp only [← List.map_eq_flatMap] at h
    induction ops generalizing code with
    | nil => simpa using h
    | cons op ops ih =>
      cases code with
      | nil => cases h
      | cons i code =>
        obtain ⟨hi, h⟩ := List.cons.inj h
        rw [Instruction.eq_simple_of_toJson_eq hi, ih h, List.map_cons]

theorem Method.map_toJson_instructions_eq {m m' : Method} (h : m.toJson = m'.toJson) :
    m.instructions.map Instruction.toJson = m'.instructions.map Instruction.toJson := by
  simp only [toJson, Json.object.injEq, List.cons.injEq, Prod.mk.injEq, Json.list.injEq] at h
  obtain ⟨-, -, -, -, ⟨-, hcode⟩, -⟩ := h
  exact hcode

/-- The methods of two classes that are alike in all else are told apart by their artifacts. -/
theorem ClassFile.map_toJson_methods_eq {c : ClassFile} {methods methods' : List Method}
    (h : { c with methods := methods }.toBytes = { c with methods := methods' }.toBytes) :
    methods.map Method.toJson = methods'.map Method.toJson := by
  have hjson := toJson_eq_of_toBytes_eq h
  simpa [toJson] using hjson

/-- **The artifact of the class with a live site** is that of the class iff the body that the policy
puts into a method is there already. -/
theorem Site.toBytes_mutate_eq_iff {policies : List Policy} {c : ClassFile} {s : Site}
    (hs : s ∈ c.sitesOf policies) (hinert : s.policy ≠ .inert) :
    (s.mutate c).toBytes = c.toBytes ↔ s.policy.newBody? = some s.place.code.after := by
  constructor
  · intro hbytes
    obtain ⟨-, -, hplace, -⟩ := ClassFile.mem_sitesOf.mp hs
    obtain ⟨hmethods, -⟩ := ClassFile.mem_places.mp hplace
    have hjson : (s.place.methods.before ++ s.place.method.withCode s.code ::
        s.place.methods.after).map Method.toJson = c.methods.map Method.toJson :=
      ClassFile.map_toJson_methods_eq (c := c) hbytes
    rw [← hmethods, Split.whole] at hjson
    simp only [List.map_append, List.map_cons, List.append_cancel_left_eq, List.cons.injEq,
      and_true] at hjson
    have hcode := Method.map_toJson_instructions_eq hjson
    rw [← reveals_toJson.flatMap_view_eq_iff hs hinert, ← List.map_eq_flatMap,
      ← List.map_eq_flatMap]
    exact hcode
  · intro hbody
    rw [mutate_of_code_eq hs (code_eq_of_newBody? hs hbody)]

/-- **A mutant is its class again** iff the body that its policy puts behind the first line marker
of a method is there already. Every other change of a policy that is not inert shows in the
instructions of the method and in the artifact. -/
theorem mutant_is_class_again_iff {c : ClassFile} {policies : List Policy} {m : Mutation}
    (hm : m ∈ findMutations c policies) (hpolicy : m.id.policy ≠ Policy.inert.name) :
    ∃ (pl : Place) (p : Policy) (method : Method) (mutant : Mutant),
      (∀ pl', c.IssuesAt policies pl' m.id.index ↔ pl' = pl) ∧ m.id.policy = p.name ∧
      m.id.method = pl.method.signature ∧ materialize c policies m.id = .ok mutant ∧
      (mutateClass c policies (some m.id)).1 =
        { c with methods := pl.methods.before ++ method :: pl.methods.after } ∧
      (method.instructions = pl.method.instructions ↔ p.newBody? = some pl.code.after) ∧
      (mutant.artifact = c.toBytes ↔ p.newBody? = some pl.code.after) := by
  obtain ⟨mutant, hmutant, hartifact⟩ := exists_mutant_of_mem hm
  obtain ⟨n, s, hs, rfl⟩ := exists_site_of_mem hm
  have hmem := List.mem_of_getElem? hs
  have hinert : s.policy ≠ .inert := fun h => hpolicy (congrArg Policy.name h)
  obtain ⟨pass, hpass, -⟩ := mutateClass_id hs
  have hclass : (mutateClass c policies (some (s.mutation (.ofClass c) n).id)).1 = s.mutate c :=
    congrArg Prod.fst hpass
  refine ⟨s.place, s.policy, s.place.method.withCode s.code, mutant,
    fun pl => ClassFile.issuesAt_iff_eq_place hs, rfl, rfl, hmutant, hclass,
    ⟨fun h => ?_, fun h => ?_⟩, ?_⟩
  · rw [← reveals_toJson.flatMap_view_eq_iff hmem hinert, h]
  · rw [Site.code_eq_of_newBody? hmem h, Method.withCode_self]
  · rw [hartifact, hclass, Site.toBytes_mutate_eq_iff hmem hinert]

/-- A verifier that refuses every host. Its mutant is another class. -/
theorem mutant_of_strict_verifier_differs :
    let verify : Method := .plain "verify" "()Z" publicFlag
      [.label 0, .line 7 0, .simple .iconst0, .simple .ireturn]
    let c : ClassFile := { ClassFile.empty "a/B" with
      interfaces := ["javax/net/ssl/HostnameVerifier"], methods := [verify] }
    let m : Mutation := ⟨⟨"hostname_verifier_true", "a/B", "verify()Z", 0,
      "Changed result of HostnameVerifier to constant true"⟩, 7, none⟩
    m ∈ findMutations c Policy.defaults ∧ m.id.policy ≠ Policy.inert.name ∧
      ∃ mutant, materialize c Policy.defaults m.id = .ok mutant ∧ mutant.artifact ≠ c.toBytes := by
  intro verify c m
  have hm : m ∈ findMutations c Policy.defaults := by
    subst m c verify
    decide
  have hpolicy : m.id.policy ≠ Policy.inert.name := by decide
  have hissued : c.IssuesAt Policy.defaults ⟨⟨[], verify, []⟩, [.label 0], .line 7 0,
      [.simple .iconst0, .simple .ireturn]⟩ 0 := by
    subst c verify
    constructor <;> decide
  obtain ⟨pl, p, method, mutant, hplace, hname, -, hmutant, -, -, hartifact⟩ :=
    mutant_is_class_again_iff hm hpolicy
  obtain rfl := (hplace _).mp hissued
  obtain rfl : Policy.anyHost = p := Policy.name_injective hname
  exact ⟨hm, hpolicy, mutant, hmutant, mt hartifact.mp (by decide)⟩

/-- A verifier that accepts every host. Its mutant is the class again. -/
theorem mutant_of_lenient_verifier_is_class_again :
    let verify : Method := .plain "verify" "()Z" publicFlag
      [.label 0, .line 7 0, .simple .iconst1, .simple .ireturn]
    let c : ClassFile := { ClassFile.empty "a/B" with
      interfaces := ["javax/net/ssl/HostnameVerifier"], methods := [verify] }
    let m : Mutation := ⟨⟨"hostname_verifier_true", "a/B", "verify()Z", 0,
      "Changed result of HostnameVerifier to constant true"⟩, 7, none⟩
    m ∈ findMutations c Policy.defaults ∧ m.id.policy ≠ Policy.inert.name ∧
      (mutateClass c Policy.defaults (some m.id)).1 = c ∧
      ∃ mutant, materialize c Policy.defaults m.id = .ok mutant ∧ mutant.artifact = c.toBytes := by
  intro verify c m
  have hm : m ∈ findMutations c Policy.defaults := by
    subst m c verify
    decide
  have hclass : (mutateClass c Policy.defaults (some m.id)).1 = c := by
    subst m c verify
    decide
  obtain ⟨mutant, hmutant, hartifact⟩ := exists_mutant_of_mem hm
  rw [hclass] at hartifact
  exact ⟨hm, by decide, hclass, mutant, hmutant, hartifact⟩

end MutationTesting
