import MutationTesting.Proofs.Mutation.Frame
/-!
# Return types

An instruction that returns has to fit the type that its method returns, or the class cannot be
loaded. What policies put in the place of an item returns only if the item does, and then in the
same way; so a mutant fits where its class does. The exceptions are the two policies that replace
bodies: their bodies return in one way only, whatever the method returns, and they look at its name
alone.

## Main definitions

* `Descriptor.returnType?`, `Opcode.returning?` — the return type of a method, and its operation
* `ClassFile.KeepsReturnTypes` — every return fits its method

## Main results

* `Policy.returns_of_finding` — the returns in a replacement
* `Site.keepsReturnTypes_mutate` — when the class with a live site fits
* `mutant_fits_return_types`
-/

namespace MutationTesting

/-! ### Returns that fit -/

/-- The characters behind the parameter list of a method descriptor. The list ends at the first
parenthesis outside the names of classes; the first argument tells whether such a name is being
read. -/
def Descriptor.behindParameters? : Bool → List Char → Option (List Char)
  | _, [] => none
  | true, c :: rest => behindParameters? (c != ';') rest
  | false, c :: rest => if c = ')' then some rest else behindParameters? (c = 'L') rest

/-- The return type in a method descriptor. -/
def Descriptor.returnType? (descriptor : String) : Option (List Char) :=
  match descriptor.toList with
  | '(' :: rest => behindParameters? false rest
  | _ => none

/-- The operation that returns a value of a type. -/
def Opcode.returning? : List Char → Option Opcode
  | ['V'] => some .returnVoid
  | ['Z'] | ['B'] | ['C'] | ['S'] | ['I'] => some .ireturn
  | ['J'] => some .lreturn
  | ['F'] => some .freturn
  | ['D'] => some .dreturn
  | 'L' :: _ | '[' :: _ => some .areturn
  | _ => none

/-- The operation by which a method returns, none if its descriptor is malformed. -/
def Method.returnOperation? (m : Method) : Option Opcode :=
  (Descriptor.returnType? m.descriptor).bind Opcode.returning?

/-- The operation of an instruction, if it is one that returns. -/
def Instruction.returnBy? (i : Instruction) : Option Opcode := i.opcode?.filter (·.isReturn)

/-- The instructions return in no other way than by the given operation. -/
def ReturnBy (operation : Option Opcode) (code : List Instruction) : Prop :=
  ∀ i ∈ code, i.returnBy? = none ∨ i.returnBy? = operation

instance (operation : Option Opcode) (code : List Instruction) :
    Decidable (ReturnBy operation code) :=
  inferInstanceAs (Decidable (∀ i ∈ code, i.returnBy? = none ∨ i.returnBy? = operation))

/-- Every return of the method fits its return type. -/
def Method.KeepsReturnType (m : Method) : Prop := ReturnBy m.returnOperation? m.instructions

instance (m : Method) : Decidable m.KeepsReturnType :=
  inferInstanceAs (Decidable (ReturnBy m.returnOperation? m.instructions))

/-- Every return in the class fits the return type of its method. -/
def ClassFile.KeepsReturnTypes (c : ClassFile) : Prop := ∀ m ∈ c.methods, m.KeepsReturnType

instance (c : ClassFile) : Decidable c.KeepsReturnTypes :=
  inferInstanceAs (Decidable (∀ m ∈ c.methods, m.KeepsReturnType))

theorem returnBy_append {operation : Option Opcode} {first rest : List Instruction} :
    ReturnBy operation (first ++ rest) ↔ ReturnBy operation first ∧ ReturnBy operation rest :=
  List.forall_mem_append

theorem returnBy_cons {operation : Option Opcode} {i : Instruction} {rest : List Instruction} :
    ReturnBy operation (i :: rest) ↔
      (i.returnBy? = none ∨ i.returnBy? = operation) ∧ ReturnBy operation rest :=
  List.forall_mem_cons

/-- Code that returns as an instruction does, where the instruction fits. -/
theorem ReturnBy.of_instruction {operation : Option Opcode} {i : Instruction}
    {code : List Instruction} (h : ReturnBy i.returnBy? code)
    (hi : i.returnBy? = none ∨ i.returnBy? = operation) : ReturnBy operation code := by
  intro j hj
  obtain hnone | hsame := h j hj
  · exact .inl hnone
  · exact hsame ▸ hi

/-- A method with other code returns in the ways of the code: only marks are forgotten. -/
theorem Method.keepsReturnType_withCode (m : Method) (code : List Instruction) :
    (m.withCode code).KeepsReturnType ↔ ReturnBy m.returnOperation? code := by
  rw [withCode]
  split
  · next h => rw [h, KeepsReturnType]
  · refine ⟨fun h i hi => ?_, fun h i hi => h i (List.mem_filter.mp hi).1⟩
    cases i with
    | line n l => exact .inl rfl
    | _ => exact h _ (List.mem_filter.mpr ⟨hi, rfl⟩)

/-! ### Returns in replacements -/

namespace Policy

variable {i j : Instruction} {f : Finding} {r : List Instruction}

/-- What is written returns only if the item does, and then in the same way. -/
theorem Writes.returnBy? (h : Writes i j) : j.returnBy? = none ∨ j.returnBy? = i.returnBy? := by
  cases h with
  | item => exact .inr rfl
  | @simple op hop =>
    have hnone : ∀ op ∈ writtenOperations, (Instruction.simple op).returnBy? = none := by decide
    exact .inl (hnone op hop)
  | retarget hi => exact .inr (by rw [hi]; rfl)
  | _ => exact .inl rfl

/-- **The returns in a replacement** are those of the item, or those of a new body. -/
theorem returns_of_finding {m : MethodInfo} {p : Policy} {before : List Instruction}
    (h : (p.inspector m).finding? before i = some f) (hr : f.replacement = some r) :
    (p.newBody? = none ∧ ReturnBy i.returnBy? r) ∨
      ∃ body, p.newBody? = some body ∧ i.returnBy? = none ∧ r = i :: body := by
  obtain ⟨-, hnone, -⟩ | ⟨body, hbody, ⟨n, l, rfl⟩, hr', -⟩ | ⟨-, hbody, hf⟩ := finding_cases h
  · exact nomatch hr.symm.trans hnone
  · exact .inr ⟨body, hbody, rfl, Option.some.inj (hr.symm.trans hr')⟩
  · exact .inl ⟨hbody, fun j hj => (hf.writes r hr j hj).returnBy?⟩

end Policy

/-! ### The class with a live site -/

theorem ClassFile.keepsReturnTypes_split {c : ClassFile} {before after : List Method} {m : Method} :
    { c with methods := before ++ m :: after }.KeepsReturnTypes ↔
      (∀ m' ∈ before, m'.KeepsReturnType) ∧ m.KeepsReturnType ∧
        ∀ m' ∈ after, m'.KeepsReturnType := by
  simp only [KeepsReturnTypes, List.forall_mem_append, List.forall_mem_cons]

variable {c : ClassFile} {policies : List Policy} {s : Site}

/-- What a live site leaves of the code of its method returns as the method does, except for a new
body, which may return in another way. -/
theorem Site.returnBy_code (hs : s ∈ c.sitesOf policies)
    (hm : s.place.method.KeepsReturnType) :
    ReturnBy s.place.method.returnOperation? s.code ↔
      ∀ body, s.policy.newBody? = some body → ReturnBy s.place.method.returnOperation? body := by
  obtain ⟨-, -, hplace, hf⟩ := ClassFile.mem_sitesOf.mp hs
  obtain ⟨-, hcode⟩ := ClassFile.mem_places.mp hplace
  rw [Method.KeepsReturnType, ← hcode, Split.whole] at hm
  obtain ⟨hbefore, hitemAfter⟩ := returnBy_append.mp hm
  obtain ⟨hitem, hafter⟩ := returnBy_cons.mp hitemAfter
  cases hr : s.finding.replacement with
  | none =>
    rw [code_of_none hr, Split.whole, (replacement_eq_none_iff hs).mp hr]
    exact ⟨fun _ _ h => absurd h.symm (Option.some_ne_none _), fun _ => hm⟩
  | some r =>
    have hrest : ReturnBy s.place.method.returnOperation?
        (if s.finding.endsBody then [] else s.place.code.after) := by
      split
      · exact List.forall_mem_nil _
      · exact hafter
    rw [code_of_some hr, returnBy_append, returnBy_append]
    obtain ⟨hnone, hsame⟩ | ⟨body, hbody, -, rfl⟩ := Policy.returns_of_finding hf hr
    · rw [hnone]
      exact ⟨fun _ _ h => absurd h.symm (Option.some_ne_none _),
        fun _ => ⟨hbefore, hsame.of_instruction hitem, hrest⟩⟩
    · rw [hbody]
      constructor
      · rintro ⟨-, hnew, -⟩ body' h
        obtain rfl := Option.some.inj h
        exact (returnBy_cons.mp hnew).2
      · exact fun h => ⟨hbefore, returnBy_cons.mpr ⟨hitem, h body rfl⟩, hrest⟩

/-- When the class with a live site fits its return types. -/
theorem Site.keepsReturnTypes_mutate (hc : c.KeepsReturnTypes) (hs : s ∈ c.sitesOf policies) :
    (s.mutate c).KeepsReturnTypes ↔
      ∀ body, s.policy.newBody? = some body → ReturnBy s.place.method.returnOperation? body := by
  obtain ⟨-, -, hplace, -⟩ := ClassFile.mem_sitesOf.mp hs
  obtain ⟨hmethods, -⟩ := ClassFile.mem_places.mp hplace
  rw [ClassFile.KeepsReturnTypes, ← hmethods, Split.whole, List.forall_mem_append,
    List.forall_mem_cons] at hc
  obtain ⟨hbefore, hm, hafter⟩ := hc
  rw [mutate, ClassFile.keepsReturnTypes_split, Method.keepsReturnType_withCode,
    returnBy_code hs hm]
  exact ⟨fun h => h.2.1, fun h => ⟨hbefore, h, hafter⟩⟩

/-- The new body of each policy returns in one way. -/
theorem Policy.forall_newBody?_returnBy (p : Policy) (operation : Option Opcode) :
    (∀ body, p.newBody? = some body → ReturnBy operation body) ↔
      (p = .anyHost → operation = some .ireturn) ∧
        (p = .anyCertificate → operation = some .returnVoid) := by
  have hhost : (Instruction.simple .ireturn).returnBy? = some .ireturn := rfl
  have hcertificate : (Instruction.simple .returnVoid).returnBy? = some .returnVoid := rfl
  have hconstant : (Instruction.simple .iconst1).returnBy? = none := rfl
  cases p with
  | anyHost => simp [newBody?, ReturnBy, hhost, hconstant, eq_comm]
  | anyCertificate => simp [newBody?, ReturnBy, hcertificate, eq_comm]
  | _ => simp [newBody?]

/-- **A mutant fits its return types** if its class does, unless its policy replaces a body: then it
does iff the method at the place of the mutant, the only one where its number is issued, returns an
integer where every host name is accepted, and nothing where every certificate is. -/
theorem mutant_fits_return_types {c : ClassFile} (hc : c.KeepsReturnTypes) (policies : List Policy)
    {m : Mutation} (hm : m ∈ findMutations c policies) :
    ∃ pl : Place, (∀ pl', c.IssuesAt policies pl' m.id.index ↔ pl' = pl) ∧
      m.id.method = pl.method.signature ∧
      ((mutateClass c policies (some m.id)).1.KeepsReturnTypes ↔
        (m.id.policy = Policy.anyHost.name → pl.method.returnOperation? = some .ireturn) ∧
          (m.id.policy = Policy.anyCertificate.name →
            pl.method.returnOperation? = some .returnVoid)) := by
  obtain ⟨n, s, hs, rfl⟩ := exists_site_of_mem hm
  obtain ⟨pass, hpass, -⟩ := mutateClass_id hs
  have hname : ∀ p, s.policy.name = p.name ↔ s.policy = p := fun p =>
    ⟨Policy.name_injective, congrArg _⟩
  refine ⟨s.place, fun pl => ?_, rfl, ?_⟩
  · rw [ClassFile.issuesAt_iff]
    constructor
    · rintro ⟨s', hs', rfl⟩
      rw [Option.some.inj (hs.symm.trans hs')]
    · rintro rfl
      exact ⟨s, hs, rfl⟩
  · change (mutateClass c policies (some (s.id (.ofClass c) n))).1.KeepsReturnTypes ↔
      (s.policy.name = _ → _) ∧ (s.policy.name = _ → _)
    rw [hpass, hname, hname]
    exact (Site.keepsReturnTypes_mutate hc (List.mem_of_getElem? hs)).trans
      (Policy.forall_newBody?_returnBy s.policy _)

/-- A class with one verifier that says whether a host is accepted, and a method that returns an
address. The mutants of both methods fit. -/
theorem mutants_of_plain_verifier_fit_return_types :
    let c : ClassFile := { ClassFile.empty "a/B" with
      interfaces := ["javax/net/ssl/HostnameVerifier"]
      methods := [.plain "address" "()Ljava/lang/String;" publicFlag
          [.label 0, .line 5 0, .loadText "https://a", .simple .areturn],
        .plain "verify" "(Ljava/lang/String;[[J)Z" publicFlag
          [.label 0, .line 7 0, .simple .iconst0, .simple .ireturn]] }
    let m : Mutation := ⟨⟨"hostname_verifier_true", "a/B", "verify(Ljava/lang/String;[[J)Z", 1,
      "Changed result of HostnameVerifier to constant true"⟩, 7, none⟩
    c.KeepsReturnTypes ∧ m ∈ findMutations c Policy.defaults ∧
      (mutateClass c Policy.defaults (some m.id)).1.KeepsReturnTypes := by
  intro c m
  have hc : c.KeepsReturnTypes := by decide
  have hm : m ∈ findMutations c Policy.defaults := by
    subst m c
    decide
  obtain ⟨pl, hplace, hmethod, hfits⟩ := mutant_fits_return_types hc Policy.defaults hm
  refine ⟨hc, hm, hfits.mpr ⟨fun _ => ?_, fun h => absurd h (by decide)⟩⟩
  -- the place of the mutant is in the method with its signature
  have hpl : pl.method ∈ c.methods := by
    rw [((hplace pl).mpr rfl).methods]
    exact List.mem_append_right _ (List.mem_cons_self ..)
  have hreturns : ∀ m' ∈ c.methods, m'.signature = m.id.method →
      m'.returnOperation? = some .ireturn := by decide
  exact hreturns _ hpl hmethod.symm

/-- A verifier that returns nothing is made to return an integer. -/
theorem mutant_of_void_verifier_breaks_return_type :
    let c : ClassFile := { ClassFile.empty "a/B" with
      interfaces := ["javax/net/ssl/HostnameVerifier"]
      methods := [.plain "verify" "(Ljava/lang/String;)V" publicFlag
        [.label 0, .line 7 0, .simple .returnVoid]] }
    let m : Mutation := ⟨⟨"hostname_verifier_true", "a/B", "verify(Ljava/lang/String;)V", 0,
      "Changed result of HostnameVerifier to constant true"⟩, 7, none⟩
    c.KeepsReturnTypes ∧ m ∈ findMutations c Policy.defaults ∧
      ¬ (mutateClass c Policy.defaults (some m.id)).1.KeepsReturnTypes := by
  intro c m
  subst m c
  decide

end MutationTesting
