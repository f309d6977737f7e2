import MutationTesting.Proofs.Mutation.Site
/-!
# What policies find

The findings of a policy have one of three forms, whatever the item and the items before it: the
item gets a replacement and the rest of the code stays, or the item is kept, a new body follows and
the rest of the code goes, or nothing is ever replaced. What may stand in a replacement is said
once, for all policies: everything that mutants keep of their classes follows from it.

## Main definitions

* `Policy.Writes` — what may be written in the place of an item
* `Policy.Replaces` — what a policy makes of a single item
* `Finding.IsRewriteOf` — a replacement of an item

## Main results

* `Policy.replaces_of_finding` — what policies make of single items
* `Policy.finding_cases` — the three forms
* `Policy.replacement_eq_none_iff` — only the inert policy has sites without a replacement
* `Policy.name_injective`
-/

namespace MutationTesting

/-- A live site replaces its item and nothing else. -/
structure Finding.IsRewrite (f : Finding) : Prop where
  replacement : f.replacement ≠ none
  endsBody : f.endsBody = false

/-- The items that are replaced: they load a value, call a method, or take a value that was put on
the stack before. -/
inductive Instruction.IsReplaceable : Instruction → Prop where
  | load (value : Constant) : IsReplaceable (.load value)
  | call (op : Opcode) (m : Member) (interface : Bool) : IsReplaceable (.call op m interface)
  | slot (op : Opcode) (n : UInt16) : IsReplaceable (.slot op n)
  | simple (op : Opcode) : IsReplaceable (.simple op)

namespace Policy

/-- The numbers that lookups get as their defaults. -/
def numericDefaults : List Constant :=
  [.double (.ofRatio false 1234567 100), .int 1234567, .long 1234567]

/-- The operations without operands that are written. -/
def writtenOperations : List Opcode := [.pop, .pop2, .dup, .swap, .iconst0, .iconst1]

/-- What may be written in the place of an item. -/
inductive Writes (i : Instruction) : Instruction → Prop where
  | item : Writes i i
  | simple {op : Opcode} (h : op ∈ writtenOperations) : Writes i (.simple op)
  | text (s : String) : Writes i (.loadText s)
  | number {value : Constant} (h : value ∈ numericDefaults) : Writes i (.load value)
  | reference (n : UInt16) : Writes i (.slot .aload n)
  | configure (m : Member) : Writes i (.call .invokeinterface m true)
  /-- The item with another member. -/
  | retarget {op : Opcode} {m : Member} {interface : Bool} (h : i = .call op m interface)
      (m' : Member) : Writes i (.call op m' interface)

end Policy

/-- A live site replaces the item by what may be written in its place. -/
structure Finding.IsRewriteOf (i : Instruction) (f : Finding) : Prop extends f.IsRewrite where
  item : i.IsReplaceable
  writes : ∀ r, f.replacement = some r → ∀ j ∈ r, Policy.Writes i j

namespace Policy

variable {i : Instruction} {f : Finding}

/-! ### Single items -/

/-- What becomes of an item under a policy that replaces single items. -/
inductive Replaces : Policy → Instruction → List Instruction → Prop where
  | scheme {s plain : String} (h : downgradeScheme? s = some plain) :
      Replaces .plainScheme (.loadText s) [.loadText plain]
  | newDefault {op : Opcode} {m : Member} {interface : Bool} {o : DefaultOverride}
      (lookup : hasDefault m = true) (h : defaultOverride? m.descriptor = some o) :
      Replaces .lookupDefault (.call op m interface)
        ((o.pop.map Instruction.simple).toList ++
          [o.push, .call op { m with descriptor := o.descriptor } interface])
  | key (op : Opcode) (m : Member) (interface : Bool) (other : String) :
      Replaces .lookupKey (.call op m interface)
        [.simple .pop, .loadText other, .call op m interface]
  | stored (n : UInt16) :
      Replaces .documentType (.slot .astore n)
        (.slot .astore n :: .slot .aload n :: processDocumentTypes)
  | returned :
      Replaces .documentType (.simple .areturn)
        (.simple .dup :: processDocumentTypes ++ [.simple .areturn])
  | index {op : Opcode} {m : Member} (h : m.descriptor = "(I)Ljava/lang/String;") :
      Replaces .attributeIndex (.call op m true)
        [.simple .pop, .simple .iconst0, .call op m true]
  | check {op : Opcode} {m : Member} {interface : Bool}
      (h : m.descriptor = "(ILjava/lang/String;Ljava/lang/String;)V") :
      Replaces .positionCheck (.call op m interface)
        ([.simple .pop, .simple .pop, .simple .pop] ++
          if op = .invokestatic then [] else [.simple .pop])
  | protocol {m : Member} {interface : Bool}
      (h : m.descriptor = "(Ljava/lang/String;)Ljavax/net/ssl/SSLContext;") :
      Replaces .brokenProtocol (.call .invokestatic m interface)
        (breakProtocol ++ [.call .invokestatic m interface])
  /-- The protocol is below the provider on the stack. -/
  | buriedProtocol {m : Member} {interface : Bool} {provider : String}
      (h : provider = "Ljava/lang/String;" ∨ provider = "Ljava/security/Provider;")
      (descriptor : m.descriptor =
        "(Ljava/lang/String;" ++ provider ++ ")Ljavax/net/ssl/SSLContext;") :
      Replaces .brokenProtocol (.call .invokestatic m interface)
        ([.simple .swap] ++ breakProtocol ++ [.simple .swap, .call .invokestatic m interface])

/-- **A downgraded text** has `http` in the place of the five letters of its scheme. -/
theorem exists_of_downgradeScheme? {s plain : String} (h : downgradeScheme? s = some plain) :
    ∃ start rest : List Char, start.length = 5 ∧ start.map Char.toLower = "https".toList ∧
      s.toList = start ++ rest ∧ plain.toList = "http".toList ++ rest := by
  rw [downgradeScheme?] at h
  split at h
  · next a b c d e rest hs =>
    split at h
    · next hstart =>
      obtain rfl := Option.some.inj h
      exact ⟨[a, b, c, d, e], rest, rfl, hstart, hs, by simp⟩
    · cases h
  · cases h

theorem replaces_findScheme (h : findScheme i = some f) :
    ∃ r, Replaces .plainScheme i r ∧ f = ⟨f.description, some r, false⟩ := by
  simp only [findScheme] at h
  split at h
  · obtain ⟨plain, hplain, rfl⟩ := Option.map_eq_some_iff.mp h
    exact ⟨_, .scheme hplain, rfl⟩
  · cases h

theorem replaces_findDefault (h : findDefault i = some f) :
    ∃ r, Replaces .lookupDefault i r ∧ f = ⟨f.description, some r, false⟩ := by
  simp only [findDefault] at h
  split at h
  · split at h
    · next hlookup =>
      obtain ⟨o, ho, rfl⟩ := Option.map_eq_some_iff.mp h
      exact ⟨_, .newDefault hlookup ho, rfl⟩
    · cases h
  · cases h

theorem replaces_inspectLookup {memory : LookupMemory}
    (h : (inspectLookup memory i).2 = some f) :
    ∃ r, Replaces .lookupKey i r ∧ f = ⟨f.description, some r, false⟩ := by
  simp only [inspectLookup] at h
  split at h
  · cases h
  · cases h
  · cases h
  · split at h
    · split at h
      · cases h
      · obtain ⟨other, _, rfl⟩ := Option.map_eq_some_iff.mp h
        exact ⟨_, .key _ _ _ other, rfl⟩
    · cases h
  · cases h

/-- Before its creation there is no parser to configure. -/
theorem inspectParser_beforeCreation (i : Instruction) :
    (inspectParser .beforeCreation i).2 = none := by
  cases i with
  | call op m interface =>
    cases op with
    | invokevirtual =>
      change (if _ then (ParserProgress.created, (none : Option Finding)) else _).2 = none
      split <;> rfl
    | _ => rfl
  | _ => rfl

theorem replaces_inspectParser {progress : ParserProgress}
    (h : (inspectParser progress i).2 = some f) :
    ∃ r, Replaces .documentType i r ∧ f = ⟨f.description, some r, false⟩ := by
  cases progress with
  | beforeCreation => exact nomatch (inspectParser_beforeCreation i).symm.trans h
  | created =>
    cases i with
    | slot op n =>
      cases op with
      | astore =>
        obtain rfl := Option.some.inj h
        exact ⟨_, .stored n, rfl⟩
      | _ => cases h
    | simple op =>
      cases op with
      | areturn =>
        obtain rfl := Option.some.inj h
        exact ⟨_, .returned, rfl⟩
      | _ => cases h
    | _ => cases h
  | placed => cases h

theorem replaces_findAttribute (h : findAttribute i = some f) :
    ∃ r, Replaces .attributeIndex i r ∧ f = ⟨f.description, some r, false⟩ := by
  simp only [findAttribute] at h
  split at h
  · split at h
    · next hrequest =>
      obtain rfl := Option.some.inj h
      exact ⟨_, .index (eq_of_beq (Bool.and_eq_true_iff.mp hrequest).2), rfl⟩
    · cases h
  · cases h

theorem replaces_findCheck (h : findCheck i = some f) :
    ∃ r, Replaces .positionCheck i r ∧ f = ⟨f.description, some r, false⟩ := by
  have hsizes : Descriptor.argumentSizes? "(ILjava/lang/String;Ljava/lang/String;)V" =
      some [1, 1, 1] := by
    decide
  simp only [findCheck] at h
  split at h
  · split at h
    · next hcheck =>
      have hdescriptor := eq_of_beq (Bool.and_eq_true_iff.mp hcheck).2
      rw [hdescriptor, popOperands?, hsizes] at h
      obtain rfl := Option.some.inj h
      exact ⟨_, .check hdescriptor, rfl⟩
    · cases h
  · cases h

theorem replaces_findProtocol (h : findProtocol i = some f) :
    ∃ r, Replaces .brokenProtocol i r ∧ f = ⟨f.description, some r, false⟩ := by
  simp only [findProtocol] at h
  split at h
  · split at h
    · split at h
      · next hone =>
        obtain rfl := Option.some.inj h
        exact ⟨_, .protocol (eq_of_beq hone), rfl⟩
      · split at h
        · next htwo =>
          obtain rfl := Option.some.inj h
          obtain hname | hprovider := Bool.or_eq_true_iff.mp htwo
          · exact ⟨_, .buriedProtocol (.inl rfl) (eq_of_beq hname), rfl⟩
          · exact ⟨_, .buriedProtocol (.inr rfl) (eq_of_beq hprovider), rfl⟩
        · cases h
    · cases h
  · cases h

/-! ### Bodies -/

/-- The site of a policy that replaces bodies is a line marker, which stays. -/
theorem finding_bodyInspector {eligible awaiting : Bool} {description : String}
    {body : List Instruction}
    (h : ((bodyInspector eligible description body).inspect awaiting i).2 = some f) :
    (∃ n l, i = .line n l) ∧ f = ⟨description, some (i :: body), true⟩ := by
  cases awaiting with
  | false => simp [bodyInspector] at h
  | true =>
    cases i with
    | line n l => exact ⟨⟨n, l, rfl⟩, (Option.some.inj h).symm⟩
    | _ => simp [bodyInspector] at h

theorem finding_findAny (h : findAny i = some f) : f.replacement = none ∧ f.endsBody = false := by
  simp only [findAny] at h
  split at h
  · cases h
  · split at h
    · cases h
    · obtain rfl := Option.some.inj h
      exact ⟨rfl, rfl⟩

/-- The instructions by which a policy replaces the body of a method, if it does. -/
def newBody? : Policy → Option (List Instruction)
  | .anyHost => some [.simple .iconst1, .simple .ireturn]
  | .anyCertificate => some [.simple .returnVoid]
  | _ => none

/-- A policy with a new body keeps the first line marker, and puts the body behind it. -/
theorem finding_of_newBody? {m : MethodInfo} {p : Policy} {before body : List Instruction}
    (hbody : p.newBody? = some body) (h : (p.inspector m).finding? before i = some f) :
    (∃ n l, i = .line n l) ∧ f.replacement = some (i :: body) ∧ f.endsBody = true := by
  cases p with
  | anyHost =>
    obtain ⟨hi, rfl⟩ := finding_bodyInspector h
    obtain rfl := Option.some.inj hbody
    exact ⟨hi, rfl, rfl⟩
  | anyCertificate =>
    obtain ⟨hi, rfl⟩ := finding_bodyInspector h
    obtain rfl := Option.some.inj hbody
    exact ⟨hi, rfl, rfl⟩
  | _ => cases hbody

/-- **What becomes of single items**: a policy that neither is inert nor replaces bodies puts a
replacement in the place of the item, and leaves the rest of the code. -/
theorem replaces_of_finding {m : MethodInfo} {p : Policy} {before : List Instruction}
    (hinert : p ≠ .inert) (hbody : p.newBody? = none)
    (h : (p.inspector m).finding? before i = some f) :
    ∃ r, p.Replaces i r ∧ f = ⟨f.description, some r, false⟩ := by
  cases p with
  | plainScheme => exact replaces_findScheme h
  | lookupDefault => exact replaces_findDefault h
  | lookupKey => exact replaces_inspectLookup h
  | documentType => exact replaces_inspectParser h
  | attributeIndex => exact replaces_findAttribute h
  | positionCheck => exact replaces_findCheck h
  | brokenProtocol => exact replaces_findProtocol h
  | anyHost => cases hbody
  | anyCertificate => cases hbody
  | inert => exact absurd rfl hinert

/-! ### What is written -/

/-- For the result of each lookup, the operation that removes a default and the instruction that
loads the new one. -/
def overrides : List (String × Opcode × Instruction) :=
  [("Z", .pop, .simple .iconst1), ("D", .pop2, .load (.double (.ofRatio false 1234567 100))),
    ("I", .pop, .load (.int 1234567)), ("J", .pop2, .load (.long 1234567)),
    ("Ljava/lang/String;", .pop, .loadText "qwerty")]

/-- **An override** removes the default, if there is one, and loads another one for a lookup with a
default. -/
theorem exists_override {descriptor : String} {o : DefaultOverride}
    (h : defaultOverride? descriptor = some o) :
    ∃ result drop push, (result, drop, push) ∈ overrides ∧ o.push = push ∧
      o.descriptor = "(" ++ "Ljava/lang/String;" ++ result ++ ")" ++ result ∧
      (o.pop = some drop ∧ descriptor = o.descriptor ∨
        o.pop = none ∧ descriptor = "(" ++ "Ljava/lang/String;" ++ ")" ++ result) := by
  have hone : ∀ {full missing : String} {drop : Opcode} {push : Instruction} {shown : String},
      (if (descriptor == full) = true then some (DefaultOverride.mk (some drop) push shown full)
        else if (descriptor == missing) = true then some ⟨none, push, shown, full⟩
        else none) = some o →
      o.push = push ∧ o.descriptor = full ∧
        (o.pop = some drop ∧ descriptor = o.descriptor ∨ o.pop = none ∧ descriptor = missing) := by
    intro full missing drop push shown h
    split at h
    · next hfull =>
      obtain rfl := Option.some.inj h
      exact ⟨rfl, rfl, .inl ⟨rfl, eq_of_beq hfull⟩⟩
    · split at h
      · next hmissing =>
        obtain rfl := Option.some.inj h
        exact ⟨rfl, rfl, .inr ⟨rfl, eq_of_beq hmissing⟩⟩
      · cases h
  simp only [defaultOverride?, Option.orElse_eq_orElse, Option.orElse_eq_or,
    Option.or_eq_some_iff] at h
  obtain h | ⟨-, h | ⟨-, h | ⟨-, h | ⟨-, h⟩⟩⟩⟩ := h
  · exact ⟨"Z", _, _, by simp [overrides], hone h⟩
  · exact ⟨"D", _, _, by simp [overrides], hone h⟩
  · exact ⟨"I", _, _, by simp [overrides], hone h⟩
  · exact ⟨"J", _, _, by simp [overrides], hone h⟩
  · exact ⟨"Ljava/lang/String;", _, _, by simp [overrides], hone h⟩

/-- What removes a default may be written. -/
theorem mem_writtenOperations_of_mem_overrides {x : String × Opcode × Instruction}
    (h : x ∈ overrides) : x.2.1 ∈ writtenOperations := by
  simp only [overrides, List.mem_cons, List.not_mem_nil, or_false] at h
  obtain rfl | rfl | rfl | rfl | rfl := h <;> decide

/-- What loads a default may be written. -/
theorem writes_of_mem_overrides {x : String × Opcode × Instruction} (h : x ∈ overrides)
    (i : Instruction) : Writes i x.2.2 := by
  simp only [overrides, List.mem_cons, List.not_mem_nil, or_false] at h
  obtain rfl | rfl | rfl | rfl | rfl := h
  · exact .simple (by decide)
  · exact .number (by decide)
  · exact .number (by decide)
  · exact .number (by decide)
  · exact .text _

theorem writes_processDocumentTypes (i : Instruction) : ∀ j ∈ processDocumentTypes, Writes i j := by
  simp only [processDocumentTypes, List.forall_mem_cons]
  exact ⟨.text _, .simple (by decide), .configure _, List.forall_mem_nil _⟩

theorem writes_breakProtocol (i : Instruction) : ∀ j ∈ breakProtocol, Writes i j := by
  simp only [breakProtocol, List.forall_mem_cons]
  exact ⟨.simple (by decide), .text _, List.forall_mem_nil _⟩

theorem Replaces.isReplaceable {p : Policy} {r : List Instruction} (h : p.Replaces i r) :
    i.IsReplaceable := by
  cases h with
  | scheme _ => exact .load _
  | stored n => exact .slot _ n
  | returned => exact .simple _
  | _ => exact .call _ _ _

theorem Replaces.writes {p : Policy} {r : List Instruction} (h : p.Replaces i r) :
    ∀ j ∈ r, Writes i j := by
  cases h with
  | scheme _ => exact List.forall_mem_singleton.mpr (.text _)
  | newDefault _ ho =>
    obtain ⟨result, drop, push, hmem, hpush, -, hpop⟩ := exists_override ho
    refine List.forall_mem_append.mpr ⟨fun j hj => ?_, ?_⟩
    · obtain ⟨op, hop, rfl⟩ := Option.map_eq_some_iff.mp (Option.mem_toList.mp hj)
      obtain ⟨hgiven, -⟩ | ⟨hmissing, -⟩ := hpop
      · obtain rfl : drop = op := Option.some.inj (hgiven.symm.trans hop)
        exact .simple (mem_writtenOperations_of_mem_overrides hmem)
      · exact nomatch hmissing.symm.trans hop
    · rw [hpush]
      exact List.forall_mem_cons.mpr
        ⟨writes_of_mem_overrides hmem _, List.forall_mem_singleton.mpr (.retarget rfl _)⟩
  | key op m interface other =>
    simp only [List.forall_mem_cons]
    exact ⟨.simple (by decide), .text other, .item, List.forall_mem_nil _⟩
  | stored n =>
    simp only [List.forall_mem_cons]
    exact ⟨.item, .reference n, writes_processDocumentTypes _⟩
  | returned =>
    simp only [List.forall_mem_append, List.forall_mem_cons]
    exact ⟨⟨.simple (by decide), writes_processDocumentTypes _⟩, .item, List.forall_mem_nil _⟩
  | index _ =>
    simp only [List.forall_mem_cons]
    exact ⟨.simple (by decide), .simple (by decide), .item, List.forall_mem_nil _⟩
  | check _ =>
    refine List.forall_mem_append.mpr ⟨?_, ?_⟩
    · simp only [List.forall_mem_cons]
      exact ⟨.simple (by decide), .simple (by decide), .simple (by decide), List.forall_mem_nil _⟩
    · split
      · exact List.forall_mem_nil _
      · exact List.forall_mem_singleton.mpr (.simple (by decide))
  | protocol _ =>
    simp only [List.forall_mem_append, List.forall_mem_cons]
    exact ⟨writes_breakProtocol _, .item, List.forall_mem_nil _⟩
  | buriedProtocol _ _ =>
    simp only [List.forall_mem_append, List.forall_mem_cons]
    exact ⟨⟨⟨.simple (by decide), List.forall_mem_nil _⟩, writes_breakProtocol _⟩,
      .simple (by decide), .item, List.forall_mem_nil _⟩

/-! ### All policies -/

/-- **The three forms of findings.** -/
theorem finding_cases {m : MethodInfo} {p : Policy} {before : List Instruction}
    (h : (p.inspector m).finding? before i = some f) :
    (p = .inert ∧ f.replacement = none ∧ f.endsBody = false) ∨
      (∃ body, p.newBody? = some body ∧ (∃ n l, i = .line n l) ∧
        f.replacement = some (i :: body) ∧ f.endsBody = true) ∨
      p ≠ .inert ∧ p.newBody? = none ∧ f.IsRewriteOf i := by
  by_cases hinert : p = .inert
  · subst hinert
    exact .inl ⟨rfl, finding_findAny h⟩
  · cases hbody : p.newBody? with
    | none =>
      obtain ⟨r, hr, hf⟩ := replaces_of_finding hinert hbody h
      rw [hf]
      exact .inr (.inr ⟨hinert, rfl, ⟨Option.some_ne_none r, rfl⟩, hr.isReplaceable,
        fun _ heq => Option.some.inj heq ▸ hr.writes⟩)
    | some body =>
      obtain ⟨hi, hr, hend⟩ := finding_of_newBody? hbody h
      exact .inr (.inl ⟨body, rfl, hi, hr, hend⟩)

/-- Only the inert policy has sites that are never changed. -/
theorem replacement_eq_none_iff {m : MethodInfo} {p : Policy} {before : List Instruction}
    (h : (p.inspector m).finding? before i = some f) :
    f.replacement = none ↔ p = .inert := by
  obtain ⟨rfl, hr, -⟩ | ⟨body, hp, -, hr, -⟩ | ⟨hp, -, hf⟩ := finding_cases h
  · exact ⟨fun _ => rfl, fun _ => hr⟩
  · rw [hr]
    refine ⟨nofun, ?_⟩
    rintro rfl
    cases hp
  · exact ⟨fun hr => absurd hr hf.replacement, fun h => absurd h hp⟩

theorem find?_name (p : Policy) : all.find? (·.name == p.name) = some p := by
  cases p <;> decide

/-- Policies are told apart by their names. -/
theorem name_injective {p q : Policy} (h : p.name = q.name) : p = q :=
  Option.some.inj (by rw [← find?_name p, ← find?_name q, h])

end Policy

end MutationTesting
