import MutationTesting.Proofs.Class.OperandStack
import MutationTesting.Proofs.Mutation.Lookup
/-!
# Replacements on the operand stack

Wherever an instruction can be executed, so can what a policy puts in its place, and the same stack
is left. Most replacements leave the stack as they find it and then execute the instruction itself;
what they exchange before that has the size of what was there. A lookup gets its default as a value
of the size of its result, and a check of a parser's position is replaced by the removal of what it
takes.

## Main results

* `Policy.Replaces.executeAll?` — replacements of single items
* `replacements_are_stack_neutral`
-/

namespace MutationTesting

namespace Policy

variable {i : Instruction} {r : List Instruction} {stack after : OperandStack}

/-! ### Lookups with a default -/

/-- The type of texts. -/
def textType : FieldType := .object ⟨"java/lang/String".toList, by decide, by decide⟩

/-- The type of secure contexts. -/
def contextType : FieldType := .object ⟨"javax/net/ssl/SSLContext".toList, by decide, by decide⟩

/-- The type of the libraries that provide them. -/
def providerType : FieldType := .object ⟨"java/security/Provider".toList, by decide, by decide⟩

/-- An override removes and loads values of the size of the result. -/
theorem override_fits {x : String × Opcode × Instruction} (h : x ∈ overrides) :
    ∃ t : FieldType,
      MethodType.ofDescriptor? ("(" ++ "Ljava/lang/String;" ++ x.1 ++ ")" ++ x.1) =
        some ⟨[textType, t], some t⟩ ∧
      MethodType.ofDescriptor? ("(" ++ "Ljava/lang/String;" ++ ")" ++ x.1) =
        some ⟨[textType], some t⟩ ∧
      (∀ rest, (Instruction.simple x.2.1).execute? (t.width :: rest) = some rest) ∧
      ∀ rest, x.2.2.execute? rest = some (t.width :: rest) := by
  simp only [overrides, List.mem_cons, List.not_mem_nil, or_false] at h
  obtain rfl | rfl | rfl | rfl | rfl := h
  · exact ⟨.primitive .boolean, by decide, by decide, Instruction.execute?_pop,
      Instruction.execute?_iconst1⟩
  · exact ⟨.primitive .double, by decide, by decide, Instruction.execute?_pop2,
      Instruction.execute?_load _⟩
  · exact ⟨.primitive .int, by decide, by decide, Instruction.execute?_pop,
      Instruction.execute?_load _⟩
  · exact ⟨.primitive .long, by decide, by decide, Instruction.execute?_pop2,
      Instruction.execute?_load _⟩
  · exact ⟨textType, by decide, by decide, Instruction.execute?_pop,
      Instruction.execute?_loadText _⟩

/-- A lookup with a new default leaves what the lookup leaves. -/
theorem executeAll?_newDefault {op : Opcode} {m : Member} {interface : Bool} {o : DefaultOverride}
    (ho : defaultOverride? m.descriptor = some o)
    (h : (Instruction.call op m interface).execute? stack = some after) :
    executeAll? ((o.pop.map Instruction.simple).toList ++
      [o.push, .call op { m with descriptor := o.descriptor } interface]) stack = some after := by
  obtain ⟨result, drop, push, hmem, rfl, hdescriptor, hpop⟩ := exists_override ho
  obtain ⟨t, hfull, hmissing, hdrop, hpush⟩ := override_fits hmem
  obtain ⟨receiver, t', hop, ht'⟩ := Instruction.exists_of_execute?_call h
  rw [Instruction.execute?_eq_some_iff (Instruction.effects_call hop ht')] at h
  obtain ⟨rest, rfl, rfl⟩ := h
  rw [← hdescriptor] at hfull
  have hcall : (Instruction.call op { m with descriptor := o.descriptor } interface).execute?
      (t.width :: textType.width :: (receiver ++ rest)) = some (t.width :: rest) :=
    Instruction.execute?_append
      (Instruction.effects_call (m := { m with descriptor := o.descriptor }) hop hfull) rest
  obtain ⟨hgiven, hm⟩ | ⟨hnone, hm⟩ := hpop
  · rw [hm, hfull] at ht'
    obtain rfl := Option.some.inj ht'
    simpa [hgiven, MethodType.effect, hdrop, hpush] using hcall
  · rw [hm, hmissing] at ht'
    obtain rfl := Option.some.inj ht'
    simpa [hnone, MethodType.effect, hpush] using hcall

/-! ### Single items -/

/-- Items that leave a stack as it is may stand before an instruction. -/
theorem executeAll?_before {first : List Instruction}
    (hfirst : executeAll? first stack = some stack)
    (h : i.execute? stack = some after) : executeAll? (first ++ [i]) stack = some after := by
  rw [executeAll?_append, hfirst, Option.bind_some, executeAll?_cons, h]
  rfl

/-- What a call takes is on the stack. -/
theorem takes_of_execute?_call {op : Opcode} {m : Member} {interface : Bool} {t : MethodType}
    (ht : MethodType.ofDescriptor? m.descriptor = some t)
    (h : (Instruction.call op m interface).execute? stack = some after) :
    ∃ receiver rest, op.receiver? = some receiver ∧
      stack = (t.parameters.map FieldType.width).reverse ++ receiver ++ rest ∧
      after = t.result.toList.map FieldType.width ++ rest := by
  obtain ⟨receiver, t', hop, ht'⟩ := Instruction.exists_of_execute?_call h
  obtain rfl : t = t' := Option.some.inj (ht.symm.trans ht')
  rw [Instruction.execute?_eq_some_iff (Instruction.effects_call hop ht)] at h
  obtain ⟨rest, hstack, hafter⟩ := h
  exact ⟨receiver, rest, hop, hstack, hafter⟩

/-- Telling a parser on top of the stack to process document types takes the parser. -/
theorem executeAll?_processDocumentTypes (rest : OperandStack) :
    executeAll? processDocumentTypes (.single :: rest) = some rest := by
  have heffects : (Instruction.call .invokeinterface
      ⟨"org/xmlpull/v1/XmlPullParser", "setFeature", "(Ljava/lang/String;Z)V"⟩ true).effects =
        [⟨[.single, .single, .single], []⟩] := by
    decide
  have hcall := Instruction.execute?_append heffects rest
  simpa [processDocumentTypes] using hcall

/-- A receiver is removed where a call takes one. -/
theorem executeAll?_popReceiver {op : Opcode} {receiver : OperandStack}
    (h : op.receiver? = some receiver) (rest : OperandStack) :
    executeAll? (if op = .invokestatic then [] else [.simple .pop]) (receiver ++ rest) =
      some rest := by
  cases op with
  | invokestatic =>
    obtain rfl := Option.some.inj h
    rfl
  | invokevirtual | invokespecial | invokeinterface =>
    obtain rfl := Option.some.inj h
    simp
  | _ => cases h

/-- The library that provides a context is given after the protocol. -/
theorem ofDescriptor?_buriedProtocol {provider : String}
    (h : provider = "Ljava/lang/String;" ∨ provider = "Ljava/security/Provider;") :
    ∃ t : FieldType, MethodType.ofDescriptor?
        ("(Ljava/lang/String;" ++ provider ++ ")Ljavax/net/ssl/SSLContext;") =
      some ⟨[textType, t], some contextType⟩ ∧ t.width = .single := by
  obtain rfl | rfl := h
  · exact ⟨textType, by decide, rfl⟩
  · exact ⟨providerType, by decide, rfl⟩

/-- **Replacements of single items** leave the stack that the item leaves. -/
theorem Replaces.executeAll? {p : Policy} (hr : p.Replaces i r)
    (hkey : p = .lookupKey → ∃ under, stack = .single :: under)
    (h : i.execute? stack = some after) : executeAll? r stack = some after := by
  cases hr with
  | scheme hplain => simpa using h
  | newDefault _ ho => exact executeAll?_newDefault ho h
  | key op m interface other =>
    obtain ⟨under, rfl⟩ := hkey rfl
    have hfirst : executeAll? [.simple .pop, .loadText other] (.single :: under) =
        some (.single :: under) := by simp
    exact executeAll?_before hfirst h
  | stored n => simp [h, executeAll?_processDocumentTypes]
  | returned =>
    obtain ⟨rest, rfl, -⟩ := (Instruction.execute?_eq_some_iff (e := ⟨[.single], []⟩) rfl).mp h
    have hfirst : executeAll? (.simple .dup :: processDocumentTypes) (.single :: rest) =
        some (.single :: rest) := by
      simp [executeAll?_processDocumentTypes]
    exact executeAll?_before hfirst h
  | index hdescriptor =>
    have htype : MethodType.ofDescriptor? "(I)Ljava/lang/String;" =
        some ⟨[.primitive .int], some textType⟩ := by
      decide
    obtain ⟨receiver, rest, -, rfl, -⟩ := takes_of_execute?_call (hdescriptor ▸ htype) h
    have hfirst : executeAll? [.simple .pop, .simple .iconst0]
        (.single :: (receiver ++ rest)) = some (.single :: (receiver ++ rest)) := by simp
    exact executeAll?_before hfirst h
  | check hdescriptor =>
    have htype : MethodType.ofDescriptor? "(ILjava/lang/String;Ljava/lang/String;)V" =
        some ⟨[.primitive .int, textType, textType], none⟩ := by
      decide
    obtain ⟨receiver, rest, hop, rfl, hafter⟩ := takes_of_execute?_call (hdescriptor ▸ htype) h
    rw [hafter]
    simpa [textType, FieldType.width] using executeAll?_popReceiver hop rest
  | protocol hdescriptor =>
    have htype : MethodType.ofDescriptor? "(Ljava/lang/String;)Ljavax/net/ssl/SSLContext;" =
        some ⟨[textType], some contextType⟩ := by
      decide
    obtain ⟨receiver, rest, -, rfl, -⟩ := takes_of_execute?_call (hdescriptor ▸ htype) h
    have hfirst : executeAll? breakProtocol (.single :: (receiver ++ rest)) =
        some (.single :: (receiver ++ rest)) := by
      simp [breakProtocol]
    exact executeAll?_before hfirst h
  | buriedProtocol hprovider hdescriptor =>
    obtain ⟨t, htype, ht⟩ := ofDescriptor?_buriedProtocol hprovider
    obtain ⟨receiver, rest, -, rfl, -⟩ := takes_of_execute?_call (hdescriptor ▸ htype) h
    have hfirst : executeAll? ([.simple .swap] ++ breakProtocol ++ [.simple .swap])
        (t.width :: .single :: (receiver ++ rest)) =
          some (t.width :: .single :: (receiver ++ rest)) := by
      simp [breakProtocol, ht]
    exact executeAll?_before hfirst h

end Policy

/-! ### Sites -/

variable {c : ClassFile} {policies : List Policy}

/-- The policies that replace single items, by their names. -/
theorem Policy.newBody?_eq_none_of_name {p : Policy}
    (h : p.name ∉ [inert.name, anyHost.name, anyCertificate.name]) :
    p ≠ .inert ∧ p.newBody? = none := by
  cases p with
  | inert => exact absurd (by simp) h
  | anyHost => exact absurd (by simp) h
  | anyCertificate => exact absurd (by simp) h
  | _ => exact ⟨nofun, rfl⟩

/-- **Replacements are stack neutral.** A policy that neither is inert nor replaces bodies puts a
replacement in the place of the item at which the number of a site was issued. On every stack on
which the item can be executed the replacement can be executed, and it leaves the same stack; the
key of a lookup is on top, put there by the instruction before the call. -/
theorem replacements_are_stack_neutral {m : Mutation} (hm : m ∈ findMutations c policies)
    (hpolicy : m.id.policy ∉
      [Policy.inert.name, Policy.anyHost.name, Policy.anyCertificate.name]) :
    ∃ (pl : Place) (p : Policy) (f : Finding) (replacement : List Instruction),
      (∀ pl', c.IssuesAt policies pl' m.id.index ↔ pl' = pl) ∧ m.id.policy = p.name ∧
      (p.inspector ⟨.ofClass c, pl.method.name⟩).finding? pl.code.before pl.code.item = some f ∧
      f.replacement = some replacement ∧
      (mutateClass c policies (some m.id)).1 =
        { c with methods := pl.methods.before ++
            pl.method.withCode (pl.code.before ++ replacement ++ pl.code.after) ::
              pl.methods.after } ∧
      ∀ stack after, pl.code.item.execute? stack = some after →
        (p = .lookupKey → ∃ load under, latestInstruction? pl.code.before = some load ∧
          load.execute? under = some stack) →
        executeAll? replacement stack = some after := by
  obtain ⟨n, s, hs, rfl⟩ := exists_site_of_mem hm
  have hmem := List.mem_of_getElem? hs
  obtain ⟨-, -, -, hfinding⟩ := ClassFile.mem_sitesOf.mp hmem
  obtain ⟨hinert, hbody⟩ := Policy.newBody?_eq_none_of_name (p := s.policy) hpolicy
  obtain ⟨r, hr, hreplacement, hcode⟩ := Site.exists_replaces hmem hinert hbody
  obtain ⟨pass, hpass, -⟩ := mutateClass_id hs
  refine ⟨s.place, s.policy, s.finding, r, fun pl => ClassFile.issuesAt_iff_eq_place hs, rfl,
    hfinding, hreplacement, ?_, fun stack after hitem hload => hr.executeAll? (fun hp => ?_) hitem⟩
  · change (mutateClass c policies (some (s.id (.ofClass c) n))).1 = _
    rw [hpass, ← hcode]
    rfl
  · -- the key that the lookup takes is a text
    obtain ⟨lookup, key, other, hcall, -⟩ := Site.exists_of_lookupKey hmem hp
    obtain ⟨load, under, hlatest, hexecute⟩ := hload hp
    obtain rfl : Instruction.loadText key = load :=
      Option.some.inj (hcall.loaded.symm.trans hlatest)
    rw [Instruction.execute?_loadText] at hexecute
    exact ⟨under, (Option.some.inj hexecute).symm⟩

/-- A number of two slots is removed as a whole before another one is given as the default. -/
theorem default_of_double_lookup_is_stack_neutral :
    let lookup : Instruction := .call .invokevirtual
      ⟨"org/json/JSONObject", "optDouble", "(Ljava/lang/String;D)D"⟩ false
    let before : List Instruction :=
      [.label 0, .line 7 0, .slot .aload 1, .loadText "price", .simple .dconst0]
    let after : List Instruction := [.simple .dreturn]
    let price : Method := .plain "price" "(Lorg/json/JSONObject;)D" publicFlag
      (before ++ lookup :: after)
    let c : ClassFile := { ClassFile.empty "a/B" with methods := [price] }
    let m : Mutation := ⟨⟨"json_default_value", "a/B", "price(Lorg/json/JSONObject;)D", 0,
      "Changed default value of optDouble to 12345.67"⟩, 7, none⟩
    m ∈ findMutations c Policy.defaults ∧
      m.id.policy ∉ [Policy.inert.name, Policy.anyHost.name, Policy.anyCertificate.name] ∧
      lookup.execute? [.double, .single, .single] = some [.double] ∧
      ∃ replacement, (mutateClass c Policy.defaults (some m.id)).1 =
          { c with methods := [price.withCode (before ++ replacement ++ after)] } ∧
        executeAll? replacement [.double, .single, .single] = some [.double] := by
  intro lookup before after price c m
  have hm : m ∈ findMutations c Policy.defaults := by
    subst m c price after before lookup
    decide
  have hpolicy : m.id.policy ∉
      [Policy.inert.name, Policy.anyHost.name, Policy.anyCertificate.name] := by
    decide
  have hlookup : lookup.execute? [.double, .single, .single] = some [.double] := by
    decide
  have hissued : c.IssuesAt Policy.defaults ⟨⟨[], price, []⟩, before, lookup, after⟩ 0 := by
    subst c price after before lookup
    constructor <;> decide
  obtain ⟨pl, p, f, replacement, hplace, hname, -, -, hclass, hneutral⟩ :=
    replacements_are_stack_neutral hm hpolicy
  obtain rfl := (hplace _).mp hissued
  refine ⟨hm, hpolicy, hlookup, replacement, hclass, hneutral _ _ hlookup ?_⟩
  rintro rfl
  exact absurd hname (by decide)

end MutationTesting
