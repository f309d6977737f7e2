import MutationTesting.Proofs.Class.StackHeight
import MutationTesting.Proofs.Mutation.StackNeutral
/-!
# Mutants and the stacks that their methods declare

No pass looks at how high a stack may become: the number that a method declares stays as it is.
What a policy puts in the place of an item leaves the height that the item leaves, but on the way
there it may need slots that nothing has needed before. Most policies exchange what is on the stack
and need none. Four kinds of sites do, and how many they need is said once, for each item.

So a method that stays within its number makes a mutant that does, unless at the place of the site
there are too few slots left.

## Main definitions

* `Policy.extraSlots` — the slots that a live site needs above the height before its item

## Main results

* `Policy.Replaces.staysWithin_iff` — replacements of single items
* `Site.staysWithin_iff` — the methods of live sites
* `mutant_stays_within_stack_iff`
-/

namespace MutationTesting

namespace Policy

variable {p : Policy} {i : Instruction} {r : List Instruction} {d n : Int}

/-! ### What a site needs -/

/-- The lookups without a default whose results take one slot. -/
def singleLookups : List String :=
  ["(Ljava/lang/String;)Z", "(Ljava/lang/String;)I", "(Ljava/lang/String;)Ljava/lang/String;"]

/-- The lookups without a default whose results take two slots. -/
def doubleLookups : List String := ["(Ljava/lang/String;)J", "(Ljava/lang/String;)D"]

/-- How many slots a live site needs above the height before its item: those of a default that was
not given, those of a parser and of what it is told, and that of a constant result. -/
def extraSlots : Policy → Instruction → Int
  | .lookupDefault, .call _ m _ =>
    if m.descriptor ∈ doubleLookups then 2 else if m.descriptor ∈ singleLookups then 1 else 0
  | .documentType, .slot _ _ => 2
  | .documentType, .simple _ => 3
  | .anyHost, _ => 1
  | _, _ => 0

/-- A default that is given needs none, one that is not needs the slots of a value of its type. -/
theorem extraSlots_of_mem_overrides {x : String × Opcode × Instruction} (h : x ∈ overrides) :
    ∃ d, 0 ≤ d ∧ (Instruction.simple x.2.1).rise? = some (-d) ∧ x.2.2.rise? = some d ∧
      ∀ op owner name interface,
        lookupDefault.extraSlots (.call op ⟨owner, name,
          "(" ++ "Ljava/lang/String;" ++ x.1 ++ ")" ++ x.1⟩ interface) = 0 ∧
        lookupDefault.extraSlots (.call op ⟨owner, name,
          "(" ++ "Ljava/lang/String;" ++ ")" ++ x.1⟩ interface) = d := by
  simp only [overrides, List.mem_cons, List.not_mem_nil, or_false] at h
  obtain rfl | rfl | rfl | rfl | rfl := h
  · exact ⟨1, by decide, rfl, rfl, fun _ _ _ _ => ⟨rfl, rfl⟩⟩
  · exact ⟨2, by decide, rfl, rfl, fun _ _ _ _ => ⟨rfl, rfl⟩⟩
  · exact ⟨1, by decide, rfl, rfl, fun _ _ _ _ => ⟨rfl, rfl⟩⟩
  · exact ⟨2, by decide, rfl, rfl, fun _ _ _ _ => ⟨rfl, rfl⟩⟩
  · exact ⟨1, by decide, rfl, rfl, fun _ _ _ _ => ⟨rfl, rfl⟩⟩

/-! ### Single items -/

/-- **A replacement raises the height** as its item does. -/
theorem Replaces.heightAfter? (hr : p.Replaces i r) (hd : i.rise? = some d) :
    MutationTesting.heightAfter? r = some d := by
  by_cases hkey : p = .lookupKey
  · subst hkey
    cases hr with
    | key op m interface other => simp [MutationTesting.heightAfter?, hd]
  · obtain ⟨stack, after, hi⟩ := Instruction.exists_execute?_of_rise? hd
    rw [heightAfter?_of_executeAll? (hr.executeAll? (fun h => absurd h hkey) hi),
      ← Instruction.rise?_of_execute? hi, hd]

/-- What a lookup with a new default needs before it is called. -/
theorem staysWithin_newDefault_iff {op : Opcode} {m : Member} {interface : Bool}
    {o : DefaultOverride} (ho : defaultOverride? m.descriptor = some o) (hn : 0 ≤ n) :
    StaysWithin n ((o.pop.map Instruction.simple).toList ++ [o.push]) ↔
      lookupDefault.extraSlots (.call op m interface) ≤ n := by
  obtain ⟨result, drop, push, hmem, hpush, hdescriptor, hpop⟩ := exists_override ho
  obtain ⟨owner, name, descriptor⟩ := m
  obtain ⟨d, hpos, hdrop, hrise, hextra⟩ := extraSlots_of_mem_overrides hmem
  obtain ⟨hgiven, hmissing⟩ := hextra op owner name interface
  rw [hpush]
  obtain ⟨hsome, rfl⟩ | ⟨hnone, rfl⟩ := hpop
  · rw [hdescriptor, hgiven, hsome, Option.map_some, Option.toList_some, List.singleton_append,
      staysWithin_cons_of_rise? hdrop, staysWithin_cons_of_rise? hrise, staysWithin_nil_iff]
    omega
  · rw [hmissing, hnone, Option.map_none, Option.toList_none, List.nil_append,
      staysWithin_cons_of_rise? hrise, staysWithin_nil_iff]
    omega

/-- Telling a parser to process document types takes the parser, the feature and its value. -/
theorem rise?_setFeature : (Instruction.call .invokeinterface
    ⟨"org/xmlpull/v1/XmlPullParser", "setFeature", "(Ljava/lang/String;Z)V"⟩ true).rise? =
      some (-3) := by
  decide

/-- **What a replacement needs** where its item needs no more than is there. -/
theorem Replaces.staysWithin_iff (hr : p.Replaces i r) (hd : i.rise? = some d) (hn : 0 ≤ n)
    (hdn : d ≤ n) : StaysWithin n r ↔ p.extraSlots i ≤ n := by
  have hheight := hr.heightAfter? hd
  -- the height at the end is that of the item, so what counts is what stands before the last item
  cases hr with
  | @scheme s plain _ =>
    change StaysWithin n ([] ++ [.loadText plain]) ↔ 0 ≤ n
    rw [staysWithin_concat_iff hheight hdn, staysWithin_nil_iff]
  | newDefault _ ho =>
    rw [List.append_cons] at hheight ⊢
    rw [staysWithin_concat_iff hheight hdn]
    exact staysWithin_newDefault_iff ho hn
  | key op m interface other =>
    change StaysWithin n ([.simple .pop, .loadText other] ++ [_]) ↔ 0 ≤ n
    rw [staysWithin_concat_iff hheight hdn]
    simp only [staysWithin_cons_iff, staysWithin_nil_iff, Instruction.rise?_pop,
      Instruction.rise?_loadText, Option.some.injEq, exists_eq_left']
    omega
  | stored k =>
    change StaysWithin n ([.slot .astore k, .slot .aload k, .loadText _, .simple .iconst1] ++ [_]) ↔
      2 ≤ n
    rw [staysWithin_concat_iff hheight hdn]
    simp only [staysWithin_cons_iff, staysWithin_nil_iff, Instruction.rise?_astore,
      Instruction.rise?_aload, Instruction.rise?_loadText, Instruction.rise?_iconst1,
      Option.some.injEq, exists_eq_left']
    omega
  | returned =>
    change StaysWithin n (_ ++ [_]) ↔ 3 ≤ n
    rw [staysWithin_concat_iff hheight hdn, processDocumentTypes]
    simp only [staysWithin_cons_iff, staysWithin_nil_iff, Instruction.rise?_dup,
      Instruction.rise?_loadText, Instruction.rise?_iconst1, rise?_setFeature,
      Option.some.injEq, exists_eq_left']
    omega
  | index _ =>
    change StaysWithin n ([.simple .pop, .simple .iconst0] ++ [_]) ↔ 0 ≤ n
    rw [staysWithin_concat_iff hheight hdn]
    simp only [staysWithin_cons_iff, staysWithin_nil_iff, Instruction.rise?_pop,
      Instruction.rise?_iconst0, Option.some.injEq, exists_eq_left']
    omega
  | @check op m interface _ =>
    -- nothing but removals
    by_cases hop : op = .invokestatic
    · rw [if_pos hop]
      simp only [List.append_nil, staysWithin_cons_iff, staysWithin_nil_iff,
        Instruction.rise?_pop, Option.some.injEq, exists_eq_left', extraSlots]
      omega
    · rw [if_neg hop]
      simp only [List.cons_append, List.nil_append, staysWithin_cons_iff, staysWithin_nil_iff,
        Instruction.rise?_pop, Option.some.injEq, exists_eq_left', extraSlots]
      omega
  | protocol _ =>
    change StaysWithin n (breakProtocol ++ [_]) ↔ 0 ≤ n
    rw [staysWithin_concat_iff hheight hdn, breakProtocol]
    simp only [staysWithin_cons_iff, staysWithin_nil_iff, Instruction.rise?_pop,
      Instruction.rise?_loadText, Option.some.injEq, exists_eq_left']
    omega
  | buriedProtocol _ _ =>
    change StaysWithin n ([.simple .swap, .simple .pop, .loadText _, .simple .swap] ++ [_]) ↔ 0 ≤ n
    rw [staysWithin_concat_iff hheight hdn]
    simp only [staysWithin_cons_iff, staysWithin_nil_iff, Instruction.rise?_swap,
      Instruction.rise?_pop, Instruction.rise?_loadText, Option.some.injEq, exists_eq_left']
    omega

/-- **What a new body needs** behind the line marker that stays. -/
theorem staysWithin_newBody_iff {body : List Instruction} {line : UInt32} {start : Label}
    (hbody : p.newBody? = some body) (hn : 0 ≤ n) :
    StaysWithin n (.line line start :: body) ↔ p.extraSlots (.line line start) ≤ n := by
  cases p with
  | anyHost =>
    obtain rfl := Option.some.inj hbody
    change _ ↔ 1 ≤ n
    simp only [staysWithin_cons_iff, staysWithin_nil_iff, Instruction.rise?_line,
      Instruction.rise?_iconst1, Instruction.rise?_ireturn, Option.some.injEq, exists_eq_left']
    omega
  | anyCertificate =>
    obtain rfl := Option.some.inj hbody
    change _ ↔ 0 ≤ n
    simp only [staysWithin_cons_iff, staysWithin_nil_iff, Instruction.rise?_line,
      Instruction.rise?_returnVoid, Option.some.injEq, exists_eq_left']
    omega
  | _ => cases hbody

end Policy

/-! ### Sites -/

@[simp] theorem Method.maxStack_withCode (m : Method) (code : List Instruction) :
    (m.withCode code).maxStack = m.maxStack := by
  rw [withCode]
  split <;> rfl

/-- Line markers that are forgotten do not change the height. -/
theorem Method.staysWithin_withCode_iff {m : Method} {code : List Instruction} {n : Int} :
    StaysWithin n (m.withCode code).instructions ↔ StaysWithin n code := by
  obtain ⟨kept, hkept, hcode⟩ := m.exists_filter_withCode code
  rw [hcode]
  refine staysWithin_filter_iff fun i hi => ?_
  obtain ⟨line, start, rfl⟩ := hkept i hi
  exact Instruction.rise?_line line start

variable {c : ClassFile} {policies : List Policy}

/-- **The method of a live site** stays within what the method of the site stays within iff there
are as many slots left at the place of the site as the site needs. -/
theorem Site.staysWithin_iff {s : Site} (hs : s ∈ c.sitesOf policies) {n : Int}
    (h : StaysWithin n s.place.method.instructions) :
    ∃ height, heightAfter? s.place.code.before = some height ∧ height ≤ n ∧
      (StaysWithin n (s.place.method.withCode s.code).instructions ↔
        height + s.policy.extraSlots s.place.code.item ≤ n) := by
  obtain ⟨-, -, hplace, hfinding⟩ := ClassFile.mem_sitesOf.mp hs
  obtain ⟨-, hwhole⟩ := ClassFile.mem_places.mp hplace
  have hplain := h
  rw [← hwhole, Split.whole, staysWithin_append_iff] at h
  obtain ⟨hbefore, height, hheight, hrest⟩ := h
  obtain ⟨hn, d, hd, hafter⟩ := staysWithin_cons_iff.mp hrest
  refine ⟨height, hheight, Int.le_of_sub_nonneg hn, ?_⟩
  rw [Method.staysWithin_withCode_iff, ← le_sub_iff_add_le']
  by_cases hinert : s.policy = .inert
  · have hcode : s.code = s.place.method.instructions := by
      rw [code_of_none ((Policy.replacement_eq_none_iff hfinding).mpr hinert), hwhole]
    rw [hcode, hinert]
    exact iff_of_true hplain hn
  · cases hbody : s.policy.newBody? with
    | some body =>
      obtain ⟨⟨line, start, hline⟩, -, -⟩ := Policy.finding_of_newBody? hbody hfinding
      rw [code_of_newBody? hs hbody, List.append_assoc,
        staysWithin_append_iff_right hbefore hheight, hline, List.singleton_append]
      exact Policy.staysWithin_newBody_iff hbody hn
    | none =>
      obtain ⟨r, hr, -, hcode⟩ := exists_replaces hs hinert hbody
      rw [hcode, List.append_assoc, staysWithin_append_iff_right hbefore hheight,
        staysWithin_append_iff_left (hr.heightAfter? hd) hafter]
      exact hr.staysWithin_iff hd hn (Int.le_of_sub_nonneg hafter.nonneg)

/-- **A mutant stays within the stack that its method declares** iff the slots that its site needs
are left there. The number that is declared stays as it is. If the method stays within it, then so
does the mutant wherever the site needs nothing; else the slots that it needs above the height
before its item must not be too many. -/
theorem mutant_stays_within_stack_iff {m : Mutation} (hm : m ∈ findMutations c policies) :
    ∃ (pl : Place) (p : Policy) (mutated : Method),
      (∀ pl', c.IssuesAt policies pl' m.id.index ↔ pl' = pl) ∧ m.id.policy = p.name ∧
      (mutateClass c policies (some m.id)).1 =
        { c with methods := pl.methods.before ++ mutated :: pl.methods.after } ∧
      mutated.maxStack = pl.method.maxStack ∧
      (StaysWithin pl.method.maxStack.toNat pl.method.instructions →
        ∃ height, heightAfter? pl.code.before = some height ∧
          height ≤ pl.method.maxStack.toNat ∧
          (StaysWithin mutated.maxStack.toNat mutated.instructions ↔
            height + p.extraSlots pl.code.item ≤ pl.method.maxStack.toNat)) := by
  obtain ⟨n, s, hs, rfl⟩ := exists_site_of_mem hm
  have hmem := List.mem_of_getElem? hs
  obtain ⟨pass, hpass, -⟩ := mutateClass_id hs
  refine ⟨s.place, s.policy, s.place.method.withCode s.code,
    fun pl => ClassFile.issuesAt_iff_eq_place hs, rfl, ?_, Method.maxStack_withCode _ _,
    fun hstack => ?_⟩
  · change (mutateClass c policies (some (s.id (.ofClass c) n))).1 = _
    rw [hpass]
    rfl
  · rw [Method.maxStack_withCode]
    exact Site.staysWithin_iff hmem hstack

/-- A parser that is stored is told with the last slot that is left. -/
theorem told_parser_stays_within_three :
    let make : Instruction := .call .invokevirtual ⟨"org/xmlpull/v1/XmlPullParserFactory",
      "newPullParser", "()Lorg/xmlpull/v1/XmlPullParser;"⟩ false
    let before : List Instruction := [.label 0, .line 7 0, .slot .aload 1, make]
    let read : Method := { Method.plain "read" "(Lorg/xmlpull/v1/XmlPullParserFactory;)V" publicFlag
      (before ++ [.slot .astore 2, .simple .returnVoid]) with maxStack := 3 }
    let c : ClassFile := { ClassFile.empty "a/B" with methods := [read] }
    let m : Mutation := ⟨⟨"xml_doctype_parsing", "a/B",
      "read(Lorg/xmlpull/v1/XmlPullParserFactory;)V", 0,
      "Added call to setFeature(FEATURE_PROCESS_DOCDECL, true)"⟩, 7, none⟩
    m ∈ findMutations c Policy.defaults ∧ StaysWithin 3 read.instructions ∧
      ∃ mutated, (mutateClass c Policy.defaults (some m.id)).1 = { c with methods := [mutated] } ∧
        mutated.maxStack = 3 ∧ StaysWithin 3 mutated.instructions := by
  intro make before read c m
  have hm : m ∈ findMutations c Policy.defaults := by
    subst m c read before make
    decide
  have hstack : StaysWithin 3 read.instructions := by
    subst read before make
    decide
  have hissued : c.IssuesAt Policy.defaults
      ⟨⟨[], read, []⟩, before, .slot .astore 2, [.simple .returnVoid]⟩ 0 := by
    subst c read before make
    constructor <;> decide
  obtain ⟨pl, p, mutated, hplace, hname, hclass, hmax, hwithin⟩ := mutant_stays_within_stack_iff hm
  obtain rfl := (hplace _).mp hissued
  obtain rfl : Policy.documentType = p := Policy.name_injective hname
  obtain ⟨height, hheight, -, hiff⟩ := hwithin hstack
  have hone : heightAfter? before = some 1 := by
    subst before make
    decide
  obtain rfl : 1 = height := Option.some.inj (hone.symm.trans hheight)
  have hmutated := hiff.mpr (by decide)
  rw [hmax] at hmutated
  exact ⟨hm, hstack, mutated, hclass, hmax, hmutated⟩

/-- **A stored parser is told with slots that were not declared**: the method needs one, and the
parser, the feature and its value need three. -/
theorem told_parser_needs_undeclared_slots :
    let make : Instruction := .call .invokevirtual ⟨"org/xmlpull/v1/XmlPullParserFactory",
      "newPullParser", "()Lorg/xmlpull/v1/XmlPullParser;"⟩ false
    let before : List Instruction := [.label 0, .line 7 0, .slot .aload 1, make, .slot .astore 2]
    let read : Method := { Method.plain "read" "(Lorg/xmlpull/v1/XmlPullParserFactory;)V" publicFlag
      (before ++ [.simple .returnVoid]) with maxStack := 1 }
    let mutated : Method := { read with
      instructions := before ++ .slot .aload 2 :: Policy.processDocumentTypes ++
        [.simple .returnVoid] }
    let c : ClassFile := { ClassFile.empty "a/B" with methods := [read] }
    let m : Mutation := ⟨⟨"xml_doctype_parsing", "a/B",
      "read(Lorg/xmlpull/v1/XmlPullParserFactory;)V", 0,
      "Added call to setFeature(FEATURE_PROCESS_DOCDECL, true)"⟩, 7, none⟩
    StaysWithin read.maxStack.toNat read.instructions ∧ m ∈ findMutations c Policy.defaults ∧
      (mutateClass c Policy.defaults (some m.id)).1 = { c with methods := [mutated] } ∧
      mutated.maxStack = 1 ∧ StaysWithin 3 mutated.instructions ∧
      ¬ StaysWithin mutated.maxStack.toNat mutated.instructions := by
  decide

end MutationTesting
