import MutationTesting.Proofs.Class.Artifact
import MutationTesting.Proofs.Mutation.Independence
import MutationTesting.Proofs.Mutation.Labels
/-!
# Fresh parsers

The first reference that a method stores or returns after it has created its first parser is taken
for this parser, and there the parser can be told to process document types. The policy finds the
place by going through three stages, none of which is ever left for an earlier one: no parser was
created, a parser was created and nothing was placed since, something was placed. Here each stage is
described by the code so far. A later creation changes nothing in the second stage and nothing in
the third, so a method has one site at most, and it has none only if it creates no parser or places
nothing afterwards.

## Main definitions

* `CreatesParser`, `PlacesReference` — the items that matter
* `HasUnplacedParser` — a parser was created and nothing was placed since
* `Place.configured` — the code in which the parser is told

## Main results

* `memoryAfter_eq_created_iff` — the second stage against the code
* `fresh_parsers_process_document_types`
-/

namespace MutationTesting

/-! ### Creation and placement -/

/-- The item is a virtual call that creates a parser. -/
def CreatesParser (i : Instruction) : Prop :=
  ∃ descriptor interface, i =
    .call .invokevirtual ⟨"org/xmlpull/v1/XmlPullParserFactory", "newPullParser", descriptor⟩
      interface

/-- The item stores a reference in a local variable, or returns it. -/
inductive PlacesReference : Instruction → Prop where
  | stored (n : UInt16) : PlacesReference (.slot .astore n)
  | returned : PlacesReference (.simple .areturn)

/-- Among the items of a stream a parser is created, and since the first creation no reference is
placed. -/
def HasUnplacedParser (items : List Instruction) : Prop :=
  ∃ first creation rest, items = first ++ creation :: rest ∧ (∀ i ∈ first, ¬ CreatesParser i) ∧
    CreatesParser creation ∧ ∀ i ∈ rest, ¬ PlacesReference i

section

variable {items : List Instruction} {i : Instruction}

theorem not_hasUnplacedParser_nil : ¬ HasUnplacedParser [] := by
  rintro ⟨first, creation, rest, h, -⟩
  simp at h

/-- The parser is still unplaced, or it is created just now. -/
theorem hasUnplacedParser_concat : HasUnplacedParser (items ++ [i]) ↔
    HasUnplacedParser items ∧ ¬ PlacesReference i ∨
      (∀ j ∈ items, ¬ CreatesParser j) ∧ CreatesParser i := by
  constructor
  · rintro ⟨first, creation, rest, h, hfirst, hcreates, hrest⟩
    obtain ⟨rfl, rfl⟩ | ⟨rest', rfl⟩ := eq_or_exists_of_concat_eq h
    · exact .inr ⟨hfirst, hcreates⟩
    · obtain rfl : rest' ++ [i] = rest := by simpa using h
      rw [List.forall_mem_append, List.forall_mem_singleton] at hrest
      exact .inl ⟨⟨first, creation, rest', rfl, hfirst, hcreates, hrest.1⟩, hrest.2⟩
  · rintro (⟨⟨first, creation, rest, rfl, hfirst, hcreates, hrest⟩, hi⟩ | ⟨hitems, hcreates⟩)
    · refine ⟨first, creation, rest ++ [i], by simp, hfirst, hcreates, ?_⟩
      rw [List.forall_mem_append, List.forall_mem_singleton]
      exact ⟨hrest, hi⟩
    · exact ⟨items, i, [], rfl, hitems, hcreates, List.forall_mem_nil _⟩

end

namespace Policy

/-! ### The stages of the policy -/

/-- The policy for fresh parsers. -/
abbrev parserInspector : Inspector := ⟨ParserProgress, .beforeCreation, inspectParser⟩

section

variable {items rest : List Instruction} {i : Instruction}

/-- A creation ends the first stage. -/
theorem fst_inspectParser_of_creates (h : CreatesParser i) :
    (inspectParser .beforeCreation i).1 = .created := by
  obtain ⟨descriptor, interface, rfl⟩ := h
  rfl

/-- Nothing else ends the first stage. -/
theorem fst_inspectParser_of_not_creates (h : ¬ CreatesParser i) :
    (inspectParser .beforeCreation i).1 = .beforeCreation := by
  cases i with
  | call op m interface =>
    cases op with
    | invokevirtual =>
      have hm : ¬ (m.owner == "org/xmlpull/v1/XmlPullParserFactory" &&
          m.name == "newPullParser") = true := by
        intro hm
        obtain ⟨howner, hname⟩ := Bool.and_eq_true_iff.mp hm
        exact h ⟨m.descriptor, interface, by rw [← eq_of_beq howner, ← eq_of_beq hname]⟩
      change (if _ then (ParserProgress.created, (none : Option Finding)) else _).1 = _
      rw [if_neg hm]
    | _ => rfl
  | _ => rfl

/-- What is written where a parser is placed: the parser is told right after it was stored, or by a
copy of the reference right before it is returned. -/
def configuring (i : Instruction) : List Instruction :=
  match i with
  | .slot _ n => [i, .slot .aload n] ++ processDocumentTypes
  | _ => [.simple .dup] ++ processDocumentTypes ++ [i]

theorem replaces_of_places (h : PlacesReference i) : Replaces .documentType i (configuring i) := by
  cases h with
  | stored n => exact .stored n
  | returned => exact .returned

theorem one_lt_length_configuring (h : PlacesReference i) : 1 < (configuring i).length := by
  cases h <;> simp [configuring, processDocumentTypes]

/-- A placement ends the second stage, and it is a site. -/
theorem inspectParser_created_of_places (h : PlacesReference i) :
    inspectParser .created i = (.placed, some (documentTypeFinding (configuring i))) := by
  cases h with
  | stored n => rfl
  | returned => rfl

/-- Nothing else ends the second stage. -/
theorem inspectParser_created_of_not_places (h : ¬ PlacesReference i) :
    inspectParser .created i = (.created, none) := by
  cases i with
  | slot op n =>
    cases op with
    | astore => exact absurd (.stored n) h
    | _ => rfl
  | simple op =>
    cases op with
    | areturn => exact absurd .returned h
    | _ => rfl
  | _ => rfl

/-- The third stage is the last. -/
theorem inspectParser_placed (i : Instruction) : inspectParser .placed i = (.placed, none) := rfl

/-- No stage leads back to the first. -/
theorem fst_inspectParser_eq_beforeCreation_iff {stage : ParserProgress} :
    (inspectParser stage i).1 = .beforeCreation ↔ stage = .beforeCreation ∧ ¬ CreatesParser i := by
  cases stage with
  | beforeCreation =>
    by_cases h : CreatesParser i
    · simp [fst_inspectParser_of_creates h, h]
    · simp [fst_inspectParser_of_not_creates h, h]
  | created =>
    by_cases h : PlacesReference i
    · simp [inspectParser_created_of_places h]
    · simp [inspectParser_created_of_not_places h]
  | placed => simp [inspectParser_placed]

/-- The second stage begins with a creation and lasts up to a placement. -/
theorem fst_inspectParser_eq_created_iff {stage : ParserProgress} :
    (inspectParser stage i).1 = .created ↔
      stage = .created ∧ ¬ PlacesReference i ∨ stage = .beforeCreation ∧ CreatesParser i := by
  cases stage with
  | beforeCreation =>
    by_cases h : CreatesParser i
    · simp [fst_inspectParser_of_creates h, h]
    · simp [fst_inspectParser_of_not_creates h, h]
  | created =>
    by_cases h : PlacesReference i
    · simp [inspectParser_created_of_places h, h]
    · simp [inspectParser_created_of_not_places h, h]
  | placed => simp [inspectParser_placed]

/-- **The first stage**: no parser was created. -/
theorem memoryAfter_eq_beforeCreation_iff :
    parserInspector.memoryAfter items = .beforeCreation ↔ ∀ i ∈ items, ¬ CreatesParser i := by
  induction items using List.reverseRecOn with
  | nil => simp
  | append_singleton items i ih =>
    rw [Inspector.memoryAfter_concat, fst_inspectParser_eq_beforeCreation_iff, ih,
      List.forall_mem_append, List.forall_mem_singleton]

/-- **The second stage**: a parser was created, and nothing was placed since. -/
theorem memoryAfter_eq_created_iff :
    parserInspector.memoryAfter items = .created ↔ HasUnplacedParser items := by
  induction items using List.reverseRecOn with
  | nil => exact ⟨nofun, fun h => absurd h not_hasUnplacedParser_nil⟩
  | append_singleton items i ih =>
    rw [Inspector.memoryAfter_concat, fst_inspectParser_eq_created_iff, ih,
      memoryAfter_eq_beforeCreation_iff, hasUnplacedParser_concat]

/-- Nothing ends the third stage. -/
theorem memoryAfter_append_of_placed (h : parserInspector.memoryAfter items = .placed) :
    parserInspector.memoryAfter (items ++ rest) = .placed := by
  induction rest using List.reverseRecOn with
  | nil => rwa [List.append_nil]
  | append_singleton rest i ih =>
    rw [← List.append_assoc, Inspector.memoryAfter_concat, ih]
    rfl

/-- **The sites of the policy** are the placements in the second stage. -/
theorem finding?_parserInspector_eq_some_iff {f : Finding} :
    parserInspector.finding? items i = some f ↔
      HasUnplacedParser items ∧ PlacesReference i ∧ f = documentTypeFinding (configuring i) := by
  rw [Inspector.finding?, ← memoryAfter_eq_created_iff]
  cases parserInspector.memoryAfter items with
  | beforeCreation => simp [inspectParser_beforeCreation]
  | created =>
    by_cases h : PlacesReference i
    · simp [inspectParser_created_of_places h, h, eq_comm]
    · simp [inspectParser_created_of_not_places h, h]
  | placed => simp [inspectParser_placed]

end

end Policy

/-! ### The sites of a method -/

section

variable {items rest code : List Instruction} {i : Instruction}

/-- After a placement the parser is placed for good. -/
theorem HasUnplacedParser.not_append (h : HasUnplacedParser items) (hi : PlacesReference i) :
    ¬ HasUnplacedParser (items ++ i :: rest) := by
  intro hlater
  rw [← Policy.memoryAfter_eq_created_iff] at h hlater
  have hplaced : Policy.parserInspector.memoryAfter (items ++ [i]) = .placed := by
    rw [Inspector.memoryAfter_concat, h]
    exact congrArg Prod.fst (Policy.inspectParser_created_of_places hi)
  rw [← List.singleton_append, ← List.append_assoc,
    Policy.memoryAfter_append_of_placed hplaced] at hlater
  cases hlater

/-- **A method has one site at most.** -/
theorem Split.eq_of_hasUnplacedParser {s t : Split Instruction} (h : s.whole = t.whole)
    (hs : HasUnplacedParser s.before) (ht : HasUnplacedParser t.before)
    (his : PlacesReference s.item) (hit : PlacesReference t.item) : s = t := by
  obtain ⟨before, item, after⟩ := s
  obtain ⟨before', item', after'⟩ := t
  obtain ⟨mid, hbefore, hmid⟩ | ⟨mid, hbefore, hmid⟩ := List.append_eq_append_iff.mp h
  · cases mid with
    | nil => simp_all
    | cons x mid =>
      obtain ⟨rfl, -⟩ := List.cons.inj hmid
      exact absurd (hbefore ▸ ht) (hs.not_append his)
  · cases mid with
    | nil => simp_all
    | cons x mid =>
      obtain ⟨rfl, -⟩ := List.cons.inj hmid
      exact absurd (hbefore ▸ hs) (ht.not_append hit)

open Classical in
/-- **A method has a site** iff something is placed after its first creation of a parser. -/
theorem exists_split_hasUnplacedParser_iff :
    (∃ s : Split Instruction,
        s.whole = code ∧ HasUnplacedParser s.before ∧ PlacesReference s.item) ↔
      ∃ first creation rest, code = first ++ creation :: rest ∧
        (∀ i ∈ first, ¬ CreatesParser i) ∧ CreatesParser creation ∧
          ∃ i ∈ rest, PlacesReference i := by
  constructor
  · rintro ⟨⟨_, item, after⟩, rfl, ⟨first, creation, rest, rfl, hfirst, hcreates, -⟩, hitem⟩
    refine ⟨first, creation, rest ++ item :: after, by simp [Split.whole], hfirst, hcreates,
      item, by simp, hitem⟩
  · rintro ⟨first, creation, rest, rfl, hfirst, hcreates, i, hi, hplaces⟩
    -- the first placement among those behind the creation
    have hsome : (rest.find? fun i => decide (PlacesReference i)).isSome :=
      List.find?_isSome.mpr ⟨i, hi, decide_eq_true hplaces⟩
    obtain ⟨item, hitem⟩ := Option.isSome_iff_exists.mp hsome
    obtain ⟨hplaces, before, after, rfl, hbefore⟩ := List.find?_eq_some_iff_append.mp hitem
    refine ⟨⟨first ++ creation :: before, item, after⟩, by simp [Split.whole],
      ⟨first, creation, before, rfl, hfirst, hcreates, fun j hj => ?_⟩, of_decide_eq_true hplaces⟩
    simpa using hbefore j hj

end

/-! ### The mutants -/

/-- The method in which the parser at a place is told to process document types. -/
def Place.configured (pl : Place) : Method :=
  { pl.method with
    instructions := pl.code.before ++ Policy.configuring pl.code.item ++ pl.code.after }

section

variable {policies : List Policy} {c : ClassFile} {s : Site}

/-- The policy looks at a class that does not belong to the library of the parsers. -/
theorem Policy.excludes_documentType (h : ¬ "org/xmlpull/".toList <+: c.name.toList) :
    documentType.excludes (.ofClass c) = false := by
  change "org/xmlpull/".toList.isPrefixOf c.name.toList = false
  rwa [← Bool.not_eq_true, List.isPrefixOf_iff_prefix]

/-- The sites of the policy in a class. -/
theorem Site.placement_of_documentType (hs : s ∈ c.sitesOf policies)
    (hp : s.policy = .documentType) :
    HasUnplacedParser s.place.code.before ∧ PlacesReference s.place.code.item ∧
      s.finding = Policy.documentTypeFinding (Policy.configuring s.place.code.item) := by
  obtain ⟨-, -, -, hf⟩ := ClassFile.mem_sitesOf.mp hs
  rw [hp] at hf
  exact Policy.finding?_parserInspector_eq_some_iff.mp hf

/-- At a place there is a site of the policy iff a parser is placed there. -/
theorem exists_documentType_at_iff (hpolicy : .documentType ∈ policies)
    (hclass : ¬ "org/xmlpull/".toList <+: c.name.toList) {pl : Place} (hpl : pl ∈ c.places) :
    (∃ m ∈ findMutations c policies, m.id.policy = "xml_doctype_parsing" ∧
        c.IssuesAt policies pl m.id.index) ↔
      HasUnplacedParser pl.code.before ∧ PlacesReference pl.code.item := by
  constructor
  · rintro ⟨m, hm, hp, hissued⟩
    obtain ⟨n, s, hs, hpolicy, rfl⟩ := exists_site_of_policy (p := .documentType) hm hp
    obtain rfl := (ClassFile.issuesAt_iff_eq_place hs).mp hissued
    obtain ⟨hparser, hitem, -⟩ := Site.placement_of_documentType
      (List.mem_of_getElem? hs) hpolicy
    exact ⟨hparser, hitem⟩
  · rintro ⟨hparser, hitem⟩
    have hfinding := Policy.finding?_parserInspector_eq_some_iff.mpr ⟨hparser, hitem, rfl⟩
    obtain ⟨m, hm, hp, -, hissued⟩ := (exists_mutation_at_iff hpolicy
      (Policy.excludes_documentType hclass) hpl).mpr ⟨_, hfinding, rfl⟩
    exact ⟨m, hm, hp, hissued⟩

/-- The method of a live site of the policy. -/
theorem Site.withCode_of_documentType (hs : s ∈ c.sitesOf policies)
    (hp : s.policy = .documentType) :
    s.place.method.withCode s.code = s.place.configured.pruneDangling := by
  obtain ⟨-, -, hplace, -⟩ := ClassFile.mem_sitesOf.mp hs
  obtain ⟨-, hwhole⟩ := ClassFile.mem_places.mp hplace
  obtain ⟨-, hitem, hf⟩ := placement_of_documentType hs hp
  have hcode : s.code = s.place.configured.instructions := by
    simp [code, hf, Policy.documentTypeFinding, Place.configured]
  rw [hcode, Method.withCode, if_neg]
  · rfl
  · intro heq
    have hlength := congrArg List.length (heq.trans hwhole.symm)
    have hmore := Policy.one_lt_length_configuring hitem
    simp only [Place.configured, Split.whole, List.length_append, List.length_cons] at hlength
    omega

/-- Nothing is forgotten with the parser told, if nothing is without. -/
theorem Place.pruneDangling_configured {pl : Place} (hpl : pl ∈ c.places)
    (hitem : PlacesReference pl.code.item) (h : pl.method.pruneDangling = pl.method) :
    pl.configured.pruneDangling = pl.configured := by
  obtain ⟨-, hcode⟩ := ClassFile.mem_places.mp hpl
  exact (Policy.replaces_of_places hitem).pruneDangling hcode.symm h

end

/-- **Fresh parsers process document types.** Outside the library of the parsers, the sites of a
method are the first reference that it stores or returns after the first creation of a parser: one
site, if there is such a reference, and none otherwise. In the mutant the parser is told to process
document types, by the variable right after it was stored in it, or by a copy of the reference right
before this is returned, and what names labels that the code does not define is forgotten; nothing
else changes. -/
theorem fresh_parsers_process_document_types {policies : List Policy}
    (hselection : Policy.IsSelection policies) (hpolicy : .documentType ∈ policies) {c : ClassFile}
    (hclass : ¬ "org/xmlpull/".toList <+: c.name.toList) :
    (∀ pl ∈ c.places,
      (∃ m ∈ findMutations c policies, m.id.policy = "xml_doctype_parsing" ∧
          c.IssuesAt policies pl m.id.index) ↔
        HasUnplacedParser pl.code.before ∧ PlacesReference pl.code.item) ∧
    (∀ m ∈ findMutations c policies, ∀ m' ∈ findMutations c policies,
      m.id.policy = "xml_doctype_parsing" → m'.id.policy = "xml_doctype_parsing" →
        ∀ pl pl', c.IssuesAt policies pl m.id.index → c.IssuesAt policies pl' m'.id.index →
          pl.methods = pl'.methods → m = m') ∧
    (∀ methods : Split Method, methods.whole = c.methods →
      ((∃ m ∈ findMutations c policies, m.id.policy = "xml_doctype_parsing" ∧
          ∃ code, c.IssuesAt policies ⟨methods, code⟩ m.id.index) ↔
        ∃ first creation rest, methods.item.instructions = first ++ creation :: rest ∧
          (∀ i ∈ first, ¬ CreatesParser i) ∧ CreatesParser creation ∧
            ∃ i ∈ rest, PlacesReference i)) ∧
    ∀ m ∈ findMutations c policies, m.id.policy = "xml_doctype_parsing" →
      ∃ pl mutant, c.IssuesAt policies pl m.id.index ∧ m.id.method = pl.method.signature ∧
        m.id.description = "Added call to setFeature(FEATURE_PROCESS_DOCDECL, true)" ∧
        HasUnplacedParser pl.code.before ∧ PlacesReference pl.code.item ∧
        materialize c policies m.id = .ok mutant ∧
        mutant.artifact =
          { c with methods := pl.methods.before ++ pl.configured.pruneDangling ::
              pl.methods.after }.toBytes ∧
        (pl.method.pruneDangling = pl.method → pl.configured.pruneDangling = pl.configured) := by
  have hat : ∀ pl ∈ c.places, (∃ m ∈ findMutations c policies,
      m.id.policy = "xml_doctype_parsing" ∧ c.IssuesAt policies pl m.id.index) ↔
        HasUnplacedParser pl.code.before ∧ PlacesReference pl.code.item :=
    fun pl hpl => exists_documentType_at_iff hpolicy hclass hpl
  have hplace : ∀ {pl : Place} {n : Nat}, c.IssuesAt policies pl n → pl ∈ c.places :=
    fun h => ClassFile.mem_places.mpr ⟨h.methods.symm, h.code.symm⟩
  refine ⟨hat, fun m hm m' hm' hp hp' pl pl' h h' hmethods => ?_, fun methods hmethods => ?_,
    fun m hm hp => ?_⟩
  · obtain ⟨hparser, hitem⟩ := (hat pl (hplace h)).mp ⟨m, hm, hp, h⟩
    obtain ⟨hparser', hitem'⟩ := (hat pl' (hplace h')).mp ⟨m', hm', hp', h'⟩
    have hwhole : pl.code.whole = pl'.code.whole := by
      rw [(ClassFile.mem_places.mp (hplace h)).2, (ClassFile.mem_places.mp (hplace h')).2,
        Place.method, Place.method, hmethods]
    have hcode := Split.eq_of_hasUnplacedParser hwhole hparser hparser' hitem hitem'
    obtain rfl : pl = pl' := by
      cases pl
      cases pl'
      simp_all
    exact eq_of_issuesAt (p := .documentType) hselection.nodup hm hm' hp hp' h h'
  · rw [← exists_split_hasUnplacedParser_iff]
    constructor
    · rintro ⟨m, hm, hp, code, h⟩
      exact ⟨code, h.code.symm, (hat _ (hplace h)).mp ⟨m, hm, hp, h⟩⟩
    · rintro ⟨code, hcode, hsite⟩
      have hpl : ⟨methods, code⟩ ∈ c.places := ClassFile.mem_places.mpr ⟨hmethods, hcode⟩
      obtain ⟨m, hm, hp, h⟩ := (hat _ hpl).mpr hsite
      exact ⟨m, hm, hp, code, h⟩
  · obtain ⟨n, s, hs, hpolicy, rfl⟩ := exists_site_of_policy (p := .documentType) hm hp
    have hmem := List.mem_of_getElem? hs
    obtain ⟨hparser, hitem, hfinding⟩ := Site.placement_of_documentType hmem hpolicy
    refine ⟨s.place, _, (ClassFile.issuesAt_iff_eq_place hs).mpr rfl, rfl,
      congrArg Finding.description hfinding, hparser, hitem, materialize_id hs, ?_,
      Place.pruneDangling_configured (ClassFile.mem_sitesOf.mp hmem).2.2.1 hitem⟩
    rw [Site.mutate, Site.withCode_of_documentType hmem hpolicy]

/-- A parser that is stored is told right afterwards, whatever becomes of the second one. -/
theorem stored_parser_processes_document_types :
    let create : Instruction := .call .invokevirtual
      ⟨"org/xmlpull/v1/XmlPullParserFactory", "newPullParser",
        "()Lorg/xmlpull/v1/XmlPullParser;"⟩ false
    let before : List Instruction := [.label 0, .line 7 0, .slot .aload 0, create]
    let told : List Instruction :=
      .slot .astore 1 :: .slot .aload 1 :: Policy.processDocumentTypes
    let after : List Instruction := [.slot .aload 0, create, .slot .astore 2, .slot .aload 1,
      .simple .areturn]
    let make : Method := .plain "make" "()Lorg/xmlpull/v1/XmlPullParser;" publicFlag
      (before ++ .slot .astore 1 :: after)
    let c : ClassFile := { ClassFile.empty "a/B" with methods := [make] }
    let m : Mutation := ⟨⟨"xml_doctype_parsing", "a/B", make.signature, 0,
      "Added call to setFeature(FEATURE_PROCESS_DOCDECL, true)"⟩, 7, none⟩
    Policy.IsSelection Policy.defaults ∧ .documentType ∈ Policy.defaults ∧
      ¬ "org/xmlpull/".toList <+: c.name.toList ∧ findMutations c Policy.defaults = [m] ∧
      ∃ mutant, materialize c Policy.defaults m.id = .ok mutant ∧
        mutant.artifact =
          { c with methods :=
              [{ make with instructions := before ++ told ++ after }] }.toBytes := by
  intro create before told after make c m
  have hselection : Policy.IsSelection Policy.defaults := .inr (.inl rfl)
  have hclass : ¬ "org/xmlpull/".toList <+: c.name.toList := by
    subst c make after before create
    decide
  have hfound : findMutations c Policy.defaults = [m] := by
    subst m c make after before create
    decide
  let pl : Place := ⟨⟨[], make, []⟩, before, .slot .astore 1, after⟩
  have hissued : c.IssuesAt Policy.defaults pl 0 := by
    subst pl c make after before create
    constructor <;> decide
  obtain ⟨-, -, -, hmutants⟩ :=
    fresh_parsers_process_document_types hselection (by decide) hclass
  obtain ⟨pl', mutant, hissued', -, -, -, -, hmutant, hartifact, hkept⟩ :=
    hmutants m (by rw [hfound]; exact List.mem_cons_self) rfl
  obtain ⟨s, hs, hplace⟩ := ClassFile.issuesAt_iff.mp hissued
  obtain rfl : pl' = pl := ((ClassFile.issuesAt_iff_eq_place hs).mp hissued').trans hplace
  refine ⟨hselection, by decide, hclass, hfound, mutant, hmutant, ?_⟩
  rw [hartifact, hkept (by subst pl c make after before create; decide)]
  subst pl c make told after before create
  exact congrArg ClassFile.toBytes rfl

/-- A line marker whose label the code does not define is forgotten where a parser is told. -/
theorem stored_parser_forgets_dangling_line :
    let create : Instruction := .call .invokevirtual
      ⟨"org/xmlpull/v1/XmlPullParserFactory", "newPullParser",
        "()Lorg/xmlpull/v1/XmlPullParser;"⟩ false
    let make : Method := .plain "make" "()V" publicFlag
      [.line 7 0, .slot .aload 0, create, .slot .astore 1, .simple .returnVoid]
    let c : ClassFile := { ClassFile.empty "a/B" with methods := [make] }
    let m : Mutation := ⟨⟨"xml_doctype_parsing", "a/B", "make()V", 0,
      "Added call to setFeature(FEATURE_PROCESS_DOCDECL, true)"⟩, 7, none⟩
    let pl : Place := ⟨⟨[], make, []⟩, [.line 7 0, .slot .aload 0, create], .slot .astore 1,
      [.simple .returnVoid]⟩
    m ∈ findMutations c Policy.defaults ∧ c.IssuesAt Policy.defaults pl 0 ∧
      ∃ mutant, materialize c Policy.defaults m.id = .ok mutant ∧
        mutant.artifact ≠ { c with methods := [pl.configured] }.toBytes := by
  intro create make c m pl
  have hm : m ∈ findMutations c Policy.defaults := by
    subst m c make create
    decide
  have hissued : c.IssuesAt Policy.defaults pl 0 := by
    subst pl c make create
    constructor <;> decide
  obtain ⟨mutant, hmutant, hartifact⟩ := exists_mutant_of_mem hm
  refine ⟨hm, hissued, mutant, hmutant, ?_⟩
  rw [hartifact]
  refine fun heq => absurd (congrArg ClassFile.ofBytes? heq) ?_
  rw [ClassFile.ofBytes?_toBytes_eq_reread?, ClassFile.ofBytes?_toBytes_eq_reread?]
  subst pl m c make create
  decide

end MutationTesting
