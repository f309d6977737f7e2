import MutationTesting.Class.Artifact
import MutationTesting.Proofs.Json.Number
/-!
# Artifacts are read back

What the writer of a type writes, the reader of the type reads back, from the parts of a class up to
the class. Two things stand in the way of an instruction. It is read by its tag, so no other member
may be named like the tag; and all its members are kept until the tag is known, so they have to be
flat and their numbers small. A floating-point constant may be rounded when it is read, and an
infinite one has no literal at all; all other constants are exact. So for each part of a class it is
said what is read where the part was written, and this is the part itself if no constant of it is a
floating-point number.

## Main definitions

* `ClassFile.constants`, `ClassFile.IsFloatFree`, `ClassFile.IsFinite`
* `Constant.reread?`, `Instruction.reread?`, `Method.reread?`, `ClassFile.reread?`

## Main results

* `Constant.ofJson?_toJson`, `Instruction.ofJson?_toJson`, `Method.ofJson?_toJson`,
  `ClassFile.ofJson?_toJson` — what is read where a part of a class was written
* `ClassFile.allNumbers_toJson` — the numbers of an artifact can be written and read
* `ClassFile.isSome_ofBytes?_toBytes_iff` — when an artifact is read
* `ClassFile.artifact_round_trip`
* `ClassFile.float_of_ofBytes?` — what is read as an infinity
-/

namespace MutationTesting

open Json Decimal

/-! ### Labels, operations and members -/

@[simp] theorem Label.ofJson?_toJson (l : Label) : Label.ofJson? (Label.toJson l).raw = some l :=
  uint32?_ofNat l

@[simp] theorem Opcode.ofJson?_name (op : Opcode) :
    Opcode.ofJson? (.string op.name : Json String).raw = some op := by
  rw [Opcode.ofJson?, choice?_string, Option.bind_some, Opcode.ofName?_name]

@[simp] theorem Member.ofJson?_toJson (m : Member) : Member.ofJson? m.toJson.raw = some m := by
  rw [Member.ofJson?, Member.toJson, members?_object]
  · simp [Members.required]
  · exact .refl _
  · decide

@[simp] theorem Member.allNumbers_toJson (p : Number → Bool) (m : Member) :
    m.toJson.allNumbers p = true := rfl

@[simp] theorem Member.depth_toJson (m : Member) : m.toJson.depth = 1 := rfl

/-! ### Constants -/

namespace Constant

/-- The constant is a floating-point number. -/
def isFloating : Constant → Bool
  | .float _ | .double _ => true
  | _ => false

/-- The constant is not infinite. -/
def isFinite : Constant → Bool
  | .float x => !x.isInfinite
  | .double x => !x.isInfinite
  | _ => true

/-- What is read where the constant was written. -/
def reread? : Constant → Option Constant
  | .float x => (Json.ofBinary32 x : Json String).raw.binary32?.map .float
  | .double x => (Json.ofBinary64 x : Json String).raw.binary64?.map .double
  | c => some c

theorem ofJson?_toJson (c : Constant) : Constant.ofJson? c.toJson.raw = c.reread? := by
  rw [Constant.ofJson?, Constant.toJson, members?_object]
  · cases c <;> simp [Members.required, ofContent?, tag, content, reread?]
  · exact .refl _
  · decide

/-- Only floating-point numbers are read as something else. -/
theorem reread?_eq_some {c : Constant} (h : c.isFloating = false) : c.reread? = some c := by
  cases c with
  | float _ => cases h
  | double _ => cases h
  | _ => rfl

theorem allNumbers_ofBinary {f : Format} {layout : Layout} {x : Binary f}
    (h : x.isInfinite = false → (Number.ofBinary layout x).isReadable = true) :
    (Json.ofBinary layout x : Json String).allNumbers Number.isReadable = true := by
  rw [Json.ofBinary]
  split
  · rfl
  · next hfinite => exact h (Bool.eq_false_iff.mpr hfinite)

theorem allNumbers_toJson (c : Constant) : c.toJson.allNumbers Number.isReadable = true := by
  have hcontent : c.content.allNumbers Number.isReadable = true := by
    cases c with
    | float x => exact allNumbers_ofBinary Number.isReadable_ofBinary32
    | double x => exact allNumbers_ofBinary Number.isReadable_ofBinary64
    | _ => simp [content]
  simp [toJson, allNumbers, allNumbersFields, hcontent]

/-- **A constant is read unless it is infinite.** -/
theorem isSome_reread? (c : Constant) : c.reread?.isSome = c.isFinite := by
  cases c with
  | float x =>
    rw [reread?, isFinite, Option.isSome_map, Json.ofBinary32, Json.ofBinary]
    cases hx : x.isInfinite with
    | true => rfl
    | false =>
      have hread := (Bool.and_eq_true_iff.mp (Number.isReadable_ofBinary32 hx)).2
      exact (Option.isSome_map ..).trans hread
  | double x =>
    rw [reread?, isFinite, Option.isSome_map, Json.ofBinary64, Json.ofBinary]
    cases hx : x.isInfinite with
    | true => rfl
    | false =>
      have hread := (Bool.and_eq_true_iff.mp (Number.isReadable_ofBinary64 hx)).2
      exact (Option.isSome_map ..).trans hread
  | _ => rfl

/-- A floating-point number is a literal or nothing. -/
theorem depth_ofBinary {f : Format} (layout : Layout) (x : Binary f) :
    (Json.ofBinary layout x : Json String).depth = 0 := by
  rw [Json.ofBinary]
  split <;> rfl

theorem depth_toJson (c : Constant) : c.toJson.depth = 1 := by
  cases c <;> simp [toJson, content, depth, depthFields, ofInt, ofBinary32, ofBinary64,
    depth_ofBinary]

end Constant

/-! ### Instructions -/

namespace Instruction

/-- The constants of an instruction. -/
def constants : Instruction → List Constant
  | .load v => [v]
  | .callDynamic _ _ arguments => arguments
  | _ => []

/-- What is read where the instruction was written. -/
def reread? : Instruction → Option Instruction
  | .load v => v.reread?.map .load
  | .callDynamic name d arguments =>
    (allOf? Constant.reread? arguments).map (.callDynamic name d)
  | i => some i

theorem reread?_eq_some {i : Instruction} (h : ∀ c ∈ i.constants, c.isFloating = false) :
    i.reread? = some i := by
  cases i with
  | load v =>
    have hvalue := Constant.reread?_eq_some (h v (List.mem_singleton_self v))
    rw [reread?, hvalue, Option.map_some]
  | callDynamic name d arguments =>
    have harguments : allOf? Constant.reread? arguments = some arguments :=
      allOf?_eq_some fun c hc => Constant.reread?_eq_some (h c hc)
    rw [reread?, harguments, Option.map_some]
  | _ => rfl

theorem isSome_reread?_iff (i : Instruction) :
    i.reread?.isSome = true ↔ ∀ c ∈ i.constants, c.isFinite = true := by
  cases i with
  | load v => simp [reread?, constants, Constant.isSome_reread?]
  | callDynamic name d arguments =>
    simp [reread?, constants, isSome_allOf?_iff, Constant.isSome_reread?]
  | _ => simp [reread?, constants]

/-- No member is named like the tag. -/
theorem isKind_rawFields_members (i : Instruction) :
    ∀ field ∈ rawFields i.members, isKind field = false := by
  cases i <;> simp [members, rawFields, isKind]

theorem ofMembers?_members (i : Instruction) :
    ofMembers? i.kind (.object i.members : Json String).raw = i.reread? := by
  have hconstants : ∀ cs : List Constant,
      list? Constant.ofJson? (.list (cs.map Constant.toJson) : Json String).raw =
        allOf? Constant.reread? cs := fun cs => by
    rw [list?_map_eq, funext Constant.ofJson?_toJson]
  have hlabels : ∀ ls : List Label,
      list? Label.ofJson? (.list (ls.map Label.toJson) : Json String).raw = some ls :=
    fun ls => list?_map fun l _ => Label.ofJson?_toJson l
  have hkeys : ∀ ks : List Int32,
      list? int32? (.list (ks.map fun k => .ofInt k.toInt) : Json String).raw = some ks :=
    fun ks => list?_map fun k _ => int32?_ofInt k
  cases i with
  | load v =>
    simp [ofMembers?, kind, members, members?_object, Members.required, Constant.ofJson?_toJson,
      reread?, Option.map_eq_bind]
  | callDynamic name d arguments =>
    simp [ofMembers?, kind, members, members?_object, Members.required, hconstants, reread?,
      Option.map_eq_bind]
  | tableSwitch min max l targets =>
    simp [ofMembers?, kind, members, members?_object, Members.required, hlabels, reread?]
  | lookupSwitch l keys targets =>
    simp [ofMembers?, kind, members, members?_object, Members.required, hlabels, hkeys, reread?]
  | _ => simp [ofMembers?, kind, members, members?_object, Members.required, reread?]

theorem allNumbers_members (i : Instruction) :
    ∀ field ∈ i.members, field.2.allNumbers Number.isReadable = true := by
  have hconstants : ∀ cs : List Constant,
      (.list (cs.map Constant.toJson) : Json String).allNumbers Number.isReadable = true :=
    fun _ => allNumbers_list_map fun c _ => c.allNumbers_toJson
  have hlabels : ∀ ls : List Label,
      (.list (ls.map Label.toJson) : Json String).allNumbers Number.isReadable = true :=
    fun ls => allNumbers_list_map fun l _ => allNumbers_uint32 l
  have hkeys : ∀ ks : List Int32, (.list (ks.map fun k => .ofInt k.toInt) : Json String).allNumbers
      Number.isReadable = true := fun ks => allNumbers_list_map fun k _ => allNumbers_int32 k
  cases i with
  | load v => simp [members, v.allNumbers_toJson]
  | callDynamic name d arguments => simp [members, hconstants]
  | tableSwitch min max l targets => simp [members, hlabels, Label.toJson]
  | lookupSwitch l keys targets => simp [members, hlabels, hkeys, Label.toJson]
  | _ => simp [members, Label.toJson]

/-- Members are nested at most as deep as a list of constants. -/
theorem depth_members (i : Instruction) : ∀ field ∈ i.members, field.2.depth ≤ 2 := by
  have hconstants : ∀ cs : List Constant,
      (.list (cs.map Constant.toJson) : Json String).depth ≤ 2 :=
    fun _ => depth_list_map_le fun c _ => c.depth_toJson.le
  have hlabels : ∀ ls : List Label, (.list (ls.map Label.toJson) : Json String).depth ≤ 2 :=
    fun _ => depth_list_map_le fun _ _ => Nat.zero_le 1
  have hkeys : ∀ ks : List Int32,
      (.list (ks.map fun k => .ofInt k.toInt) : Json String).depth ≤ 2 :=
    fun _ => depth_list_map_le fun _ _ => Nat.zero_le 1
  cases i with
  | load v => simp [members, v.depth_toJson]
  | callDynamic name d arguments => simp [members, hconstants]
  | tableSwitch min max l targets => simp [members, hlabels, Label.toJson]
  | lookupSwitch l keys targets => simp [members, hlabels, hkeys, Label.toJson]
  | _ => simp [members, Label.toJson]

theorem ofJson?_toJson {nesting : Nat} (hnesting : nesting + 2 ≤ nestingLimit) (i : Instruction) :
    Instruction.ofJson? nesting i.toJson.raw = i.reread? := by
  have htag : ((some "kind", Json.string (some i.kind)) :: rawFields i.members).filter (isKind ·) =
      [(some "kind", Json.string (some i.kind))] := by
    have hnone : (rawFields i.members).filter (isKind ·) = [] :=
      List.filter_eq_nil_iff.mpr fun field hfield => by
        simp [isKind_rawFields_members i field hfield]
    rw [List.filter_cons, hnone]
    rfl
  have hrest : ((some "kind", Json.string (some i.kind)) :: rawFields i.members).filter
      (!isKind ·) = rawFields i.members := by
    have hall : (rawFields i.members).filter (!isKind ·) = rawFields i.members :=
      List.filter_eq_self.mpr fun field hfield => by simp [isKind_rawFields_members i field hfield]
    rw [List.filter_cons, hall]
    rfl
  have hkept : (rawFields i.members).all
      (fun field => field.1.isSome && field.2.isKeepable nesting) = true := by
    rw [rawFields_eq_map, List.all_map, List.all_eq_true]
    intro field hfield
    have hnumbers := allNumbers_members i field hfield
    have hmachine := allNumbers_mono (fun n hn => (Bool.and_eq_true_iff.mp hn).2) _ hnumbers
    have hdepth := depth_members i field hfield
    have hdeep : nesting + field.2.depth ≤ nestingLimit := by omega
    simp [isKeepable_raw, hmachine, hdeep]
  rw [toJson, raw, rawFields, ofJson?]
  simp only [raw, htag, hrest, hkept, if_true]
  exact ofMembers?_members i

theorem allNumbers_toJson (i : Instruction) : i.toJson.allNumbers Number.isReadable = true := by
  rw [toJson, allNumbers, allNumbersFields_eq_all, List.all_eq_true]
  exact List.forall_mem_cons.mpr ⟨rfl, allNumbers_members i⟩

end Instruction

/-! ### Beside the code -/

theorem Annotation.ofJson?_toJson (a : Annotation) : Annotation.ofJson? a.toJson.raw = some a := by
  obtain ⟨descriptor, value⟩ := a
  cases value with
  | none =>
    rw [ Annotation.ofJson?, Annotation.toJson, members?_object]
    · simp [Members.required, Members.optional, optionalMember]
    · exact .cons_cons _ (.cons _ .slnil)
    · decide
  | some value =>
    rw [ Annotation.ofJson?, Annotation.toJson, members?_object]
    · simp [Members.required, Members.optional, optionalMember]
    · exact .refl _
    · decide

theorem Handler.ofJson?_toJson (h : Handler) : Handler.ofJson? h.toJson.raw = some h := by
  rw [Handler.ofJson?, Handler.toJson, members?_object]
  · simp [Members.required, Members.nullable]
  · exact .refl _
  · decide

theorem LocalVariable.ofJson?_toJson (v : LocalVariable) :
    LocalVariable.ofJson? v.toJson.raw = some v := by
  rw [LocalVariable.ofJson?, LocalVariable.toJson, members?_object]
  · simp [Members.required]
  · exact .refl _
  · decide

theorem Annotation.allNumbers_toJson (p : Number → Bool) (a : Annotation) :
    a.toJson.allNumbers p = true := by
  obtain ⟨descriptor, value⟩ := a
  cases value <;> rfl

theorem allNumbers_ofOption (p : Number → Bool) (s : Option String) :
    (ofOption s : Json String).allNumbers p = true := by
  cases s <;> rfl

theorem Handler.allNumbers_toJson (h : Handler) :
    h.toJson.allNumbers Number.isReadable = true := by
  simp [Handler.toJson, allNumbers, allNumbersFields, Label.toJson, allNumbers_ofOption]

theorem LocalVariable.allNumbers_toJson (v : LocalVariable) :
    v.toJson.allNumbers Number.isReadable = true := by
  simp [LocalVariable.toJson, allNumbers, allNumbersFields, Label.toJson]

/-! ### Methods -/

namespace Method

/-- What is read where the method was written. -/
def reread? (m : Method) : Option Method :=
  (allOf? Instruction.reread? m.instructions).map fun code => { m with instructions := code }

theorem reread?_eq_some {m : Method}
    (h : ∀ i ∈ m.instructions, ∀ c ∈ i.constants, c.isFloating = false) : m.reread? = some m := by
  have hcode : allOf? Instruction.reread? m.instructions = some m.instructions :=
    allOf?_eq_some fun i hi => Instruction.reread?_eq_some (h i hi)
  rw [reread?, hcode, Option.map_some]

theorem isSome_reread?_iff (m : Method) :
    m.reread?.isSome = true ↔ ∀ i ∈ m.instructions, ∀ c ∈ i.constants, c.isFinite = true := by
  simp only [reread?, Option.isSome_map, isSome_allOf?_iff, Instruction.isSome_reread?_iff]

theorem allNumbers_toJson (m : Method) : m.toJson.allNumbers Number.isReadable = true := by
  have hannotations := allNumbers_list_map fun a (_ : a ∈ m.annotations) =>
    a.allNumbers_toJson Number.isReadable
  have hinstructions := allNumbers_list_map fun i (_ : i ∈ m.instructions) => i.allNumbers_toJson
  have hhandlers := allNumbers_list_map fun h (_ : h ∈ m.handlers) => h.allNumbers_toJson
  have hlocals := allNumbers_list_map fun v (_ : v ∈ m.locals) => v.allNumbers_toJson
  rw [toJson, allNumbers]
  simp [allNumbersFields, hannotations, hinstructions, hhandlers, hlocals]

theorem ofJson?_toJson {nesting : Nat} (hnesting : nesting + 4 ≤ nestingLimit) (m : Method) :
    Method.ofJson? nesting m.toJson.raw = m.reread? := by
  have hannotations : list? Annotation.ofJson?
      (.list (m.annotations.map Annotation.toJson) : Json String).raw = some m.annotations :=
    list?_map fun a _ => a.ofJson?_toJson
  have hinstructions : list? (Instruction.ofJson? (nesting + 2))
      (.list (m.instructions.map Instruction.toJson) : Json String).raw =
        allOf? Instruction.reread? m.instructions := by
    rw [list?_map_eq, funext (Instruction.ofJson?_toJson (by omega))]
  have hhandlers : list? Handler.ofJson?
      (.list (m.handlers.map Handler.toJson) : Json String).raw = some m.handlers :=
    list?_map fun h _ => h.ofJson?_toJson
  have hlocals : list? LocalVariable.ofJson?
      (.list (m.locals.map LocalVariable.toJson) : Json String).raw = some m.locals :=
    list?_map fun v _ => v.ofJson?_toJson
  rw [Method.ofJson?, toJson, members?_object]
  · simp [Members.required, Members.list, Members.defaulted, hannotations, hinstructions, hhandlers,
      hlocals, reread?, Option.map_eq_bind]
  · exact .refl _
  · decide

end Method

/-! ### Classes -/

namespace ClassFile

/-- The constants of a class. -/
def constants (c : ClassFile) : List Constant :=
  c.methods.flatMap fun m => m.instructions.flatMap (·.constants)

/-- No constant of the class is a floating-point number. -/
def IsFloatFree (c : ClassFile) : Prop := ∀ k ∈ c.constants, k.isFloating = false

theorem IsFloatFree.of_mem {c : ClassFile} (h : c.IsFloatFree) {m : Method} (hm : m ∈ c.methods) :
    ∀ i ∈ m.instructions, ∀ k ∈ i.constants, k.isFloating = false :=
  fun i hi k hk => h k (List.mem_flatMap.mpr ⟨m, hm, List.mem_flatMap.mpr ⟨i, hi, hk⟩⟩)

/-- No constant of the class is infinite. -/
def IsFinite (c : ClassFile) : Prop := ∀ k ∈ c.constants, k.isFinite = true

instance (c : ClassFile) : Decidable c.IsFinite :=
  inferInstanceAs (Decidable (∀ k ∈ c.constants, k.isFinite = true))

/-- What is read where the class was written. -/
def reread? (c : ClassFile) : Option ClassFile :=
  (allOf? Method.reread? c.methods).map fun methods => { c with methods }

theorem reread?_eq_some {c : ClassFile} (h : c.IsFloatFree) : c.reread? = some c := by
  have hmethods : allOf? Method.reread? c.methods = some c.methods :=
    allOf?_eq_some fun m hm => Method.reread?_eq_some (h.of_mem hm)
  rw [reread?, hmethods, Option.map_some]

theorem isSome_reread?_iff (c : ClassFile) : c.reread?.isSome = true ↔ c.IsFinite := by
  simp only [reread?, Option.isSome_map, isSome_allOf?_iff, Method.isSome_reread?_iff, IsFinite,
    constants, List.mem_flatMap]
  exact ⟨fun h k ⟨m, hm, i, hi, hk⟩ => h m hm i hi k hk,
    fun h m hm i hi k hk => h k ⟨m, hm, i, hi, hk⟩⟩

theorem ofJson?_toJson (c : ClassFile) : ClassFile.ofJson? c.toJson.raw = c.reread? := by
  have hinterfaces : list? text? (.list (c.interfaces.map .string) : Json String).raw =
      some c.interfaces := list?_map fun s _ => text?_string s
  have hannotations : list? Annotation.ofJson?
      (.list (c.annotations.map Annotation.toJson) : Json String).raw = some c.annotations :=
    list?_map fun a _ => a.ofJson?_toJson
  have hmethods : list? (Method.ofJson? 3)
      (.list (c.methods.map Method.toJson) : Json String).raw =
        allOf? Method.reread? c.methods := by
    rw [list?_map_eq, funext (Method.ofJson?_toJson (by decide))]
  obtain ⟨name, superName, interfaces, access, sourceFile, annotations, methods⟩ := c
  cases sourceFile with
  | none =>
    rw [ClassFile.ofJson?, ClassFile.toJson, members?_object]
    · simp [Members.required, Members.list, Members.defaulted, Members.nullable, Members.optional,
        optionalMember, hinterfaces, hannotations, hmethods, reread?, Option.map_eq_bind]
    · exact .cons_cons _ (.cons_cons _ (.cons_cons _ (.cons_cons _ (.cons _ (.refl _)))))
    · decide
  | some file =>
    rw [ClassFile.ofJson?, ClassFile.toJson, members?_object]
    · simp [Members.required, Members.list, Members.defaulted, Members.nullable, Members.optional,
        optionalMember, hinterfaces, hannotations, hmethods, reread?, Option.map_eq_bind]
    · exact .refl _
    · decide

theorem allNumbers_toJson (c : ClassFile) : c.toJson.allNumbers Number.isReadable = true := by
  have hinterfaces := allNumbers_list_map fun s (_ : s ∈ c.interfaces) =>
    allNumbers_string Number.isReadable s
  have hannotations := allNumbers_list_map fun a (_ : a ∈ c.annotations) =>
    a.allNumbers_toJson Number.isReadable
  have hmethods := allNumbers_list_map fun m (_ : m ∈ c.methods) => m.allNumbers_toJson
  have hfile : allNumbersFields Number.isReadable
      (optionalMember "source_file" c.sourceFile) = true := by
    cases c.sourceFile <;> rfl
  rw [allNumbersFields_eq_all] at hfile
  rw [toJson, allNumbers, allNumbersFields_eq_all]
  simp [hinterfaces, hannotations, hmethods, hfile, allNumbers_ofOption]

theorem ofBytes?_toBytes_eq_raw (c : ClassFile) : Json.ofBytes? c.toBytes = some c.toJson.raw :=
  Json.ofBytes?_indented
    (allNumbers_mono (fun _ hn => (Bool.and_eq_true_iff.mp hn).1) _ c.allNumbers_toJson)

/-- **Artifacts are told apart** by what they say. -/
theorem toJson_eq_of_toBytes_eq {c c' : ClassFile} (h : c.toBytes = c'.toBytes) :
    c.toJson = c'.toJson := by
  have hraw : some c.toJson.raw = some c'.toJson.raw := by
    rw [← ofBytes?_toBytes_eq_raw, ← ofBytes?_toBytes_eq_raw, h]
  rw [← Option.some.injEq, ← texts?_raw, ← texts?_raw, Option.some.inj hraw]

/-- **What is read from the artifact of a class.** -/
theorem ofBytes?_toBytes_eq_reread? (c : ClassFile) :
    ClassFile.ofBytes? c.toBytes = c.reread? := by
  rw [ClassFile.ofBytes?, ofBytes?_toBytes_eq_raw, Option.bind_some, ofJson?_toJson]

/-- **A class is read back from its artifact.** -/
theorem ofBytes?_toBytes {c : ClassFile} (h : c.IsFloatFree) :
    ClassFile.ofBytes? c.toBytes = some c := by
  rw [ofBytes?_toBytes_eq_reread?, reread?_eq_some h]

/-- **An artifact is read** iff its class has no infinite constant. -/
theorem isSome_ofBytes?_toBytes_iff (c : ClassFile) :
    (ClassFile.ofBytes? c.toBytes).isSome = true ↔ c.IsFinite := by
  rw [ofBytes?_toBytes_eq_reread?, isSome_reread?_iff]

/-- **Artifacts are faithful.** A class without floating-point constants is read back from its
artifact exactly as it was, and so no two such classes have the same artifact. -/
theorem artifact_round_trip {c : ClassFile} (h : c.IsFloatFree) :
    ClassFile.ofBytes? c.toBytes = some c ∧
      ∀ c' : ClassFile, c'.IsFloatFree → c'.toBytes = c.toBytes → c' = c := by
  refine ⟨ofBytes?_toBytes h, fun c' h' heq => ?_⟩
  have hread := ofBytes?_toBytes h'
  rw [heq, ofBytes?_toBytes h] at hread
  exact (Option.some.inj hread).symm

/-- A class with control characters, quotes and a character beyond the first plane in its texts, and
with the least and greatest numbers. It is told apart from one whose superclass is named `null`. -/
theorem artifact_round_trip_of_strange_texts :
    let text : String := "\x00\x1f\t\"\\/é😀"
    let c : ClassFile := ⟨text, none, [text, ""], 0xFFFF, some text,
      [⟨text, none⟩, ⟨"", some text⟩], [⟨"m", "()V", 9, [], [
        .load (.string text), .load (.type text), .load (.int (-2147483648)),
        .callDynamic text "()V" [.long (-9223372036854775808), .long 9223372036854775807],
        .increment 0xFFFF (-32768), .tableSwitch (-1) 2147483647 0xFFFFFFFF [0, 1],
        .newArrays "[[I" 255, .label 0xFFFFFFFF, .line 0xFFFFFFFF 0],
        [⟨0, 1, 2, none⟩, ⟨0, 1, 2, some text⟩], [⟨text, "I", 1, 0, 1⟩], 0, 0xFFFF⟩]⟩
    c.IsFloatFree ∧ ClassFile.ofBytes? c.toBytes = some c ∧
      { c with superName := some "null" }.toBytes ≠ c.toBytes := by
  intro text c
  have hfree : c.IsFloatFree := by
    simp [IsFloatFree, constants, Instruction.constants, Constant.isFloating, c]
  obtain ⟨hread, hinjective⟩ := artifact_round_trip hfree
  refine ⟨hfree, hread, fun heq => ?_⟩
  have hsame : { c with superName := some "null" } = c := hinjective _ hfree heq
  cases congrArg ClassFile.superName hsame

end ClassFile

/-! ### Constants that are read -/

theorem Members.exists_of_required {α : Type} {m : Members} {name : String} {read : Raw → Option α}
    {a : α} (h : m.required name read = some a) : ∃ j, read j = some a := by
  obtain ⟨j, -, hread⟩ := Option.bind_eq_some_iff.mp h
  exact ⟨j, hread⟩

theorem exists_of_mem_list? {α : Type} {read : Raw → Option α} {j : Raw} {as : List α}
    (h : list? read j = some as) {a : α} (ha : a ∈ as) : ∃ j, read j = some a := by
  cases j with
  | list items =>
    obtain ⟨item, -, hread⟩ := exists_of_mem_allOf? h ha
    exact ⟨item, hread⟩
  | _ => cases h

/-- **Only floats are read as infinities.** A literal beyond the range of doubles is refused, but
one beyond the range of floats is not. -/
theorem Constant.float_of_ofJson? {j : Raw} {k : Constant} (h : Constant.ofJson? j = some k)
    (hk : k.isFinite = false) : ∃ x, k = .float x := by
  obtain ⟨m, -, h⟩ := Option.bind_eq_some_iff.mp h
  obtain ⟨tag, -, h⟩ := Option.bind_eq_some_iff.mp h
  obtain ⟨value, h⟩ := Members.exists_of_required h
  cases k with
  | float x => exact ⟨x, rfl⟩
  | double x =>
    have hread : value.binary64? = some x := by
      simp [ofContent?, ite_eq_iff] at h
      exact h.2.2.2.2
    cases value with
    | number n =>
      have hfinite := Number.isInfinite_of_toBinary64? hread
      simp [isFinite, hfinite] at hk
    | _ => cases hread
  | _ => cases hk

theorem Instruction.exists_of_ofMembers? {kind : String} {j : Raw} {i : Instruction}
    (h : ofMembers? kind j = some i) : ∀ k ∈ i.constants, ∃ j, Constant.ofJson? j = some k := by
  cases i with
  | load v =>
    simp [ofMembers?, ite_eq_iff, Option.bind_eq_some_iff] at h
    obtain ⟨-, -, -, -, -, -, -, -, -, -, m, -, hvalue⟩ := h
    exact List.forall_mem_singleton.mpr (Members.exists_of_required hvalue)
  | callDynamic name d arguments =>
    simp [ofMembers?, ite_eq_iff, Option.bind_eq_some_iff] at h
    obtain ⟨-, -, -, -, -, -, -, -, m, -, -, -, harguments⟩ := h
    obtain ⟨j, hlist⟩ := Members.exists_of_required harguments
    exact fun k hk => exists_of_mem_list? hlist hk
  | _ => exact nofun

theorem Instruction.exists_of_ofJson? {nesting : Nat} {j : Raw} {i : Instruction}
    (h : Instruction.ofJson? nesting j = some i) :
    ∀ k ∈ i.constants, ∃ j, Constant.ofJson? j = some k := by
  have hmembers : ∃ kind j, ofMembers? kind j = some i := by
    rw [ofJson?.eq_def] at h
    split at h
    · dsimp only at h
      split at h
      · split at h
        · obtain ⟨kind, -, hread⟩ := Option.bind_eq_some_iff.mp h
          exact ⟨kind, _, hread⟩
        · cases h
      · cases h
    · split at h
      · obtain ⟨kind, -, hread⟩ := Option.bind_eq_some_iff.mp h
        exact ⟨kind, _, hread⟩
      · cases h
    · cases h
  obtain ⟨kind, j', hread⟩ := hmembers
  exact exists_of_ofMembers? hread

theorem Method.exists_of_ofJson? {nesting : Nat} {j : Raw} {m : Method}
    (h : Method.ofJson? nesting j = some m) :
    ∀ i ∈ m.instructions, ∀ k ∈ i.constants, ∃ j, Constant.ofJson? j = some k := by
  have hcode : ∃ members : Members, members.required "instructions"
      (list? (Instruction.ofJson? (nesting + 2))) = some m.instructions := by
    simp only [Method.ofJson?, Option.bind_eq_some_iff, Option.bind_eq_bind] at h
    grind
  obtain ⟨members, hcode⟩ := hcode
  obtain ⟨items, hlist⟩ := Members.exists_of_required hcode
  intro i hi
  obtain ⟨item, hread⟩ := exists_of_mem_list? hlist hi
  exact Instruction.exists_of_ofJson? hread

/-- **An infinite constant of a class that was read is a float.** -/
theorem ClassFile.float_of_ofBytes? {bytes : Bytes} {c : ClassFile}
    (h : ClassFile.ofBytes? bytes = some c) {k : Constant} (hk : k ∈ c.constants)
    (hinfinite : k.isFinite = false) : ∃ x, k = .float x := by
  obtain ⟨j, -, h⟩ := Option.bind_eq_some_iff.mp h
  have hmethods : ∃ members : Members, members.required "methods"
      (list? (Method.ofJson? 3)) = some c.methods := by
    simp only [ClassFile.ofJson?, Option.bind_eq_some_iff, Option.bind_eq_bind] at h
    grind
  obtain ⟨members, hmethods⟩ := hmethods
  obtain ⟨items, hlist⟩ := Members.exists_of_required hmethods
  obtain ⟨m, hm, hk⟩ := List.mem_flatMap.mp hk
  obtain ⟨i, hi, hk⟩ := List.mem_flatMap.mp hk
  obtain ⟨item, hread⟩ := exists_of_mem_list? hlist hm
  obtain ⟨j', hconstant⟩ := Method.exists_of_ofJson? hread i hi k hk
  exact Constant.float_of_ofJson? hconstant hinfinite

end MutationTesting
