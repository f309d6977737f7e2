import MutationTesting.Class.Basic
import MutationTesting.Json.Members
import MutationTesting.Json.Writer
/-!
# Class artifacts

The JSON form in which classes are stored. Every type of the model has a writer `toJson` and a
reader `ofJson?`; a class file holds the indented text. Absent source files and annotation values
are left out, every other member is always written.

An instruction is tagged by its member `kind`, which may stand anywhere in it, and a constant by
its member `type`, with its content in `value`.

## Main definitions

* `ClassFile.toText`, `ClassFile.toBytes`
* `ClassFile.ofText?`, `ClassFile.ofBytes?`
-/

namespace MutationTesting

open Json

/-! ### Writing -/

/-- A 32-bit number. -/
def Label.toJson (l : Label) : Json String := .ofNat l.toNat

namespace Constant

/-- The tag of a constant. -/
def tag : Constant → String
  | .int _ => "int"
  | .long _ => "long"
  | .float _ => "float"
  | .double _ => "double"
  | .string _ => "string"
  | .type _ => "type"

/-- The content of a constant. -/
def content : Constant → Json String
  | .int v => .ofInt v.toInt
  | .long v => .ofInt v.toInt
  | .float v => .ofBinary32 v
  | .double v => .ofBinary64 v
  | .string s => .string s
  | .type t => .string t

/-- A constant with its tag. -/
def toJson (c : Constant) : Json String :=
  .object [("type", .string c.tag), ("value", c.content)]

end Constant

/-- A member reference. -/
def Member.toJson (m : Member) : Json String :=
  .object [("owner", .string m.owner), ("name", .string m.name),
    ("descriptor", .string m.descriptor)]

namespace Instruction

/-- The tag of an instruction. -/
def kind : Instruction → String
  | .simple _ => "simple"
  | .immediate _ _ => "int"
  | .slot _ _ => "var"
  | .increment _ _ => "iinc"
  | .typed _ _ => "type"
  | .field _ _ => "field"
  | .call _ _ _ => "method"
  | .callDynamic _ _ _ => "invoke_dynamic"
  | .jump _ _ => "jump"
  | .load _ => "ldc"
  | .tableSwitch _ _ _ _ => "table_switch"
  | .lookupSwitch _ _ _ => "lookup_switch"
  | .newArrays _ _ => "multi_a_new_array"
  | .label _ => "label"
  | .line _ _ => "line_number"

/-- The members of an instruction beside its tag. -/
def members : Instruction → List (String × Json String)
  | .simple op => [("op", .string op.name)]
  | .immediate op n => [("op", .string op.name), ("operand", .ofInt n.toInt)]
  | .slot op n => [("op", .string op.name), ("slot", .ofNat n.toNat)]
  | .increment n d => [("slot", .ofNat n.toNat), ("delta", .ofInt d.toInt)]
  | .typed op d => [("op", .string op.name), ("descriptor", .string d)]
  | .field op m => [("op", .string op.name), ("member", m.toJson)]
  | .call op m interface =>
    [("op", .string op.name), ("member", m.toJson), ("interface", .bool interface)]
  | .callDynamic name d arguments =>
    [("name", .string name), ("descriptor", .string d),
      ("bootstrap_args", .list (arguments.map Constant.toJson))]
  | .jump op l => [("op", .string op.name), ("target", Label.toJson l)]
  | .load v => [("value", v.toJson)]
  | .tableSwitch min max l targets =>
    [("min", .ofInt min.toInt), ("max", .ofInt max.toInt), ("default", Label.toJson l),
      ("targets", .list (targets.map Label.toJson))]
  | .lookupSwitch l keys targets =>
    [("default", Label.toJson l), ("keys", .list (keys.map fun k => .ofInt k.toInt)),
      ("targets", .list (targets.map Label.toJson))]
  | .newArrays d dims => [("descriptor", .string d), ("dims", .ofNat dims.toNat)]
  | .label l => [("label", Label.toJson l)]
  | .line n l => [("line", .ofNat n.toNat), ("start", Label.toJson l)]

/-- An instruction with its tag. -/
def toJson (i : Instruction) : Json String := .object (("kind", .string i.kind) :: i.members)

end Instruction

/-- A member that is left out when there is none. -/
def optionalMember (name : String) : Option String → List (String × Json String)
  | some s => [(name, .string s)]
  | none => []

/-- An annotation. -/
def Annotation.toJson (a : Annotation) : Json String :=
  .object (("descriptor", .string a.descriptor) :: optionalMember "value" a.value)

/-- A handler. -/
def Handler.toJson (h : Handler) : Json String :=
  .object [("start", Label.toJson h.start), ("end", Label.toJson h.stop),
    ("handler", Label.toJson h.handler), ("catch_type", .ofOption h.catchType)]

/-- A local variable. -/
def LocalVariable.toJson (v : LocalVariable) : Json String :=
  .object [("name", .string v.name), ("descriptor", .string v.descriptor),
    ("slot", .ofNat v.slot.toNat), ("start", Label.toJson v.start), ("end", Label.toJson v.stop)]

/-- A method. -/
def Method.toJson (m : Method) : Json String :=
  .object [("name", .string m.name), ("descriptor", .string m.descriptor),
    ("access", .ofNat m.access.toNat),
    ("annotations", .list (m.annotations.map Annotation.toJson)),
    ("instructions", .list (m.instructions.map Instruction.toJson)),
    ("try_catch", .list (m.handlers.map Handler.toJson)),
    ("locals", .list (m.locals.map LocalVariable.toJson)),
    ("max_stack", .ofNat m.maxStack.toNat), ("max_locals", .ofNat m.maxLocals.toNat)]

namespace ClassFile

/-- A class. -/
def toJson (c : ClassFile) : Json String :=
  .object ([("name", .string c.name), ("super_name", .ofOption c.superName),
    ("interfaces", .list (c.interfaces.map .string)), ("access", .ofNat c.access.toNat)]
    ++ optionalMember "source_file" c.sourceFile
    ++ [("annotations", .list (c.annotations.map Annotation.toJson)),
      ("methods", .list (c.methods.map Method.toJson))])

/-- The text of a class artifact. -/
def toText (c : ClassFile) : String := c.toJson.indented

/-- The bytes of a class artifact. -/
def toBytes (c : ClassFile) : Bytes := Utf8.encode c.toText

end ClassFile

/-! ### Reading -/

/-- A label. -/
def Label.ofJson? (j : Raw) : Option Label := j.uint32?

/-- An operation by name, inside a tagged structure. -/
def Opcode.ofJson? (j : Raw) : Option Opcode := (choice? true j).bind ofName?

namespace Constant

/-- The content of a constant with the given tag. -/
def ofContent? (tag : String) (j : Raw) : Option Constant :=
  if tag == "int" then j.int32?.map .int
  else if tag == "long" then j.int64?.map .long
  else if tag == "float" then j.binary32?.map .float
  else if tag == "double" then j.binary64?.map .double
  else if tag == "string" then j.text?.map .string
  else if tag == "type" then j.text?.map .type
  else none

/-- A constant with its tag. -/
def ofJson? (j : Raw) : Option Constant := do
  let m ← j.members? ["type", "value"]
  let tag ← m.required "type" (choice? true)
  m.required "value" (ofContent? tag)

end Constant

/-- A member reference. -/
def Member.ofJson? (j : Raw) : Option Member := do
  let m ← j.members? ["owner", "name", "descriptor"]
  some ⟨← m.required "owner" text?, ← m.required "name" text?, ← m.required "descriptor" text?⟩

namespace Instruction

/-- An instruction of the given kind from the rest of its structure. -/
def ofMembers? (kind : String) (j : Raw) : Option Instruction :=
  if kind == "simple" then do
    let m ← j.members? ["op"]
    some (.simple (← m.required "op" Opcode.ofJson?))
  else if kind == "int" then do
    let m ← j.members? ["op", "operand"]
    some (.immediate (← m.required "op" Opcode.ofJson?) (← m.required "operand" int32?))
  else if kind == "var" then do
    let m ← j.members? ["op", "slot"]
    some (.slot (← m.required "op" Opcode.ofJson?) (← m.required "slot" uint16?))
  else if kind == "iinc" then do
    let m ← j.members? ["slot", "delta"]
    some (.increment (← m.required "slot" uint16?) (← m.required "delta" int16?))
  else if kind == "type" then do
    let m ← j.members? ["op", "descriptor"]
    some (.typed (← m.required "op" Opcode.ofJson?) (← m.required "descriptor" text?))
  else if kind == "field" then do
    let m ← j.members? ["op", "member"]
    some (.field (← m.required "op" Opcode.ofJson?) (← m.required "member" Member.ofJson?))
  else if kind == "method" then do
    let m ← j.members? ["op", "member", "interface"]
    some (.call (← m.required "op" Opcode.ofJson?) (← m.required "member" Member.ofJson?)
      (← m.required "interface" bool?))
  else if kind == "invoke_dynamic" then do
    let m ← j.members? ["name", "descriptor", "bootstrap_args"]
    some (.callDynamic (← m.required "name" text?) (← m.required "descriptor" text?)
      (← m.required "bootstrap_args" (list? Constant.ofJson?)))
  else if kind == "jump" then do
    let m ← j.members? ["op", "target"]
    some (.jump (← m.required "op" Opcode.ofJson?) (← m.required "target" Label.ofJson?))
  else if kind == "ldc" then do
    let m ← j.members? ["value"]
    some (.load (← m.required "value" Constant.ofJson?))
  else if kind == "table_switch" then do
    let m ← j.members? ["min", "max", "default", "targets"]
    some (.tableSwitch (← m.required "min" int32?) (← m.required "max" int32?)
      (← m.required "default" Label.ofJson?) (← m.required "targets" (list? Label.ofJson?)))
  else if kind == "lookup_switch" then do
    let m ← j.members? ["default", "keys", "targets"]
    some (.lookupSwitch (← m.required "default" Label.ofJson?)
      (← m.required "keys" (list? int32?)) (← m.required "targets" (list? Label.ofJson?)))
  else if kind == "multi_a_new_array" then do
    let m ← j.members? ["descriptor", "dims"]
    some (.newArrays (← m.required "descriptor" text?) (← m.required "dims" uint8?))
  else if kind == "label" then do
    let m ← j.members? ["label"]
    some (.label (← m.required "label" Label.ofJson?))
  else if kind == "line_number" then do
    let m ← j.members? ["line", "start"]
    some (.line (← m.required "line" uint32?) (← m.required "start" Label.ofJson?))
  else none

/-- The field holds the tag. -/
def isKind (field : Option String × Raw) : Bool := field.1 == some "kind"

/-- An instruction inside `nesting` open containers, itself included: the tag, once, and the rest
of the structure, kept until the tag is known. -/
def ofJson? (nesting : Nat) : Raw → Option Instruction
  | .object fields =>
    let rest := fields.filter (!isKind ·)
    match fields.filter (isKind ·) with
    | [(_, tag)] =>
      if rest.all fun field => field.1.isSome && field.2.isKeepable nesting then
        tag.text?.bind fun kind => ofMembers? kind (.object rest)
      else none
    | _ => none
  | .list (tag :: rest) =>
    if rest.all (·.isKeepable nesting) then
      tag.text?.bind fun kind => ofMembers? kind (.list rest)
    else none
  | _ => none

end Instruction

/-- An annotation. -/
def Annotation.ofJson? (j : Raw) : Option Annotation := do
  let m ← j.members? ["descriptor", "value"]
  some ⟨← m.required "descriptor" text?, ← m.optional "value" text?⟩

/-- A handler. -/
def Handler.ofJson? (j : Raw) : Option Handler := do
  let m ← j.members? ["start", "end", "handler", "catch_type"]
  some ⟨← m.required "start" Label.ofJson?, ← m.required "end" Label.ofJson?,
    ← m.required "handler" Label.ofJson?, ← m.nullable "catch_type" text?⟩

/-- A local variable. -/
def LocalVariable.ofJson? (j : Raw) : Option LocalVariable := do
  let m ← j.members? ["name", "descriptor", "slot", "start", "end"]
  some ⟨← m.required "name" text?, ← m.required "descriptor" text?, ← m.required "slot" uint16?,
    ← m.required "start" Label.ofJson?, ← m.required "end" Label.ofJson?⟩

/-- A method inside `nesting` open containers, itself included. -/
def Method.ofJson? (nesting : Nat) (j : Raw) : Option Method := do
  let m ← j.members? ["name", "descriptor", "access", "annotations", "instructions", "try_catch",
    "locals", "max_stack", "max_locals"]
  some {
    name := ← m.required "name" text?
    descriptor := ← m.required "descriptor" text?
    access := ← m.required "access" uint16?
    annotations := ← m.list "annotations" Annotation.ofJson?
    instructions := ← m.required "instructions" (list? (Instruction.ofJson? (nesting + 2)))
    handlers := ← m.list "try_catch" Handler.ofJson?
    locals := ← m.list "locals" LocalVariable.ofJson?
    maxStack := ← m.required "max_stack" uint16?
    maxLocals := ← m.required "max_locals" uint16? }

namespace ClassFile

/-- A class. -/
def ofJson? (j : Raw) : Option ClassFile := do
  let m ← j.members? ["name", "super_name", "interfaces", "access", "source_file", "annotations",
    "methods"]
  some {
    name := ← m.required "name" text?
    superName := ← m.nullable "super_name" text?
    interfaces := ← m.list "interfaces" text?
    access := ← m.required "access" uint16?
    sourceFile := ← m.optional "source_file" text?
    annotations := ← m.list "annotations" Annotation.ofJson?
    methods := ← m.required "methods" (list? (Method.ofJson? 3)) }

/-- The class of an artifact text. -/
def ofText? (text : String) : Option ClassFile := (Json.ofText? text).bind ofJson?

/-- The class of an artifact. -/
def ofBytes? (bytes : Bytes) : Option ClassFile := (Json.ofBytes? bytes).bind ofJson?

end ClassFile

end MutationTesting
