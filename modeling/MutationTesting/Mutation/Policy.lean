import MutationTesting.Mutation.Inspector
import MutationTesting.Class.Descriptor
/-!
# Policies

The kinds of change that are tried on a class. Each policy weakens one decision on which the
security of an application rests, except `inert`, which changes nothing and finds a site in every
instruction.

A policy has a name, classes that it leaves alone because its own reference implementation lives
there, and an inspector for each method.

## Main definitions

* `Policy`, `Policy.name`, `Policy.excluded?`, `Policy.inspector`
* `Policy.all`, `Policy.defaults`, `Policy.named?`
-/

namespace MutationTesting

/-- A kind of change. -/
inductive Policy where
  /-- A text that begins with `https` loses the `s`. -/
  | plainScheme
  /-- A JSON lookup with a default gets another default. -/
  | lookupDefault
  /-- A JSON lookup gets the key of an earlier lookup of the method. -/
  | lookupKey
  /-- A new XML parser is told to process document types. -/
  | documentType
  /-- An XML attribute is asked for by the index zero. -/
  | attributeIndex
  /-- A check of the XML parser's position is removed. -/
  | positionCheck
  /-- A secure connection is made with a broken protocol. -/
  | brokenProtocol
  /-- Every host name is accepted. -/
  | anyHost
  /-- Every server certificate is accepted. -/
  | anyCertificate
  /-- Nothing changes. -/
  | inert
  deriving DecidableEq, Repr

/-- The method that an inspector is made for. -/
structure MethodInfo where
  classInfo : ClassInfo
  name : String

namespace Policy

/-- The name of a policy. -/
def name : Policy → String
  | .plainScheme => "https_to_http"
  | .lookupDefault => "json_default_value"
  | .lookupKey => "json_get_param"
  | .documentType => "xml_doctype_parsing"
  | .attributeIndex => "xml_attribute_param"
  | .positionCheck => "xml_remove_require"
  | .brokenProtocol => "ssl_context_protocol"
  | .anyHost => "hostname_verifier_true"
  | .anyCertificate => "empty_trust_manager"
  | .inert => "null_mutate"

/-- The beginning of the names of classes that the policy leaves alone. -/
def excluded? : Policy → Option String
  | .plainScheme => none
  | .lookupDefault => some "org/json/"
  | .lookupKey => some "org/json/"
  | .documentType => some "org/xmlpull/"
  | .attributeIndex => some "org/xmlpull/"
  | .positionCheck => some "org/xmlpull/"
  | .brokenProtocol => some "javax/net"
  | .anyHost => some "javax/net"
  | .anyCertificate => some "javax/net"
  | .inert => none

/-- The text begins with the given characters. -/
def beginsWith (start s : String) : Bool := start.toList.isPrefixOf s.toList

/-- The text ends with the given characters. -/
def endsWith (stop s : String) : Bool := stop.toList.isSuffixOf s.toList

/-! ### Texts with a secure scheme -/

/-- The text with `http` for an `https` at its beginning, which may be in any case of letters. -/
def downgradeScheme? (s : String) : Option String :=
  match s.toList with
  | a :: b :: c :: d :: e :: rest =>
    if [a, b, c, d, e].map Char.toLower = ['h', 't', 't', 'p', 's'] then
      some (String.ofList ('h' :: 't' :: 't' :: 'p' :: rest))
    else none
  | _ => none

/-- Loads of a text with a secure scheme. -/
def findScheme : Instruction → Option Finding
  | .load (.string s) => (downgradeScheme? s).map fun plain =>
    { description := "Changed 'https' to 'http' in String", replacement := some [.loadText plain] }
  | _ => none

/-! ### JSON lookups -/

/-- The class whose lookups are changed. -/
def jsonObject : String := "org/json/JSONObject"

/-- What a lookup becomes when its default changes. -/
structure DefaultOverride where
  /-- Removes the default that the caller gives, if any. -/
  pop : Option Opcode
  /-- Loads the new default. -/
  push : Instruction
  /-- The new default in descriptions. -/
  shown : String
  /-- The lookup that takes a default. -/
  descriptor : String
  deriving DecidableEq

/-- The override for a lookup of the given type, none for an unknown one. -/
def defaultOverride? (descriptor : String) : Option DefaultOverride :=
  let text := "Ljava/lang/String;"
  let override (result : String) (drop : Opcode) (push : Instruction) (shown : String) :=
    let full := "(" ++ text ++ result ++ ")" ++ result
    if descriptor == full then some (DefaultOverride.mk (some drop) push shown full)
    else if descriptor == "(" ++ text ++ ")" ++ result then some ⟨none, push, shown, full⟩
    else none
  override "Z" .pop (.simple .iconst1) "true"
    <|> override "D" .pop2 (.load (.double (.ofRatio false 1234567 100))) "12345.67"
    <|> override "I" .pop (.load (.int 1234567)) "1234567"
    <|> override "J" .pop2 (.load (.long 1234567)) "1234567"
    <|> override text .pop (.loadText "qwerty") "qwerty"

/-- The member is a lookup that has a default, given or not. -/
def hasDefault (m : Member) : Bool :=
  m.owner == jsonObject && beginsWith "opt" m.name && m.name != "opt"
    && m.name != "optJSONArray" && m.name != "optJSONObject"

/-- Lookups with a default. -/
def findDefault : Instruction → Option Finding
  | .call op m interface =>
    if hasDefault m then
      (defaultOverride? m.descriptor).map fun o =>
        { description := "Changed default value of " ++ m.name ++ " to " ++ o.shown
          replacement := some ((o.pop.map Instruction.simple).toList ++
            [o.push, .call op { m with descriptor := o.descriptor } interface]) }
    else none
  | _ => none

/-- The keys seen so far, and the text that the instruction just before has loaded. -/
structure LookupMemory where
  /-- Lookups and their distinct keys, in the order of first use. -/
  seen : List (String × List String)
  pending : Option String

namespace LookupMemory

/-- The keys seen with a lookup. -/
def keys (m : LookupMemory) (lookup : String) : List String := (m.seen.lookup lookup).getD []

/-- The first key seen with a lookup that is not the given one. -/
def otherKey? (m : LookupMemory) (lookup key : String) : Option String :=
  (m.keys lookup).find? (· != key)

/-- Adds a key to those of a lookup, and forgets the text just loaded. -/
def remember (m : LookupMemory) (lookup key : String) : LookupMemory :=
  let keys := m.keys lookup
  let keys := if keys.contains key then keys else keys ++ [key]
  ⟨(lookup, keys) :: m.seen.filter (·.1 != lookup), none⟩

end LookupMemory

/-- The member is a lookup without a default. -/
def isLookup (m : Member) : Bool := m.owner == jsonObject && beginsWith "get" m.name

/-- Lookups whose key is a constant, when an earlier one had another key. -/
def inspectLookup (memory : LookupMemory) (i : Instruction) : LookupMemory × Option Finding :=
  match i with
  | .load value => ({ memory with pending := value.text? }, none)
  | .label _ => (memory, none)
  | .line _ _ => (memory, none)
  | .call _ m _ =>
    if isLookup m then
      match memory.pending with
      | none => (memory, none)
      | some key =>
        (memory.remember m.name key, (memory.otherKey? m.name key).map fun other =>
          { description := "Changed parameter of " ++ m.name ++ " to " ++ other
            replacement := some [.simple .pop, .loadText other, i] })
    else ({ memory with pending := none }, none)
  | _ => ({ memory with pending := none }, none)

/-! ### XML parsers -/

/-- Tells the parser on top of the stack to process document types. -/
def processDocumentTypes : List Instruction :=
  [.loadText "http://xmlpull.org/v1/doc/features.html#process-docdecl", .simple .iconst1,
    .call .invokeinterface
      ⟨"org/xmlpull/v1/XmlPullParser", "setFeature", "(Ljava/lang/String;Z)V"⟩ true]

/-- Where the method is with its first parser. -/
inductive ParserProgress where
  | beforeCreation
  | created
  /-- The first reference stored or returned after its creation was taken for it. -/
  | placed
  deriving DecidableEq

/-- The site of a parser that is stored or returned. -/
def documentTypeFinding (replacement : List Instruction) : Finding :=
  { description := "Added call to setFeature(FEATURE_PROCESS_DOCDECL, true)"
    replacement := some replacement }

/-- The first reference that is stored or returned after the creation of a parser. -/
def inspectParser (progress : ParserProgress) (i : Instruction) :
    ParserProgress × Option Finding :=
  match progress, i with
  | .beforeCreation, .call .invokevirtual m _ =>
    if m.owner == "org/xmlpull/v1/XmlPullParserFactory" && m.name == "newPullParser" then
      (.created, none)
    else (progress, none)
  | .created, .slot .astore n =>
    (.placed, some (documentTypeFinding (i :: .slot .aload n :: processDocumentTypes)))
  | .created, .simple .areturn =>
    (.placed, some (documentTypeFinding (.simple .dup :: processDocumentTypes ++ [i])))
  | _, _ => (progress, none)

/-- Requests for an attribute by index. -/
def findAttribute : Instruction → Option Finding
  | i@(.call _ m true) =>
    if endsWith "xmlpull/v1/XmlPullParser" m.owner && m.name == "getAttributeValue"
        && m.descriptor == "(I)Ljava/lang/String;" then
      some { description := "Changed parameter of getAttributeValue() to 0"
             replacement := some [.simple .pop, .simple .iconst0, i] }
    else none
  | _ => none

/-- Instructions that remove from the stack what a call would take. -/
def popOperands? (op : Opcode) (descriptor : String) : Option (List Instruction) :=
  (Descriptor.argumentSizes? descriptor).map fun sizes =>
    sizes.reverse.map (fun size => .simple (if size = 2 then .pop2 else .pop))
      ++ (if op = .invokestatic then [] else [.simple .pop])

/-- Checks of a parser's position. -/
def findCheck : Instruction → Option Finding
  | .call op m _ =>
    if m.name == "require" && m.descriptor == "(ILjava/lang/String;Ljava/lang/String;)V" then
      (popOperands? op m.descriptor).map fun pops =>
        { description := "removed call to " ++ m.owner ++ "::" ++ m.name, replacement := some pops }
    else none
  | _ => none

/-! ### Secure connections -/

/-- Makes a protocol name on top of the stack a broken one. -/
def breakProtocol : List Instruction := [.simple .pop, .loadText "SSLv3"]

/-- Requests for a secure context by the name of its protocol. -/
def findProtocol : Instruction → Option Finding
  | i@(.call .invokestatic m _) =>
    if m.owner == "javax/net/ssl/SSLContext" && m.name == "getInstance" then
      let result := "Ljavax/net/ssl/SSLContext;"
      if m.descriptor == "(Ljava/lang/String;)" ++ result then
        some { description := "Changed parameter of SSLContext.getInstance() to 'SSLv3'"
               replacement := some (breakProtocol ++ [i]) }
      else if m.descriptor == "(Ljava/lang/String;Ljava/lang/String;)" ++ result
          || m.descriptor == "(Ljava/lang/String;Ljava/security/Provider;)" ++ result then
        some { description := "Changed first parameter of SSLContext.getInstance() to 'SSLv3'"
               replacement := some ([.simple .swap] ++ breakProtocol ++ [.simple .swap, i]) }
      else none
    else none
  | _ => none

/-- The first line marker of a method, whose body is replaced from there on. The memory tells
whether the marker is still to come. -/
def bodyInspector (eligible : Bool) (description : String) (body : List Instruction) :
    Inspector where
  Memory := Bool
  start := eligible
  inspect := fun awaiting i =>
    match awaiting, i with
    | true, .line _ _ =>
      (false, some { description, replacement := some (i :: body), endsBody := true })
    | awaiting, _ => (awaiting, none)

/-! ### Every instruction -/

/-- Every instruction but a return without a value. -/
def findAny (i : Instruction) : Option Finding :=
  match i.opcode? with
  | none => none
  | some op =>
    if op = .returnVoid then none
    else some { description := "Null mutation with " ++ op.name, replacement := none }

/-! ### The policies -/

/-- The inspector of a policy for a method. -/
def inspector (method : MethodInfo) : Policy → Inspector
  | .plainScheme => .ofItem findScheme
  | .lookupDefault => .ofItem findDefault
  | .lookupKey => ⟨LookupMemory, ⟨[], none⟩, inspectLookup⟩
  | .documentType => ⟨ParserProgress, .beforeCreation, inspectParser⟩
  | .attributeIndex => .ofItem findAttribute
  | .positionCheck => .ofItem findCheck
  | .brokenProtocol => .ofItem findProtocol
  | .anyHost =>
    bodyInspector
      (method.name == "verify" && method.classInfo.implements "javax/net/ssl/HostnameVerifier")
      "Changed result of HostnameVerifier to constant true" [.simple .iconst1, .simple .ireturn]
  | .anyCertificate =>
    bodyInspector
      (method.name == "checkServerTrusted"
        && method.classInfo.implements "javax/net/ssl/X509TrustManager")
      "Removed body of custom TrustManager" [.simple .returnVoid]
  | .inert => .ofItem findAny

/-- The policy leaves the class alone. -/
def excludes (p : Policy) (c : ClassInfo) : Bool := p.excluded?.any c.isWithin

/-- The stage of a policy in the chain for a method. -/
def stage (method : MethodInfo) (p : Policy) : Transducer :=
  (p.inspector method).transducer p.name

/-- Every policy, in chain order. -/
def all : List Policy :=
  [.plainScheme, .lookupDefault, .lookupKey, .documentType, .attributeIndex, .positionCheck,
    .brokenProtocol, .anyHost, .anyCertificate, .inert]

/-- The policies in use when none are named. -/
def defaults : List Policy := all.filter (· != .inert)

/-- The names of all policies. -/
def names : List String := all.map name

/-- The policies with the given names, in chain order; else the first name that is unknown. -/
def named? (requested : List String) : Except String (List Policy) :=
  match requested.find? fun r => !names.contains r with
  | some unknown => .error unknown
  | none => .ok (all.filter fun p => requested.contains p.name)

end Policy

end MutationTesting
