import MutationTesting.Shell.Builtin
/-!
# Redirecting

Descriptors are connected with files, documents and other descriptors before a command is carried
out, and most of the time connected again as they were after it.

## Main definitions

* `redirect` — connects descriptors, in their order
* `Saved`, `undo` — connects them as they were
* `redirectForGood` — connects them in a process of its own
-/

namespace MutationTesting.Shell

/-- Descriptors with copies of what they led to, if they led to anything; the last one first. -/
abbrev Saved := List (Nat × Option Nat)

/-- Keeps what a descriptor leads to. -/
def save (descriptor : Nat) : Act (Nat × Option Nat) := do
  return (descriptor, ← Act.duplicate descriptor Act.privateDescriptor)

/-- Lets a descriptor lead where another one led, which is closed. -/
def moveTo (descriptor source : Nat) : Act Unit := do
  if descriptor != source then
    let _ ← Act.redirect descriptor source
    Act.close source

/-- Connects descriptors as they were. -/
def undo (saved : Saved) : Act Unit :=
  saved.forM fun (descriptor, copy) =>
    match copy with
    | some copy => moveTo descriptor copy
    | none => Act.close descriptor

/-- What is said about a file that cannot be opened. -/
def openFault (writing : Bool) (path : Octets) (e : FileError) : Octets :=
  octets (if writing then "cannot create " else "cannot open ") ++ path ++ octets ": " ++
    octets (match e with
      | .missing | .notDirectory => if writing then "Directory nonexistent" else "No such file"
      | e => e.message)

/-- Opens a file for a descriptor. -/
def openFor (descriptor : Nat) (path : Octets) (way : OpenWay) : Act (Except Octets Unit) := do
  match ← Act.openFile path way with
  | .ok d =>
    moveTo descriptor d
    return .ok ()
  | .error e => return .error (openFault way.writes path e)

/-- To write a file that is not there, or something that is no file. -/
def wayToWrite (s : State) (k : Kernel) (path : Octets) : OpenWay :=
  let isFile := match k.files.nodeAt? .follow k.here path with
    | some ⟨.file _, _, _⟩ => true
    | _ => false
  if s.has 'C' && isFile then { OpenWay.toWrite with exclusive := true } else .toWrite

section

variable (output : Octets → Sh Octets)

/-- The text that a redirection is about. -/
def redirectionText (r : Redirection) : Sh Octets := do
  match r.connection with
  | .document n => expandText output (((← get).documents.lookup n).getD [])
  | _ => expandText output r.target

/-- Connects the descriptor of a redirection. -/
def connect (r : Redirection) (text : Octets) : Sh (Except Octets Unit) := do
  match r.connection with
  | .read => act (openFor r.descriptor text .toRead)
  | .write =>
    let k ← act Act.look
    act (openFor r.descriptor text (wayToWrite (← get) k text))
  | .overwrite => act (openFor r.descriptor text .toWrite)
  | .append => act (openFor r.descriptor text .toAppend)
  | .both =>
    act (openFor r.descriptor text { reads := true, writes := true, creates := true })
  | .document _ =>
    act do
      moveTo r.descriptor (← Act.newSource text.bytes)
    return .ok ()
  | .duplicate =>
    if text = ['-'] then
      act (.close r.descriptor)
      return .ok ()
    else
      match Tool.natOf? text with
      | none => giveUp (octets "Syntax error: Bad fd number")
      | some target =>
        if ← act (.redirect r.descriptor target) then return .ok ()
        else return .error (text ++ octets ": Bad file descriptor")

/-- Connects descriptors in their order, and keeps what they led to. -/
def redirectEach : List (Redirection × Octets) → Saved → Sh (Except (Octets × Saved) Saved)
  | [], saved => return .ok saved
  | (r, text) :: rest, saved => do
    let saved := (← act (save r.descriptor)) :: saved
    match ← connect r text with
    | .ok () => redirectEach rest saved
    | .error message => return .error (message, saved)

/-- The redirections with the texts that they are about. -/
def redirectionTexts (rs : List Redirection) : Sh (List (Redirection × Octets)) :=
  rs.mapM fun r => do return (r, ← redirectionText output r)

/-- Connects descriptors for good; if one of them cannot be connected the process comes to its end,
with a complaint. -/
def redirectForGood : List (Redirection × Octets) → Sh Unit
  | [] => return ()
  | (r, text) :: rest => do
    match ← connect r text with
    | .ok () => redirectForGood rest
    | .error message => giveUp message

/-- Connects descriptors; if one of them cannot be connected all of them are as before, and there is
a complaint. -/
def redirect (rs : List Redirection) : Sh (Option Saved) := do
  if rs.isEmpty then return some []
  match ← redirectEach (← redirectionTexts output rs) [] with
  | .ok saved => return some saved
  | .error (message, saved) =>
    act (undo saved)
    complain message
    return none

end

end MutationTesting.Shell
