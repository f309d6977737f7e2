import MutationTesting.FileSystem.Walk
/-!
# Changing a file system

Making, filling, naming and removing nodes by their paths. A path is followed from a directory; what
is changed is the name at its end, not what a link of this name stands for, except where a file is
written.

## Main definitions

* `FileSystem.content`, `FileSystem.splice`, `FileSystem.create`, `FileSystem.write`
* `FileSystem.makeDirectory`, `FileSystem.makeDirectories`, `FileSystem.make`, `FileSystem.link`
* `FileSystem.removeFile`, `FileSystem.removeDirectory`, `FileSystem.removeTree`
* `FileSystem.rename`, `FileSystem.replaceFile`
-/

namespace MutationTesting

/-- A change that is not made where it is not possible. -/
abbrev FileChange := Except FileError FileSystem

namespace FileSystem

variable (fs : FileSystem)

/-! ### Content -/

/-- The content of a node that can be read to its end. -/
def content (n : Nat) : Except FileError Bytes :=
  match fs.form? n with
  | some (.file content) => .ok content
  | some (.directory _ _) => .error .isDirectory
  | some _ => .ok []
  | none => .error .missing

/-- The content of the file that a path leads to. -/
def read (here : Nat) (path : Octets) : Except FileError Bytes := do
  fs.content (← fs.find .follow here path)

/-- Bytes put over others from a position on; a gap before them is filled with zeros. -/
def overlay (before : Bytes) (position : Nat) (added : Bytes) : Bytes :=
  if position = before.length then before ++ added
  else
    before.take position ++ List.replicate (position - before.length) 0 ++ added
      ++ before.drop (position + added.length)

/-- Gives a file another content. -/
def setContent (n : Nat) (content : Bytes) : FileSystem :=
  match fs.form? n with
  | some (.file _) => fs.setForm n (.file content)
  | _ => fs

/-- Writes into a file from a position on. -/
def splice (n position : Nat) (added : Bytes) : FileSystem :=
  match fs.form? n with
  | some (.file before) => fs.setForm n (.file (overlay before position added))
  | _ => fs

/-! ### Making -/

/-- A directory has not been removed, so that names can be given in it. -/
def isAttached (directory : Nat) : Bool := (fs.pathTo? directory).isSome

/-- Adds a node under a name that is free. -/
def addAt (directory : Nat) (name : Octets) (form : NodeForm) (mode : Nat) : Nat × FileSystem :=
  let (n, fs) := fs.addNode form mode
  (n, fs.setEntry directory name n)

/-- The file that a path leads to; where there is none it is made, with the given mode. -/
def create (here : Nat) (path : Octets) (mode : Nat) : Except FileError (Nat × FileSystem) := do
  let s ← fs.spot .follow here path
  match s.node, s.name with
  | some n, _ => if fs.isDirectory n then throw .isDirectory else return (n, fs)
  | none, some name =>
    if meansDirectory path then throw .isDirectory
    else if !fs.isAttached s.directory then throw .missing
    else return fs.addAt s.directory name (.file []) mode
  | none, none => throw .missing

/-- Writes the file that a path leads to, from its beginning. -/
def write (here : Nat) (path : Octets) (content : Bytes) (mode : Nat) : FileChange := do
  let (n, fs) ← fs.create here path mode
  return fs.setContent n content

/-- A new node under a path at which there is nothing. -/
def make (here : Nat) (path : Octets) (form : NodeForm) (mode : Nat) :
    Except FileError (Nat × FileSystem) := do
  let s ← fs.spot .stay here path
  match s.node, s.name with
  | none, some name =>
    if meansDirectory path || !fs.isAttached s.directory then throw .missing
    else return fs.addAt s.directory name form mode
  | _, _ => throw .taken

/-- Makes a directory. -/
def makeDirectory (here : Nat) (path : Octets) (mode : Nat) : FileChange := do
  let s ← fs.spot .stay here path
  match s.node, s.name with
  | none, some name =>
    if fs.isAttached s.directory then
      return (fs.addAt s.directory name (.directory s.directory []) mode).2
    else throw .missing
  | _, _ => throw .taken

/-- The paths that a path begins with, up to itself. -/
def stages (path : Octets) : List Octets :=
  (List.range path.length).filterMap fun i =>
    match path[i]?, path[i + 1]? with
    | some c, some '/' => if c = '/' then none else some (path.take (i + 1))
    | some _, none => some path
    | _, _ => none

/-- Makes the directories that a path leads through and the one that it leads to, where they are
not there. -/
def makeDirectories (here : Nat) (path : Octets) (mode : Nat) : FileChange :=
  if path = [] then .error .missing
  else
    (stages path).foldlM (fun fs stage =>
      if fs.leadsToDirectory here stage then .ok fs else fs.makeDirectory here stage mode) fs

/-- Another name for what a path leads to. -/
def link (ending : Ending) (here : Nat) (source target : Octets) : FileChange := do
  let n ← fs.find ending here source
  if fs.isDirectory n then throw .refused
  let s ← fs.spot .stay here target
  match s.node, s.name with
  | none, some name =>
    if fs.isAttached s.directory then return fs.setEntry s.directory name n else throw .missing
  | _, _ => throw .taken

/-! ### Removing -/

/-- Takes away the name of something that is no directory. -/
def removeFile (here : Nat) (path : Octets) : FileChange := do
  let s ← fs.spot .stay here path
  match s.node, s.name with
  | some n, some name =>
    if fs.isDirectory n then throw .isDirectory else return fs.dropEntry s.directory name
  | some _, none => throw .isDirectory
  | none, _ => throw .missing

/-- Takes away a directory without entries. -/
def removeDirectory (here : Nat) (path : Octets) : FileChange := do
  let s ← fs.spot .stay here path
  match s.node, s.name with
  | some n, some name =>
    if !fs.isDirectory n then throw .notDirectory
    else if fs.entries n != [] then throw .notEmpty
    else return fs.dropEntry s.directory name
  | some _, none => throw (if (names path).getLast? = some ['.', '.'] then .notEmpty else .invalid)
  | none, _ => throw .missing

/-- Takes away what a path leads to, with everything below it. -/
def removeTree (here : Nat) (path : Octets) : FileChange := do
  let s ← fs.spot .stay here path
  match s.node, s.name with
  | some _, some name => return fs.dropEntry s.directory name
  | some _, none => throw .invalid
  | none, _ => throw .missing

/-! ### Moving -/

/-- A directory is another one or lies above it. The first argument bounds the way up. -/
def isAbove (upper : Nat) : Nat → Nat → Bool
  | 0, _ => false
  | n + 1, lower => lower = upper || (lower != root && isAbove upper n (fs.parent lower))

/-- Gives a directory another directory above it. -/
def setParent (n parent : Nat) : FileSystem :=
  match fs.node? n with
  | some node =>
    match node.form with
    | .directory _ entries => fs.setNode n { node with form := .directory parent entries }
    | _ => fs
  | none => fs

/-- Gives what has one name another name, in the place of what has that name. Only a directory can
take the place of a directory, and only of one without entries. -/
def rename (here : Nat) (source target : Octets) : FileChange := do
  let a ← fs.spot .stay here source
  let b ← fs.spot .stay here target
  match a.node, a.name, b.name with
  | none, _, _ => throw .missing
  | some _, none, _ | some _, _, none => throw .busy
  | some n, some oldName, some newName =>
    let isTree := fs.isDirectory n
    if meansDirectory target && !isTree then throw .notDirectory
    if b.node = some n then return fs
    if isTree && fs.isAbove n (fs.issued + 1) b.directory then throw .invalid
    if !fs.isAttached b.directory then throw .missing
    match b.node with
    | none => pure ()
    | some m =>
      if isTree && !fs.isDirectory m then throw .notDirectory
      if !isTree && fs.isDirectory m then throw .isDirectory
      if fs.entries m != [] then throw .notEmpty
    return (((fs.dropEntry a.directory oldName).setEntry b.directory newName n)).setParent n
      b.directory

/-- Gives a new file the name of what is no directory, in one step. -/
def replaceFile (here : Nat) (target : Octets) (content : Bytes) (mode : Nat) : FileChange := do
  let s ← fs.spot .stay here target
  match s.name with
  | none => throw .busy
  | some name =>
    if meansDirectory target then throw .notDirectory
    if !fs.isAttached s.directory then throw .missing
    if s.node.any fs.isDirectory then throw .isDirectory
    return (fs.addAt s.directory name (.file content) mode).2

end FileSystem

end MutationTesting
