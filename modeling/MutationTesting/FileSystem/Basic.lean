import MutationTesting.Text.Octets
/-!
# File systems

Files, directories and what else has a name. Everything that can have one is a node with a number;
a directory gives names to nodes, so that a file may have several names or none. The root is a
directory and has the number zero.

A file system has a clock, which moves on with every change, so that of two changes the later one is
seen to be later. A node bears the time of its latest change; a time that it was given may lie
before the clock was started.

## Main definitions

* `Node`, `FileSystem`, `FileError`
* `FileSystem.node?`, `FileSystem.setNode`, `FileSystem.addNode` — the nodes by their numbers
* `FileSystem.entries`, `FileSystem.entry?`, `FileSystem.setEntry` — the names in a directory

## Main statements

* `node?_setNode` — a node is changed, and no other
-/

namespace MutationTesting

/-- Why nothing came of a use of the file system. -/
inductive FileError where
  | missing
  | notDirectory
  | isDirectory
  | taken
  | notEmpty
  | nameTooLong
  | tooManyLinks
  /-- The mode of the file does not allow it. -/
  | refused
  | invalid
  /-- The place cannot be taken away. -/
  | busy
  /-- Nobody reads what is written. -/
  | unread
  | badDescriptor
  | noSpace
  | unsuitable
  deriving DecidableEq

/-- The error in the words of the system. -/
def FileError.message : FileError → String
  | .missing => "No such file or directory"
  | .notDirectory => "Not a directory"
  | .isDirectory => "Is a directory"
  | .taken => "File exists"
  | .notEmpty => "Directory not empty"
  | .nameTooLong => "File name too long"
  | .tooManyLinks => "Too many levels of symbolic links"
  | .refused => "Permission denied"
  | .invalid => "Invalid argument"
  | .busy => "Device or resource busy"
  | .unread => "Broken pipe"
  | .badDescriptor => "Bad file descriptor"
  | .noSpace => "No space left on device"
  | .unsuitable => "Exec format error"

/-- A device. -/
inductive Device where
  /-- It has no content and swallows what is written. -/
  | null
  /-- Zeros without an end. -/
  | zero
  /-- The same, but nothing can be written. -/
  | full
  /-- Bytes without a pattern. -/
  | random
  deriving DecidableEq

/-- What a node is. -/
inductive NodeForm where
  | file (content : Bytes)
  | directory (parent : Nat) (entries : List (Octets × Nat))
  /-- It stands for what a path leads to. -/
  | link (target : Octets)
  /-- What one process writes to it another one reads. -/
  | pipe
  | device (d : Device)
  deriving DecidableEq

/-- Something that can have a name. -/
structure Node where
  form : NodeForm
  /-- Who may do what with it, in nine bits. -/
  mode : Nat
  /-- When it was changed last, in microseconds on the clock of the file system. -/
  time : Int
  deriving DecidableEq

/-- A file system. -/
structure FileSystem where
  nodes : List (Nat × Node)
  /-- The number of the next node. -/
  issued : Nat
  /-- The microseconds since the beginning; a change takes one of them at least. -/
  clock : Nat
  deriving DecidableEq

namespace FileSystem

/-- The number of the root. -/
def root : Nat := 0

/-- The mode of a directory, unless said otherwise. -/
def directoryMode : Nat := 0o755

/-- The mode of a file that can be executed. -/
def programMode : Nat := 0o755

/-- The file system of an empty root directory. -/
def empty : FileSystem := ⟨[(root, ⟨.directory root [], directoryMode, 0⟩)], 1, 0⟩

variable (fs : FileSystem)

/-- The node of a number. -/
def node? (n : Nat) : Option Node := fs.nodes.lookup n

/-- What the node of a number is. -/
def form? (n : Nat) : Option NodeForm := (fs.node? n).map (·.form)

/-- Puts a node in the place of the one with its number. -/
def setNode (n : Nat) (node : Node) : FileSystem :=
  { fs with nodes := (n, node) :: fs.nodes.filter (·.1 != n) }

/-- Changes what a node is. -/
def setForm (n : Nat) (form : NodeForm) : FileSystem :=
  match fs.node? n with
  | none => fs
  | some node =>
    { fs.setNode n { node with form, time := fs.clock + 1 } with clock := fs.clock + 1 }

/-- Adds a node, which gets a number. -/
def addNode (form : NodeForm) (mode : Nat) : Nat × FileSystem :=
  let clock := fs.clock + 1
  (fs.issued, { fs with
    nodes := (fs.issued, ⟨form, mode, clock⟩) :: fs.nodes
    issued := fs.issued + 1
    clock })

/-- Nine zeros and ones, and three above them. -/
def setMode (n mode : Nat) : FileSystem :=
  match fs.node? n with
  | none => fs
  | some node => fs.setNode n { node with mode }

/-- Gives a node the time of its latest change. -/
def setTime (n : Nat) (time : Int) : FileSystem :=
  match fs.node? n with
  | none => fs
  | some node => fs.setNode n { node with time }

/-- The clock goes on until a time. -/
def passTo (time : Nat) : FileSystem := { fs with clock := max fs.clock time }

/-! ### Directories -/

/-- The number belongs to a directory. -/
def isDirectory (n : Nat) : Bool :=
  match fs.form? n with
  | some (.directory _ _) => true
  | _ => false

/-- The names in a directory; there are none in anything else. -/
def entries (n : Nat) : List (Octets × Nat) :=
  match fs.form? n with
  | some (.directory _ entries) => entries
  | _ => []

/-- The directory above a directory. -/
def parent (n : Nat) : Nat :=
  match fs.form? n with
  | some (.directory parent _) => parent
  | _ => root

/-- What a name in a directory stands for. -/
def entry? (directory : Nat) (name : Octets) : Option Nat := (fs.entries directory).lookup name

/-- Changes the names in a directory. -/
def setEntries (directory : Nat) (entries : List (Octets × Nat)) : FileSystem :=
  fs.setForm directory (.directory (fs.parent directory) entries)

/-- Gives a name in a directory to a node, and takes it from the one that has it. -/
def setEntry (directory : Nat) (name : Octets) (n : Nat) : FileSystem :=
  fs.setEntries directory ((fs.entries directory).filter (·.1 != name) ++ [(name, n)])

/-- Takes a name out of a directory. -/
def dropEntry (directory : Nat) (name : Octets) : FileSystem :=
  fs.setEntries directory ((fs.entries directory).filter (·.1 != name))

/-! ### Laws -/

/-- Entries chosen by their keys are found under the keys that were chosen. -/
theorem lookup_filter_key {α β : Type} [BEq α] [LawfulBEq α] (p : α → Bool) (y : α) :
    ∀ xs : List (α × β),
      (xs.filter fun e => p e.1).lookup y = if p y then xs.lookup y else none
  | [] => by simp
  | (a, b) :: xs => by
    have ih := lookup_filter_key p y xs
    by_cases hya : y = a
    · subst hya
      cases hp : p y <;> simp [hp, ih]
    · have h : (y == a) = false := beq_eq_false_iff_ne.mpr hya
      cases hp : p a <;> simp [hp, List.lookup_cons, h, ih]

/-- The node of a number is changed, and no other. -/
@[simp] theorem node?_setNode (n m : Nat) (node : Node) :
    (fs.setNode n node).node? m = if m = n then some node else fs.node? m := by
  by_cases h : m = n
  · subst h; simp [setNode, node?]
  · have h' : (m == n) = false := beq_eq_false_iff_ne.mpr h
    have hp : (m != n) = true := by simp [h]
    rw [setNode, node?, List.lookup_cons, h', lookup_filter_key (· != n), if_pos hp, if_neg h]
    rfl

end FileSystem

end MutationTesting
