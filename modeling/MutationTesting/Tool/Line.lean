import MutationTesting.Tool.Basic
/-!
# Lines on their way

Most programs that change texts go through their files line by line. They read in large pieces and
keep back what they write until there is enough of it, so that they work on what never comes to an
end, and what they say about a file that cannot be read comes before what they have kept back, or
after it.

## Main definitions

* `LineSource`, `LineSource.next` — the lines of files one after the other
* `LineSource.giveBack` — what was read too much of the input
* `Backlog` — what is kept back
* `filterLines` — a program that changes lines on their way
-/

namespace MutationTesting.Tool

open Act

/-! ### Descriptors and files -/

/-- Does something with the descriptor of a file, or of the input if the path is a hyphen. -/
def withInput {α : Type} (path : Octets) (act : Nat → Act α) : Act (Except FileError α) := do
  if path = ['-'] then return .ok (← act 0) else withFile path .toRead act

/-- The file that a descriptor leads to, and where in it the next bytes are. -/
def fileOf? (k : Kernel) (descriptor : Nat) : Option (Nat × Nat) := do
  let (_, s) ← k.streamOf? descriptor
  match s.channel with
  | .node n =>
    match k.files.form? n with
    | some (.file _) => some (n, s.position)
    | _ => none
  | _ => none

/-- Lets the next bytes of a file be those at a position. -/
def seek (descriptor position : Nat) : Act Unit :=
  change fun k =>
    match k.streamOf? descriptor with
    | some (n, _) =>
      { k with streams := Kernel.adjust n (fun s => { s with position }) k.streams }
    | none => k

/-! ### Lines of files -/

/-- What comes next from files. -/
inductive Arrival where
  /-- A line without its end, and whether it has one. -/
  | line (text : Octets) (ended : Bool)
  /-- Something is wrong with a file. -/
  | fault (path : Octets) (e : FileError)
  | nothing

/-- Lines that are still to come from files, or from the input where a path is a hyphen. -/
structure LineSource where
  /-- What ends a line. -/
  ending : Char
  /-- The files that were not opened yet. -/
  paths : List Octets
  /-- The file that was opened last. -/
  path : Octets
  /-- The descriptor of this file, if it is open. -/
  descriptor : Option Nat
  /-- The lines that were read, with whether they have an end. -/
  ready : List (Octets × Bool)
  /-- The beginning of a line whose end was not read yet, in pieces, the last first. -/
  front : List Octets
  /-- There were zeros in what was read. -/
  hasZeros : Bool

namespace LineSource

/-- The lines of some files. -/
def ofPaths (paths : List Octets) (ending : Char) : LineSource :=
  ⟨ending, paths, ['-'], none, [], [], false⟩

/-- The lines of a file that is open. -/
def ofOpen (path : Octets) (descriptor : Nat) (ending : Char) : LineSource :=
  ⟨ending, [], path, some descriptor, [], [], false⟩

/-- The source after a piece of a file was read. -/
def take (s : LineSource) (block : Octets) : LineSource :=
  let s := { s with hasZeros := s.hasZeros || block.contains '\x00' }
  match splitAt s.ending block with
  | [] | [_] => { s with front := block :: s.front }
  | first :: rest =>
    let lines := (first :: s.front).reverse.flatten :: rest.dropLast
    { s with
      ready := s.ready ++ lines.map (·, true)
      front := (rest.getLast?.filter (!·.isEmpty)).toList }

/-- Closes the file that is open. -/
def shut (s : LineSource) : Act LineSource := do
  match s.descriptor with
  | none | some 0 => pure ()
  | some d => close d
  return { s with descriptor := none, front := [] }

/-- What comes next, and what is left. -/
def next (s : LineSource) : Act (Arrival × LineSource) :=
  iterate (fun (s : LineSource) => do
    match s.ready, s.descriptor, s.paths with
    | (text, ended) :: rest, _, _ => return .inr (.line text ended, { s with ready := rest })
    | [], none, [] => return .inr (.nothing, s)
    | [], none, path :: paths =>
      let s := { s with paths, path, hasZeros := false }
      if path = ['-'] then return .inl { s with descriptor := some 0 }
      else
        match ← openFile path .toRead with
        | .ok d => return .inl { s with descriptor := some d }
        | .error e => return .inr (.fault path e, s)
    | [], some d, _ =>
      match ← read d blockSize with
      | .error e => return .inr (.fault s.path e, ← s.shut)
      | .ok [] =>
        let text := s.front.reverse.flatten
        let s ← s.shut
        if text.isEmpty then return .inl s else return .inr (.line text false, s)
      | .ok block =>
        labour (block.length / bytesPerStep)
        return .inl (s.take (Octets.ofBytes block))) s

/-- A line is to come again. -/
def putBack (s : LineSource) (text : Octets) (ended : Bool) : LineSource :=
  { s with ready := (text, ended) :: s.ready }

/-- Leaves a file where the lines end that have come from it, or so many bytes before. -/
def giveBack (s : LineSource) (more : Nat := 0) : Act Unit := do
  match s.descriptor with
  | none => pure ()
  | some d =>
    let unread := (s.ready.map fun (text, ended) => text.length + if ended then 1 else 0)
      ++ s.front.map (·.length)
    match fileOf? (← look) d with
    | some (_, position) => seek d (position - unread.foldl (· + ·) more)
    | none => pure ()

end LineSource

/-! ### Output that is kept back -/

/-- What a program has said and what is still to be written: pieces, the last first, and their
size. -/
structure Backlog where
  pieces : List Octets := []
  size : Nat := 0

namespace Backlog

/-- As many bytes are kept back at most. -/
def limit : Nat := 4096

/-- What is kept back after a text was added. -/
def add (b : Backlog) (text : Octets) : Backlog :=
  if text.isEmpty then b else ⟨text :: b.pieces, b.size + text.length⟩

/-- What is kept back as a text. -/
def text (b : Backlog) : Octets := b.pieces.reverse.flatten

/-- Writes whole blocks of what is kept back. -/
def settle (b : Backlog) : Act Backlog := do
  if b.size < limit then return b
  else
    let whole := b.size / limit * limit
    say (b.text.take whole)
    return ⟨[b.text.drop whole], b.size - whole⟩

/-- Writes all that is kept back. -/
def flush (b : Backlog) : Act Unit := say b.text

/-- Nothing is kept back after all of it was written. -/
def emptied (b : Backlog) : Act Backlog := do
  b.flush
  return {}

/-- Keeps a text back, as long as there is not too much. -/
def push (b : Backlog) (text : Octets) : Act Backlog := (b.add text).settle

end Backlog

/-- Passes lines on as a step changes them, which has a state. What is kept back is written before
a complaint if so said, or else at the end, together with what the state leaves. -/
def filterSource {σ : Type} (name : Octets) (start : σ) (step : σ → Octets → Bool → σ × Octets)
    (source : LineSource) (blame : Blame := plainBlame) (inOrder : Bool := true)
    (rest : σ → Octets := fun _ => []) : Act Nat :=
  iterate (fun (s, source, kept, code) => do
    match ← source.next with
    | (.line text ended, source) =>
      let (s, said) := step s text ended
      return .inl (s, source, ← kept.push said, code)
    | (.fault path e, source) =>
      let kept ← if inOrder then kept.emptied else pure kept
      let _ ← complainOf name (blame path e) e
      return .inl (s, source, kept, 1)
    | (.nothing, _) =>
      (kept.add (rest s)).flush
      return .inr code) (start, source, ({} : Backlog), 0)

/-- Passes the lines of files on as a step changes them. -/
def filterLines {σ : Type} (name : Octets) (start : σ) (step : σ → Octets → Bool → σ × Octets)
    (paths : List Octets) (ending : Char := '\n') (blame : Blame := plainBlame)
    (inOrder : Bool := true) : Act Nat :=
  filterSource name start step (LineSource.ofPaths paths ending) blame inOrder

end MutationTesting.Tool
