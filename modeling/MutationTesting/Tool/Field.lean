import MutationTesting.Tool.Line
/-!
# Fields

The programs that take lines apart and put them together: `cut` and `paste`.

## Main definitions

* `Span`, `spans?` — ranges of positions, and how they are written
* `Span.separated`, `Span.outside` — ranges that do not overlap, and what lies outside of them
* `cut`, `paste`
-/

namespace MutationTesting.Tool

open Act

/-! ### Parts of lines -/

/-- A range of positions, counted from one on; it may be open. -/
structure Span where
  low : Nat
  high : Option Nat
  deriving DecidableEq

/-- The position lies in the range. -/
def Span.contains (r : Span) (n : Nat) : Bool := r.low ≤ n && r.high.all (n ≤ ·)

/-- What is wrong with ranges. -/
inductive SpanFault where
  | zero
  | decreasing
  | withoutEnd
  | range
  | position (text : Octets)
  | tooLarge (text : Octets)

/-- What is said of a fault, about fields or about other positions. -/
def SpanFault.message (fields : Bool) : SpanFault → Octets
  | .zero => octets (if fields then "fields are numbered from 1"
      else "byte/character positions are numbered from 1")
  | .decreasing => octets "invalid decreasing range"
  | .withoutEnd => octets "invalid range with no endpoint: -"
  | .range => octets (if fields then "invalid field range" else "invalid byte or character range")
  | .position text =>
    octets (if fields then "invalid field value " else "invalid byte/character position ")
      ++ quoted text
  | .tooLarge text =>
    octets (if fields then "field number " else "byte/character offset ") ++ quoted text
      ++ octets " is too large"

/-- A range that is being read. -/
structure SpanDraft where
  /-- The ranges before it, the last first. -/
  earlier : List Span := []
  /-- The digits before a hyphen and after it. -/
  low : Octets := []
  high : Octets := []
  hasHyphen : Bool := false

/-- The draft after a digit; what is left of the text is needed to complain. -/
def SpanDraft.addDigit (d : SpanDraft) (digit : Char) (rest : Octets) :
    Except SpanFault SpanDraft :=
  let digits := (if d.hasHyphen then d.high else d.low) ++ [digit]
  if Nat.pow 2 64 ≤ (natOf? digits).getD 0 + 1 then
    .error (.tooLarge (digits ++ rest.takeWhile Char.isDigit))
  else .ok (if d.hasHyphen then { d with high := digits } else { d with low := digits })

/-- The draft after the end of a range. -/
def SpanDraft.finish (d : SpanDraft) : Except SpanFault SpanDraft :=
  let low := (natOf? d.low).getD (if d.hasHyphen then 1 else 0)
  match d.hasHyphen, natOf? d.high with
  | false, _ =>
    if low = 0 then .error .zero else .ok { earlier := ⟨low, some low⟩ :: d.earlier }
  | true, none =>
    if d.low.isEmpty then .error .withoutEnd else .ok { earlier := ⟨low, none⟩ :: d.earlier }
  | true, some high =>
    if high < low then .error .decreasing else .ok { earlier := ⟨low, some high⟩ :: d.earlier }

/-- Reads the rest of a text with ranges. -/
def SpanDraft.read (d : SpanDraft) : Octets → Except SpanFault (List Span)
  | [] => return (← d.finish).earlier.reverse
  | c :: rest => do
    if c = '-' then
      if d.hasHyphen then throw .range
      else if natOf? d.low = some 0 then throw .zero
      else SpanDraft.read { d with hasHyphen := true } rest
    else if c = ',' || c = ' ' || c = '\t' then (← d.finish).read rest
    else if c.isDigit then (← d.addDigit c rest).read rest
    else throw (.position (c :: rest))

/-- Ranges between commas or blanks. -/
def spans? (text : Octets) : Except SpanFault (List Span) := ({} : SpanDraft).read text

namespace Span

/-- A range and later ones that are in order, with those that overlap put together. -/
def joinInto (r : Span) : List Span → List Span
  | [] => [r]
  | next :: rest =>
    if r.high.all (next.low ≤ ·) then
      joinInto ⟨r.low, do return max (← r.high) (← next.high)⟩ rest
    else r :: joinInto next rest

/-- Ranges in order, with those that overlap put together. -/
def separated (spans : List Span) : List Span :=
  match spans.mergeSort fun a b => a.low ≤ b.low with
  | [] => []
  | r :: rest => joinInto r rest

/-- What lies outside of ranges that do not overlap, from a position on. -/
def outside (start : Nat) : List Span → List Span
  | [] => [⟨start, none⟩]
  | r :: rest =>
    let before := if start < r.low then [⟨start, some (r.low - 1)⟩] else []
    match r.high with
    | none => before
    | some high => before ++ outside (high + 1) rest

end Span

/-- What is taken out of lines. -/
structure CutForm where
  /-- In order, and none overlaps another. -/
  spans : List Span
  byFields : Bool
  separator : Char
  /-- What is written between parts, if that was said. -/
  between : Option Octets
  /-- Nothing is written of lines without separators. -/
  onlySeparated : Bool
  ending : Char

namespace CutForm

variable (f : CutForm)

/-- The position is asked for. -/
def takes (n : Nat) : Bool := f.spans.any (·.contains n)

/-- The form that options ask for, or what is wrong with them. -/
def ofOptions (o : Options) : Except Octets CutForm := do
  if (o.every 'd').any fun d => 1 < d.length then
    throw (octets "the delimiter must be a single character")
  let byFields := o.has 'f'
  match o.filter fun (key, _) => ['b', 'c', 'f'].contains key with
  | [] => throw (octets "you must specify a list of bytes, characters, or fields")
  | [(_, list)] =>
    if !byFields && o.has 'd' then
      throw (octets "an input delimiter may be specified only when operating on fields")
    if !byFields && o.has 's' then
      throw (octets ("suppressing non-delimited lines makes sense\n"
        ++ "\tonly when operating on fields"))
    let spans ← (spans? list).mapError (SpanFault.message byFields)
    let spans := Span.separated spans
    return {
      spans := if o.has 'C' then Span.outside 1 spans else spans
      byFields
      separator := ((o.last? 'd').map (·.headD '\x00')).getD '\t'
      between := (o.last? 'O').map fun text => if text.isEmpty then ['\x00'] else text
      onlySeparated := o.has 's'
      ending := if o.has 'z' then '\x00' else '\n' }
  | _ => throw (octets "only one list may be specified")

/-- The characters of a line that are asked for. -/
def characters (line : Octets) : Octets :=
  let (parts, _) := (line.zipIdx 1).foldl (fun (parts, isFirst) (c, n) =>
    if !f.takes n then (parts, isFirst)
    else if !isFirst && f.spans.any (·.low = n) then ([c] :: f.between.getD [] :: parts, false)
    else ([c] :: parts, false)) (([] : List Octets), true)
  parts.reverse.flatten

/-- The fields that are asked for. -/
def joined (fields : List Octets) : Octets :=
  let own := (fields.zipIdx 1).filterMap fun (field, n) => if f.takes n then some field else none
  List.intercalate (f.between.getD [f.separator]) own

/-- What is written of a line. -/
def ofLine (line : Octets) : Octets :=
  if !f.byFields then f.characters line ++ [f.ending]
  else if line.contains f.separator then f.joined (splitAt f.separator line) ++ [f.ending]
  else if f.onlySeparated then []
  else line ++ [f.ending]

/-- What is written of a text whose lines are the fields. -/
def ofText (text : Octets) : Octets :=
  if text.contains f.ending then f.joined (piecesOf f.ending text) ++ [f.ending]
  else if text.isEmpty || f.onlySeparated then []
  else text ++ [f.ending]

end CutForm

/-- Writes parts of lines. -/
def cut : Program := fun name args =>
  let forms := [valued 'b' "bytes", valued 'c' "characters", valued 'f' "fields",
    valued 'd' "delimiter", flag 's' "only-delimited", longFlag 'C' "complement",
    longValued 'O' "output-delimiter", flag 'n', flag 'z' "zero-terminated"]
  withOptions name forms 1 args fun o paths => do
    match CutForm.ofOptions o with
    | .error message => misuse name 1 message
    | .ok f =>
      if f.byFields && f.separator = f.ending then
        eachInput name (fun _ content => sayAll (f.ofText (Octets.ofBytes content)))
          (pathsOrInput paths)
      else
        filterLines name () (fun () line _ => ((), f.ofLine line)) (pathsOrInput paths) f.ending

/-- The characters of a list of delimiters; there are none if it ends with a backslash alone. -/
def delimiters : Octets → Option (List Octets)
  | ['\\'] => none
  | '\\' :: c :: rest => (delimiters rest).map (meaning c :: ·)
  | c :: rest => (delimiters rest).map ([c] :: ·)
  | [] => some []
where
  /-- What a character means after a backslash. -/
  meaning : Char → Octets
    | 'b' => ['\x08']
    | 'f' => ['\x0c']
    | 'n' => ['\n']
    | 'r' => ['\r']
    | 't' => ['\t']
    | 'v' => ['\x0b']
    | '0' => []
    | c => [c]

/-- Texts with delimiters between them, which are used in turn. -/
def interleave (between : List Octets) (texts : List Octets) : Octets :=
  match texts with
  | [] => []
  | first :: rest =>
    let count := max 1 between.length
    first ++ (rest.zipIdx.flatMap fun (t, i) => (between[i % count]?).getD [] ++ t)

/-- Opens files, or complains about the first one that cannot be opened. All hyphens stand for one
source; the number of the source of each path comes with the sources. -/
def openSources (name : Octets) (ending : Char) (paths : List Octets) :
    Act (Except Nat (List LineSource × List Nat)) := do
  let distinct := paths.zipIdx.filter fun (path, i) =>
    path != ['-'] || (paths.take i).all (· != ['-'])
  let place (path : Octets) (i : Nat) : Nat :=
    (distinct.findIdx? fun (p, j) => if path = ['-'] then p = ['-'] else j = i).getD 0
  let rec opened : List Octets → Act (Except Nat (List LineSource))
    | [] => return .ok []
    | path :: rest => do
      match ← if path = ['-'] then pure (.ok 0) else openFile path .toRead with
      | .error e => return .error (← complainOf name (plain path) e)
      | .ok d => return (← opened rest).map (LineSource.ofOpen path d ending :: ·)
  return (← opened (distinct.map (·.1))).map fun sources =>
    (sources, paths.zipIdx.map fun (path, i) => place path i)

/-- The next line of each of some sources, which are given by their numbers, and the code of
complaints about those that cannot be read. -/
def takeRow (name : Octets) : List Nat → List LineSource → Backlog →
    Act (List (Option Octets) × List LineSource × Backlog × Nat)
  | [], sources, kept => return ([], sources, kept, 0)
  | i :: rest, sources, kept => do
    match sources[i]? with
    | none => return ([], sources, kept, 0)
    | some source =>
      let (arrival, source) ← source.next
      let sources := sources.set i source
      match arrival with
      | .fault path e =>
        let kept ← kept.emptied
        let _ ← complainOf name (plain path) e
        let (row, sources, kept, _) ← takeRow name rest sources kept
        return (none :: row, sources, kept, 1)
      | .line text _ =>
        let (row, sources, kept, code) ← takeRow name rest sources kept
        return (some text :: row, sources, kept, code)
      | .nothing =>
        let (row, sources, kept, code) ← takeRow name rest sources kept
        return (none :: row, sources, kept, code)

/-- Writes lines of files side by side. -/
def pasteParallel (name : Octets) (between : List Octets) (ending : Char) (paths : List Octets) :
    Act Nat := do
  match ← openSources name ending paths with
  | .error code => return code
  | .ok (sources, places) =>
    iterate (fun (sources, (kept : Backlog), code) => do
      let (row, sources, kept, fault) ← takeRow name places sources kept
      let code := max code fault
      if row.all (·.isNone) then
        kept.flush
        return .inr code
      else
        let text := interleave between (row.map (·.getD [])) ++ [ending]
        return .inl (sources, ← kept.push text, code))
      (sources, {}, 0)

/-- Writes the lines of each file side by side. -/
def pasteSerial (name : Octets) (between : List Octets) (ending : Char) (paths : List Octets) :
    Act Nat :=
  iterate (fun (paths, (kept : Backlog), code) => do
    match paths with
    | [] =>
      kept.flush
      return .inr code
    | path :: paths =>
      match ← inputContent path with
      | .ok content =>
        let pieces := piecesOf ending (Octets.ofBytes content)
        return .inl (paths, ← kept.push (interleave between pieces ++ [ending]), code)
      | .error e =>
        let kept ← kept.emptied
        let _ ← complainOf name (plain path) e
        return .inl (paths, kept.add (if isReadFault e then [ending] else []), 1))
    (paths, {}, 0)

/-- Writes lines side by side. -/
def paste : Program := fun name args =>
  let forms := [valued 'd' "delimiters", flag 's' "serial", flag 'z' "zero-terminated"]
  withOptions name forms 1 args fun o paths => do
    let written := (o.last? 'd').getD ['\t']
    let written := if written.isEmpty then ['\\', '0'] else written
    let ending := if o.has 'z' then '\x00' else '\n'
    match delimiters written with
    | none =>
      complain 1 (name ++ octets ": delimiter list ends with an unescaped backslash: " ++ written)
    | some between =>
      let run := if o.has 's' then pasteSerial else pasteParallel
      run name between ending (pathsOrInput paths)

end MutationTesting.Tool
