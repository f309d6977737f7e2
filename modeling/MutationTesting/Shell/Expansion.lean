import MutationTesting.Shell.Formula
import MutationTesting.Shell.State
import MutationTesting.Text.Glob
/-!
# Expansion

What becomes of the words of a command before it is carried out: values take the places of
parameters, scripts and formulas; values that are not quoted are cut at separators; and what then
looks like a pattern is replaced by the paths that fit it, if there are any.

## Main definitions

* `Atom` — what a word is made of once the values are in place
* `splitFields` — cutting at separators
* `fittingPaths` — the paths that fit a pattern
* `expandFields`, `expandText`, `expandMarked`
-/

namespace MutationTesting.Shell

/-- What a word is made of once the values are in place. -/
inductive Atom where
  /-- A character of the word itself, or of a quoted value; quoted ones stand for themselves. -/
  | char (c : Char) (quoted : Bool)
  /-- A character of a value that is not quoted. -/
  | loose (c : Char)
  /-- There is a field, even if it has no characters. -/
  | present
  /-- There is no field unless it has characters, even if it is present. -/
  | absent
  /-- One field ends and another one begins. -/
  | cut
  deriving DecidableEq

/-- A character that is marked stands for itself. -/
abbrev Marked := List (Char × Bool)

namespace Atom

/-- The characters of atoms, with a blank where a field ends. -/
def marked (atoms : List Atom) : Marked :=
  atoms.filterMap fun
    | .char c quoted => some (c, quoted)
    | .loose c => some (c, false)
    | .cut => some (' ', false)
    | _ => none

/-- The text of atoms. -/
def text (atoms : List Atom) : Octets := (marked atoms).map (·.1)

/-- A value, quoted or not. -/
def ofValue (quoted : Bool) (cs : Octets) : List Atom :=
  if quoted then .present :: cs.map (.char · true) else cs.map .loose

/-- Atoms as they stand in a place that is quoted or not. -/
def within (quoted : Bool) (atoms : List Atom) : List Atom :=
  atoms.map fun
    | .char c q => if quoted then .char c true else if q then .char c true else .loose c
    | .loose c => if quoted then .char c true else .loose c
    | a => a

end Atom

/-! ### Values of parameters -/

/-- The separators of fields. -/
def separators (s : State) : Octets := (s.value? ['I', 'F', 'S']).getD [' ', '\t', '\n']

/-- The letters of options in their order. -/
def optionLetters (s : State) : Octets := "ubaCEVvxsnmiIfe".toList.filter s.has

/-- The value of a parameter. -/
def parameterValue? (s : State) (name : Octets) : Option Octets :=
  match name with
  | ['?'] => some (Decimal.natText s.status)
  | ['#'] => some (Decimal.natText s.arguments.length)
  | ['$'] => some (Decimal.natText s.number)
  | ['!'] => s.lastJob.map Decimal.natText
  | ['-'] => some (optionLetters s)
  | ['*'] =>
    if s.arguments.isEmpty then none
    else some (List.intercalate ((separators s).take 1) s.arguments)
  | ['@'] => if s.arguments.isEmpty then none else some (List.intercalate [' '] s.arguments)
  | _ =>
    if name.all Char.isDigit then
      match Decimal.ofDigits (name.filterMap Decimal.digitValue?) with
      | 0 => some s.name
      | n + 1 => s.arguments[n]?
    else if name = octets "LINENO" then some (Decimal.natText s.line)
    else s.value? name

/-- The text without the shortest or longest beginning that fits a pattern. -/
def cutFront (longest : Bool) (g : Glob) (text : Octets) : Octets :=
  let sizes := List.range (text.length + 1)
  let sizes := if longest then sizes.reverse else sizes
  text.drop ((sizes.find? fun n => g.accepts (text.take n)).getD 0)

/-- The text without the shortest or longest end that fits a pattern. -/
def cutBack (longest : Bool) (g : Glob) (text : Octets) : Octets :=
  let sizes := List.range (text.length + 1)
  let sizes := if longest then sizes else sizes.reverse
  text.take ((sizes.find? fun n => g.accepts (text.drop n)).getD text.length)

/-- The value of the variable that names the home directory at the beginning of a text, where a
tilde stands for it. -/
def expandTilde (s : State) (text : Octets) : Option (Octets × Octets) :=
  match text with
  | '~' :: rest =>
    let user := rest.takeWhile (· != '/')
    let after := rest.drop user.length
    if user.isEmpty then (s.value? (octets "HOME")).map (·, after)
    else if user = octets "root" then some (octets "/root", after)
    else none
  | _ => none

section

/-! The argument `output` carries out a script and gives what it writes. -/

variable (output : Octets → Sh Octets)

/-- The atoms of the arguments, each a field of its own. -/
def argumentAtoms (quoted : Bool) : Sh (List Atom) := do
  let args := (← get).arguments
  return if args.isEmpty then if quoted then [.absent] else []
    else List.intercalate [.cut] (args.map (Atom.ofValue quoted))

/-- The value of a formula in which the values are in place. -/
def formulaValue (text : Octets) : Sh Octets := do
  let s ← get
  let fail (what : String) : Sh Octets :=
    giveUp (octets ("arithmetic expression: " ++ what ++ ": \"") ++ text ++ ['"'])
  match ((Formula.ofText text).value s.value? false).run [] with
  | .ok (n, assigned) =>
    assigned.reverse.forM fun (name, n) => assign name (Decimal.intText n)
    return Decimal.intText n
  | .error .division => fail "division by zero"
  | .error (.expecting what) => fail ("expecting " ++ what)
  | .error (.badNumber value) => giveUp (octets "Illegal number: " ++ value)

/-- A parameter with its operation, the atoms of its argument being made when they are needed. -/
def parameterAtoms (name : Octets) (operation : Operation) (argument : Sh (List Atom))
    (quoted : Bool) : Sh (List Atom) := do
  let s ← get
  let value := parameterValue? s name
  let counts (colon : Bool) : Bool := value.any fun v => !(colon && v.isEmpty)
  let unset : Sh Unit := do
    if value.isNone && s.has 'u' && name != ['@'] && name != ['*'] then
      giveUp (name ++ octets ": parameter not set")
  let asIs : Sh (List Atom) := do
    if name = ['@'] || (name = ['*'] && !quoted) then argumentAtoms quoted
    else return Atom.ofValue quoted (value.getD [])
  if name.isEmpty then giveUp (octets "Bad substitution")
  match operation with
  | .value =>
    unset
    asIs
  | .length =>
    unset
    return Atom.ofValue quoted (Decimal.natText (value.getD []).length)
  | .default colon =>
    if counts colon then asIs else return Atom.within quoted (← argument)
  | .assign colon =>
    if counts colon then asIs
    else
      let text := Atom.text (← argument)
      if !isName name then giveUp (name ++ octets ": bad variable name")
      assign name text
      return Atom.ofValue quoted text
  | .demand colon =>
    if counts colon then asIs
    else
      let text := Atom.text (← argument)
      giveUp (name ++ octets ": " ++
        if text.isEmpty then octets (if colon then "parameter not set or null"
          else "parameter not set")
        else text)
  | .replace colon =>
    if counts colon then return Atom.within quoted (← argument)
    else return (if quoted then [.present] else [])
  | .cutFront longest =>
    unset
    return Atom.ofValue quoted
      (cutFront longest (Glob.ofMarked (Atom.marked (← argument))) (value.getD []))
  | .cutBack longest =>
    unset
    return Atom.ofValue quoted
      (cutBack longest (Glob.ofMarked (Atom.marked (← argument))) (value.getD []))
  | .unknown => giveUp (octets "Bad substitution")

mutual

/-- The atoms of a part of a word. -/
def partAtoms : WordPart → Sh (List Atom)
  | .text cs quoted =>
    return if quoted then .present :: cs.map (.char · true) else cs.map (.char · false)
  | .output script quoted => do return Atom.ofValue quoted (← output script)
  | .formula parts quoted => do
    return Atom.ofValue quoted (← formulaValue (Atom.text (← partsAtoms parts)))
  | .parameter name operation argument quoted =>
    parameterAtoms name operation (partsAtoms argument) quoted

/-- The atoms of parts of a word. -/
def partsAtoms : List WordPart → Sh (List Atom)
  | [] => return []
  | part :: rest => do return (← partAtoms part) ++ (← partsAtoms rest)

end

/-- The atoms of a word, with the home directory in the place of a tilde that begins it. -/
def wordAtoms (w : Word) : Sh (List Atom) := do
  match w with
  | .text cs false :: rest =>
    match expandTilde (← get) cs with
    | some (home, after) =>
      return home.map (.char · true) ++ after.map (.char · false) ++ (← partsAtoms output rest)
    | none => partsAtoms output w
  | _ => partsAtoms output w

/-- A word as a pattern. -/
def expandMarked (w : Word) : Sh Marked := do return Atom.marked (← wordAtoms output w)

/-- A word as a text. -/
def expandText (w : Word) : Sh Octets := do return Atom.text (← wordAtoms output w)

/-- A word as a value that a parameter gets: the home directory takes the place of a tilde after
each colon. -/
def expandValue (w : Word) : Sh Octets := do
  match w with
  | .text cs false :: rest =>
    let s ← get
    let pieces := (splitAt ':' cs).map fun piece =>
      match expandTilde s piece with
      | some (home, after) => home ++ after
      | none => piece
    return List.intercalate [':'] pieces ++ Atom.text (← partsAtoms output rest)
  | _ => return Atom.text (← partsAtoms output w)

end

/-! ### Fields -/

/-- A field as far as it was read. -/
structure Field where
  /-- Its characters, the last first. -/
  characters : Marked
  /-- It is there, even if it has no characters. -/
  isThere : Bool
  /-- It is not there unless it has characters. -/
  isGone : Bool
  /-- Blanks ended the field before it. -/
  afterBlank : Bool

namespace Field

/-- The beginning of a field. -/
def fresh (afterBlank : Bool) : Field := ⟨[], false, false, afterBlank⟩

/-- The field is one. -/
def counts (f : Field) : Bool := !f.characters.isEmpty || (f.isThere && !f.isGone)

/-- The field before others, if it is one. -/
def before (f : Field) (fields : List Marked) : List Marked :=
  if f.counts then f.characters.reverse :: fields else fields

end Field

/-- Fields, the last first, after an atom. Separators that are blank count as one, together with one
that is not. -/
def takeAtom (ifs : Octets) (state : List Marked × Field) (a : Atom) : List Marked × Field :=
  let (fields, f) := state
  match a with
  | .present => (fields, { f with isThere := true })
  | .absent => (fields, { f with isGone := true })
  | .cut => (f.before fields, .fresh false)
  | .char c quoted =>
    (fields, { f with characters := (c, quoted) :: f.characters, isThere := true })
  | .loose c =>
    if !ifs.contains c then
      (fields, { f with characters := (c, false) :: f.characters, isThere := true })
    else if c = ' ' || c = '\t' || c = '\n' then
      if f.counts then (f.before fields, .fresh true) else (fields, f)
    else if f.afterBlank && !f.counts then (fields, .fresh false)
    else (f.characters.reverse :: fields, .fresh false)

/-- The fields of atoms, cut at separators. -/
def splitFields (ifs : Octets) (atoms : List Atom) : List Marked :=
  let (fields, f) := atoms.foldl (takeAtom ifs) ([], .fresh false)
  (f.before fields).reverse

/-! ### Paths -/

/-- The pieces of characters between slashes. -/
def slashPieces : Marked → List Marked
  | [] => [[]]
  | c :: rest =>
    if c.1 = '/' then [] :: slashPieces rest
    else
      match slashPieces rest with
      | piece :: pieces => (c :: piece) :: pieces
      | [] => [[c]]

/-- The paths that fit patterns piece by piece, going on from a path. -/
def fittingFrom (files : FileSystem) (here : Nat) : List Marked → Octets → List Octets
  | [], path => if (files.find .stay here path).isOk then [path] else []
  | piece :: rest, path =>
    let onward (name : Octets) := path ++ name ++ if rest.isEmpty then [] else ['/']
    if piece.any Glob.isSpecial then
      let g := Glob.ofMarked piece
      let shown := (piece.head?.map (·.1)) = some '.'
      let names : List Octets :=
        match files.find .follow here (if path.isEmpty then ['.'] else path) with
        | .ok n => (if shown then [['.'], ['.', '.']] else []) ++ (files.entries n).map (·.1)
        | .error _ => []
      let names := names.filter fun n => (shown || n.head? != some '.') && g.accepts n
      (names.filter fun name => rest.isEmpty || files.leadsToDirectory here (path ++ name)).flatMap
        fun name => fittingFrom files here rest (onward name)
    else fittingFrom files here rest (onward (piece.map (·.1)))

/-- The paths that fit a pattern, in order. -/
def fittingPaths (files : FileSystem) (here : Nat) (pattern : Marked) : List Octets :=
  (fittingFrom files here (slashPieces pattern) []).mergeSort Octets.precedes

/-- The words that a word becomes. -/
def expandFields (output : Octets → Sh Octets) (w : Word) : Sh (List Octets) := do
  let atoms ← wordAtoms output w
  let s ← get
  let fields := splitFields (separators s) atoms
  let k ← act Act.look
  return fields.flatMap fun field =>
    let plain := field.map (·.1)
    if field.any Glob.isSpecial && !s.has 'f' then
      match fittingPaths k.files k.here field with
      | [] => [plain]
      | paths => paths
    else [plain]

end MutationTesting.Shell
