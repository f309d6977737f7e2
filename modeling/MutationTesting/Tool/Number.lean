import MutationTesting.Text.Pattern
import MutationTesting.Tool.Line
/-!
# Numbered lines

The program `nl`. A text is made of pages, and a page of a header, a body and a footer, which begin
with lines of marks. Which lines are numbered is said for each part of a page.

## Main definitions

* `NumberForm` — how lines are numbered
* `NumberForm.step` — what becomes of a line
* `nl`
-/

namespace MutationTesting.Tool

open Act

/-- A part of a page. -/
inductive PagePart where
  | header
  | body
  | footer

/-- Which lines are numbered. -/
inductive NumberedLines where
  | all
  /-- Those that are not empty. -/
  | filled
  | never
  /-- Those in which a pattern occurs. -/
  | fitting (p : Pattern)

/-- Where a number stands in its column. -/
inductive NumberPlace where
  | left
  | right
  /-- At the right, with zeros before it. -/
  | zeros

/-- How lines are numbered. -/
structure NumberForm where
  header : NumberedLines := .never
  body : NumberedLines := .filled
  footer : NumberedLines := .never
  start : Int := 1
  increment : Int := 1
  /-- Only the last of so many empty lines is numbered. -/
  joined : Nat := 1
  width : Nat := 6
  place : NumberPlace := .right
  separator : Octets := ['\t']
  /-- Every part of a page begins with the first number. -/
  resets : Bool := true
  /-- What the lines of marks are made of. -/
  mark : Octets := ['\\', ':']

/-- How far a text is numbered. -/
structure NumberState where
  part : PagePart
  number : Int
  /-- So many empty lines were not numbered. -/
  blanks : Nat

namespace NumberForm

variable (f : NumberForm)

/-- The part of a page that begins with a line. -/
def partOf? (line : Octets) : Option PagePart :=
  if f.mark.length < 2 then none
  else if line = f.mark ++ f.mark ++ f.mark then some .header
  else if line = f.mark ++ f.mark then some .body
  else if line = f.mark then some .footer
  else none

/-- Which lines of a part are numbered. -/
def linesOf : PagePart → NumberedLines
  | .header => f.header
  | .body => f.body
  | .footer => f.footer

/-- A number in its column. -/
def written (n : Int) : Octets :=
  let text := Decimal.intText n
  let fill (c : Char) : Octets := List.replicate (f.width - text.length) c
  match f.place with
  | .left => text ++ fill ' '
  | .right => fill ' ' ++ text
  | .zeros => if n < 0 then '-' :: fill '0' ++ text.drop 1 else fill '0' ++ text

/-- Whether a line is numbered, and how many empty lines were not. -/
def decide (s : NumberState) (line : Octets) : Bool × Nat :=
  match f.linesOf s.part with
  | .all =>
    if f.joined ≤ 1 then (true, s.blanks)
    else if !line.isEmpty || s.blanks + 1 = f.joined then (true, 0)
    else (false, s.blanks + 1)
  | .filled => (!line.isEmpty, s.blanks)
  | .never => (false, s.blanks)
  | .fitting p => (p.occursIn line, s.blanks)

/-- What becomes of a line. -/
def step (s : NumberState) (line : Octets) : NumberState × Octets :=
  match f.partOf? line with
  | some part => ({ s with part, number := if f.resets then f.start else s.number }, ['\n'])
  | none =>
    let (isNumbered, blanks) := f.decide s line
    if isNumbered then
      ({ s with number := s.number + f.increment, blanks },
        f.written s.number ++ f.separator ++ line ++ ['\n'])
    else
      ({ s with blanks }, List.replicate (f.width + f.separator.length) ' ' ++ line ++ ['\n'])

/-- The options of `nl`. -/
def options : List OptionForm :=
  [valued 'h' "header-numbering", valued 'b' "body-numbering", valued 'f' "footer-numbering",
    valued 'v' "starting-line-number", valued 'i' "line-increment", flag 'p' "no-renumber",
    valued 'l' "join-blank-lines", valued 's' "number-separator", valued 'w' "number-width",
    valued 'n' "number-format", valued 'd' "section-delimiter"]

/-- Which lines are numbered, as a word says; nothing if it does not say that. -/
def linesFor (word : Octets) : Except Octets (Option NumberedLines) :=
  match word with
  | 'a' :: _ => .ok (some .all)
  | 't' :: _ => .ok (some .filled)
  | 'n' :: _ => .ok (some .never)
  | 'p' :: text =>
    match Pattern.ofText? ⟨false, false, false⟩ text with
    | .ok p => .ok (some (.fitting p))
    | .error e => .error (octets e)
  | _ => .ok none

/-- The form after an option and the misuses until then, or what ends the program. -/
def add : NumberForm × List Octets → Char × Octets → Except Octets (NumberForm × List Octets)
  | (f, faults), (key, word) => do
    let misused (what : String) : NumberForm × List Octets :=
      (f, faults ++ [octets ("invalid " ++ what ++ ": ") ++ quoted word])
    let greatest : Int := 9223372036854775807
    match key with
    | 'h' =>
      match ← linesFor word with
      | some header => return ({ f with header }, faults)
      | none => return misused "header numbering style"
    | 'b' =>
      match ← linesFor word with
      | some body => return ({ f with body }, faults)
      | none => return misused "body numbering style"
    | 'f' =>
      match ← linesFor word with
      | some footer => return ({ f with footer }, faults)
      | none => return misused "footer numbering style"
    | 'v' =>
      let start ← wholeNumber "invalid starting line number" (-greatest - 1) greatest word
      return ({ f with start }, faults)
    | 'i' =>
      let increment ← wholeNumber "invalid line number increment" (-greatest - 1) greatest word
      return ({ f with increment }, faults)
    | 'p' => return ({ f with resets := false }, faults)
    | 'l' =>
      let n ← wholeNumber "invalid line number of blank lines" 1 greatest word
      return ({ f with joined := n.toNat }, faults)
    | 's' => return ({ f with separator := word }, faults)
    | 'w' =>
      let n ← wholeNumber "invalid line number field width" 1 2147483647 word
      return ({ f with width := n.toNat }, faults)
    | 'n' =>
      match String.ofList word with
      | "ln" => return ({ f with place := .left }, faults)
      | "rn" => return ({ f with place := .right }, faults)
      | "rz" => return ({ f with place := .zeros }, faults)
      | _ => return misused "line numbering format"
    | _ => return ({ f with mark := if word.length = 1 then word ++ [':'] else word }, faults)

end NumberForm

/-- Numbers lines. -/
def nl : Program := fun name args =>
  withOptions name NumberForm.options 1 args fun o paths => do
    match (o : List (Char × Octets)).foldlM NumberForm.add ({}, []) with
    | .error message => complain 1 (name ++ octets ": " ++ message)
    | .ok (f, []) =>
      filterLines name (⟨.body, f.start, 0⟩ : NumberState) (fun s line _ => f.step s line)
        (pathsOrInput paths)
    | .ok (_, faults) =>
      misuse name 1 (List.intercalate (octets "\n" ++ name ++ octets ": ") faults)

end MutationTesting.Tool
