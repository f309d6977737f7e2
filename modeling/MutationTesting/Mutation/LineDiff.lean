import MutationTesting.Mutation.Differ
/-!
# Line differences

The lines that an edit script takes out of a text and puts into it. A line ends with a line feed, a
carriage return or both, and keeps its end. Which lines are taken for those that stay is left to the
differ.

## Main definitions

* `splitLines`
* `changedLines` — the changed lines of a script as text
* `lineDiff` — the changed lines between two texts
-/

namespace MutationTesting

/-- Lines of the characters; `line` is the line being read, last character first. -/
def splitLinesFrom (line : List Char) : List Char → List (List Char)
  | [] => if line.isEmpty then [] else [line.reverse]
  | '\n' :: rest => ('\n' :: line).reverse :: splitLinesFrom [] rest
  | '\r' :: '\n' :: rest => ('\n' :: '\r' :: line).reverse :: splitLinesFrom [] rest
  | '\r' :: rest => ('\r' :: line).reverse :: splitLinesFrom [] rest
  | c :: rest => splitLinesFrom (c :: line) rest

/-- The lines of a text with their ends. -/
def splitLines (text : List Char) : List (List Char) := splitLinesFrom [] text

/-- A changed line with its mark; a line without an end gets one. -/
def markedLine (mark : Char) (line : List Char) : List Char :=
  mark :: ' ' :: line ++
    (if line.getLast? = some '\n' ∨ line.getLast? = some '\r' then [] else ['\n'])

/-- The marked lines of a script. In a run of changes the deleted lines come before the inserted
ones; `deleted` and `inserted` hold the run being read, last line first. -/
def changedLines (deleted inserted : List (List Char)) : List (Edit (List Char)) → List Char
  | [] => deleted.reverse.flatMap (markedLine '-') ++ inserted.reverse.flatMap (markedLine '+')
  | .keep _ :: rest =>
    deleted.reverse.flatMap (markedLine '-') ++ inserted.reverse.flatMap (markedLine '+')
      ++ changedLines [] [] rest
  | .delete line :: rest => changedLines (line :: deleted) inserted rest
  | .insert line :: rest => changedLines deleted (line :: inserted) rest

/-- The lines that differ between two texts, deleted ones marked by a minus and inserted ones by a
plus. -/
def lineDiff (before after : List Char) (differ : Differ (List Char) := .snakes) : String :=
  String.ofList (changedLines [] [] (differ.script (splitLines before) (splitLines after)))

end MutationTesting
