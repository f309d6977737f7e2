import MutationTesting.Text.Octets
/-!
# The syntax of scripts

A word is a sequence of parts: text, and places into which something is put when the word is used,
namely a parameter, the output of a script or the value of a formula. A part is quoted or not; what
is quoted is not cut into several words and stands for itself in patterns.

Commands are programs with arguments, and what is made of commands by pipes, conditions, loops,
choices and redirections.

## Main definitions

* `WordPart`, `Word`, `Word.plain?`, `Word.assignment?`
* `Redirection`, `ShellCommand`
-/

namespace MutationTesting.Shell

/-- What becomes of the value of a parameter. Where a colon is written, the empty value counts as
none. -/
inductive Operation where
  | value
  | length
  /-- Another text takes the place of a value that is not there. -/
  | default (colon : Bool)
  /-- The same, and the parameter gets it as its value. -/
  | assign (colon : Bool)
  /-- The script ends if there is no value. -/
  | demand (colon : Bool)
  /-- Another text takes the place of a value that is there. -/
  | replace (colon : Bool)
  /-- The shortest or longest beginning that fits a pattern is taken away. -/
  | cutFront (longest : Bool)
  /-- The shortest or longest end that fits a pattern is taken away. -/
  | cutBack (longest : Bool)
  /-- None that there is. -/
  | unknown
  deriving DecidableEq

/-- A part of a word. -/
inductive WordPart where
  | text (cs : Octets) (quoted : Bool)
  | parameter (name : Octets) (operation : Operation) (argument : List WordPart) (quoted : Bool)
  | output (script : Octets) (quoted : Bool)
  | formula (parts : List WordPart) (quoted : Bool)

/-- A word. -/
abbrev Word := List WordPart

/-- A name may begin with the character. -/
def beginsName (c : Char) : Bool := c.isAlpha || c = '_'

/-- A name may go on with the character. -/
def continuesName (c : Char) : Bool := c.isAlphanum || c = '_'

/-- The text is a name. -/
def isName (text : Octets) : Bool := text.head?.any beginsName && text.all continuesName

namespace Word

/-- The text of a word that is nothing but text without quotes. -/
def plain? : Word → Option Octets
  | [.text cs false] => some cs
  | _ => none

/-- Name and value, if the word assigns a value to a parameter. -/
def assignment? : Word → Option (Octets × Word)
  | .text cs false :: rest =>
    let name := cs.takeWhile continuesName
    match cs.drop name.length with
    | '=' :: value =>
      if isName name then some (name, .text value false :: rest) else none
    | _ => none
  | _ => none

/-- The text of a word as it would be without any quotes, and whether there are quotes in it. -/
def unquoted (w : Word) : Octets × Bool :=
  (w.flatMap fun
    | .text cs _ => cs
    | _ => [],
    w.any fun
    | .text _ quoted => quoted
    | _ => false)

end Word

/-- What a redirection connects a descriptor with. -/
inductive Connection where
  | read
  | write
  | append
  /-- To read and write without emptying the file. -/
  | both
  /-- To write even if files are not to be overwritten. -/
  | overwrite
  /-- With what another descriptor leads to. -/
  | duplicate
  /-- With the document of a number in the script. -/
  | document (number : Nat)
  deriving DecidableEq

/-- A descriptor is connected with what a word names. -/
structure Redirection where
  descriptor : Nat
  connection : Connection
  target : Word

/-- A command. Simple commands and redirections know their lines. -/
inductive ShellCommand where
  | simple (line : Nat) (words : List Word) (redirections : List Redirection)
  | redirected (line : Nat) (c : ShellCommand) (redirections : List Redirection)
  | pipe (stages : List ShellCommand)
  | negated (c : ShellCommand)
  | both (a b : ShellCommand)
  | either (a b : ShellCommand)
  | sequence (cs : List ShellCommand)
  | background (c : ShellCommand)
  | subshell (c : ShellCommand)
  | cond (test yes : ShellCommand) (no : Option ShellCommand)
  /-- Repeats the body as long as the test succeeds, or as long as it fails. -/
  | loop (wanted : Bool) (test body : ShellCommand)
  | each (line : Nat) (name : Octets) (words : List Word) (body : ShellCommand)
  | choose (line : Nat) (word : Word) (arms : List (List Word × ShellCommand))
  | define (name : Octets) (body : ShellCommand)

end MutationTesting.Shell
