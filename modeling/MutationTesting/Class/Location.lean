import MutationTesting.Host.Path
import MutationTesting.Class.Basic
/-!
# Where classes are stored

The artifact of a class lies in a directory of classes under the parts of its name.

## Main definitions

* `artifactPath`, `internalName?` — from names to paths and back
* `isArtifactName` — which files are class artifacts
-/

namespace MutationTesting

/-- The end of the name of a class artifact. -/
def classSuffix : String := ".class"

/-- The extension of a class artifact. -/
def classExtension : String := "class"

/-- The path of the artifact of a class. -/
def artifactPath (classesDir : Path) (name : String) : Path :=
  Path.withExtension ((splitAt '/' (Octets.ofString name)).foldl Path.join classesDir)
    classExtension.toList

/-- The text without an end that it must have. -/
def stripEnd? (stop : String) (text : String) : Option String :=
  if stop.toList.isSuffixOf text.toList then
    some (String.ofList (text.toList.take (text.toList.length - stop.toList.length)))
  else none

/-- The name of the class whose artifact has the given path; it has to be a text. -/
def internalName? (classesDir path : Path) : Option String :=
  ((Path.stripPrefix? classesDir path).bind Octets.text?).bind (stripEnd? classSuffix)

/-- A file of the name is a class artifact. Hidden files are not, nor are those whose name is no
text. -/
def isArtifactName (name : Octets) : Bool :=
  name.text?.isSome && classSuffix.toList.isSuffixOf name && name.head? != some '.'

end MutationTesting
