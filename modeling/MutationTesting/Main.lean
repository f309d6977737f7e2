import MutationTesting.CommandLine.Execution
import MutationTesting.Machine.Host
import MutationTesting.Machine.Installation
/-!
# The program

The command line on the files below the working directory. They are read into a machine in memory,
the request is carried out there, and what has changed is written back. The commands that reach the
device and build the application are carried out by the machine as well, so they have to be its
programs or scripts.
-/

namespace MutationTesting

/-- How deep directories may be nested. -/
def directoryDepth : Nat := 64

/-- The mode of a file with the given content: one that names its interpreter can be executed. -/
def modeOf (content : Bytes) : Nat :=
  if (interpreterLine? (Octets.ofBytes content)).isSome then FileSystem.programMode
  else Machine.fileMode

/-- Adds what the entries of a directory stand for to a directory of a file system. -/
def readEntries : Nat → Nat → Array IO.FS.DirEntry → FileSystem → IO FileSystem
  | 0, _, _, fs => return fs
  | depth + 1, directory, entries, fs =>
    entries.foldlM (fun fs entry => do
      let name := Octets.ofString entry.fileName
      if ← entry.path.isDir then
        let (n, fs) := fs.addAt directory name (.directory directory []) FileSystem.directoryMode
        readEntries depth n (← entry.path.readDir) fs
      else
        let content := (← IO.FS.readBinFile entry.path).data.toList
        return (fs.addAt directory name (.file content) (modeOf content)).2) fs

/-- The paths of everything below a directory, with what is there. -/
def pathsBelow (fs : FileSystem) (directory : Nat) : List (String × NodeForm) :=
  (fs.everythingBelow directory).filterMap fun (way, n) =>
    (fs.form? n).map fun form => ("/".intercalate (way.map Octets.text), form)

/-- Brings the files below the working directory from one state into another. -/
def writeChanges (before after : List (String × NodeForm)) : IO Unit := do
  for (path, form) in before.reverse do
    if !after.any (·.1 = path) then
      match form with
      | .directory _ _ => IO.FS.removeDir path
      | _ => IO.FS.removeFile path
  for (path, form) in after do
    match form with
    | .directory _ _ => IO.FS.createDirAll path
    | .file content =>
      if before.lookup path != some form then IO.FS.writeBinFile path ⟨content.toArray⟩
    | _ => pure ()

/-- The variables that the program looks at. -/
def readEnvironment : IO Environment := do
  let keys := [DeviceConfig.classesKey, DeviceConfig.packageKey, DeviceConfig.testedAppKey,
    DeviceConfig.runnerKey, DeviceConfig.testPathsKey, DeviceConfig.bridgeKey]
  let values ← keys.mapM fun key => do return (← IO.getEnv key).map (key, ·)
  return values.filterMap id

/-- How the program is called. -/
def usageText : String :=
  "Usage: droidmut <run|list|show|status> [OPTIONS]\n"

/-- Carries out a request on the files below the working directory. -/
def serve (request : CommandLine.Request) : IO UInt32 := do
  let session := String.ofList (Decimal.paddedHex 8 (← IO.rand 0 (Nat.pow 2 32 - 1)))
  let machine := Machine.installed
  let files ← readEntries directoryDepth machine.home (← (← IO.currentDir).readDir) machine.files
  let (reply, after) := (CommandLine.execute Machine.host session request).run
    ((machine.withFiles files).withVariables (← readEnvironment))
  writeChanges (pathsBelow files machine.home) (pathsBelow after.files machine.home)
  IO.print (CommandLine.Reply.text reply.output)
  IO.eprint (CommandLine.Reply.text reply.errors)
  return UInt32.ofNat reply.code

end MutationTesting

/-- The program. -/
def main (args : List String) : IO UInt32 := do
  match MutationTesting.CommandLine.Request.read (← MutationTesting.readEnvironment) args with
  | .ok request => MutationTesting.serve request
  | .error .help =>
    IO.print MutationTesting.usageText
    return 0
  | .error .usage =>
    IO.eprint MutationTesting.usageText
    return 2
