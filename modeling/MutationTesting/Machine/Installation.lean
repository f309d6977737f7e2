import MutationTesting.FileSystem.Change
import MutationTesting.Machine.Basic
import MutationTesting.Tool.Repertoire
/-!
# What is on a machine

The files of a machine before anything has happened on it: directories under their usual names, the
devices, and the programs.

## Main definitions

* `installation` — the files
* `workPath` — the directory in which someone works on a machine
* `Machine.installed` — a machine with these files
-/

namespace MutationTesting

namespace FileSystem

/-- The file system with another node, unless that is not possible. -/
def provide (path : String) (form : NodeForm) (mode : Nat) (fs : FileSystem) : FileSystem :=
  match fs.make root path.toList form mode with
  | .ok (_, fs) => fs
  | .error _ => fs

/-- The file system with another directory and those above it, unless that is not possible. -/
def provideDirectory (fs : FileSystem) (path : String) : FileSystem :=
  match fs.makeDirectories root path.toList directoryMode with
  | .ok fs => fs
  | .error _ => fs

/-- The file system in which the directory of a path may be written by all. -/
def openDirectory (path : String) (fs : FileSystem) : FileSystem :=
  match fs.find .follow root path.toList with
  | .ok n => fs.setMode n 0o1777
  | .error _ => fs

end FileSystem

/-- The directory in which someone works on a machine. -/
def workPath : String := "/tmp/work"

/-- The directories of a machine. -/
def directoryPaths : List String :=
  ["/usr/bin", "/usr/sbin", "/usr/lib", "/usr/local/bin", "/usr/local/sbin", "/dev", "/etc",
    "/home",
    "/mnt", "/opt", "/proc", "/root", "/run", "/srv", "/tmp", "/var/tmp", "/var/log", workPath]

/-- The devices of a machine. -/
def devices : List (String × Device) :=
  [("/dev/null", .null), ("/dev/zero", .zero), ("/dev/full", .full), ("/dev/random", .random),
    ("/dev/urandom", .random), ("/dev/stdin", .null), ("/dev/stdout", .null),
    ("/dev/stderr", .null)]

/-- The mode of a device, which can be read and written by all. -/
def deviceMode : Nat := 0o666

/-- Two directories of programs have another name at the root. -/
def directoryLinks : List (String × String) :=
  [("/bin", "usr/bin"), ("/sbin", "usr/sbin"), ("/lib", "usr/lib")]

/-- The files of a machine on which nothing has happened yet. -/
def installation : FileSystem :=
  let fs := directoryPaths.foldl FileSystem.provideDirectory .empty
  let fs := ["/tmp", "/var/tmp"].foldl (fun fs path => fs.openDirectory path) fs
  let fs := directoryLinks.foldl (fun fs (path, target) =>
    fs.provide path (.link target.toList) 0o777) fs
  let fs := devices.foldl (fun fs (path, d) => fs.provide path (.device d) deviceMode) fs
  Tool.programNames.foldl (fun fs name =>
    fs.provide ("/usr/bin/" ++ name) (.file (programFile name.toList)) FileSystem.programMode) fs

/-- What processes are told, unless said otherwise. -/
def installedEnvironment : List (Octets × Octets) :=
  [("PATH".toList, defaultSearchPath), ("HOME".toList, "/root".toList)]

/-- A machine on which nothing has happened yet. -/
def Machine.installed : Machine :=
  let home := match installation.find .follow FileSystem.root workPath.toList with
    | .ok n => n
    | .error _ => FileSystem.root
  { Machine.ofFiles installation home with environment := installedEnvironment }

/-- The machine with other variables told to its processes, apart from the usual ones. -/
def Machine.withVariables (m : Machine) (told : List (String × String)) : Machine :=
  let told := told.map fun (name, value) => (Octets.ofString name, Octets.ofString value)
  { m with environment := installedEnvironment.filter (fun v => !told.any (·.1 = v.1)) ++ told }

end MutationTesting
