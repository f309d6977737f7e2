import MutationTesting.Tool.Transfer
/-!
# Installing files

The program `install`: copies files to where they belong and gives the copies the mode that they are
to have there, whatever the mode of their sources is and whatever the process masks. What stands in
the way is removed first, so that a file that is open or that has other names is left alone. It also
makes directories, and gives those a mode.

## Main definitions

* `Installation`, `installFile` — how one file is installed
* `installDirectory`
* `install`
-/

namespace MutationTesting.Tool

open Act

/-- How files are installed. -/
structure Installation where
  /-- The mode of a copy. -/
  mode : Nat
  verbose : Bool
  /-- A copy bears the time of its source. -/
  keepsTime : Bool
  /-- A copy that is already there and that has the same content and mode is left alone. -/
  compares : Bool
  /-- What is of use only to those who look for faults is taken out of a copy. -/
  strips : Bool
  backup : Backup

/-- The mode of an installed file, if no other one is wanted. -/
def usualInstallMode : Nat := 0o755

/-- Makes the directories that are missing on a way, each of them reported if so said. -/
def makeMissing (name : Octets) (verbose : Bool) : List Octets → Act Nat
  | [] => return 0
  | stage :: rest => do
    if ← isDirectory stage then makeMissing name verbose rest
    else
      match ← onFiles fun fs here => fs.makeDirectory here stage usualInstallMode with
      | .ok () =>
        if verbose then sayLine (name ++ octets ": creating directory " ++ named stage)
        makeMissing name verbose rest
      | .error e =>
        complainTried name "cannot create directory" stage
          (if e = .taken && (← nodeBehind? stage).isOk then .notDirectory else e)

/-- Gives the node at a path a mode. -/
def setModeAt (path : Octets) (mode : Nat) : Act Unit := do
  match ← nodeBehind? path with
  | .ok n => change fun k => { k with files := k.files.setMode n mode }
  | .error _ => pure ()

/-- Makes a directory and those above it, and gives it a mode, even if it was there. -/
def installDirectory (name : Octets) (verbose : Bool) (mode : Nat) (path : Octets) : Act Nat := do
  let code ← makeMissing name verbose (FileSystem.stages (withoutSlashes path)).dropLast
  if code != 0 then return code
  else if ← isDirectory path then
    setModeAt path mode
    return 0
  else
    match ← onFiles fun fs here => fs.makeDirectory here path mode with
    | .ok () =>
      if verbose then sayLine (name ++ octets ": creating directory " ++ named path)
      setModeAt path mode
      return 0
    | .error e =>
      if e = .taken && !(← nodeBehind? path).isOk then
        complainTried name "cannot change permissions of" path .missing
      else
        let isFile := path.getLast? = some '/' && (← nodeHere? (withoutSlashes path)).isOk
        complainTried name "cannot create directory" path (if isFile then .taken else e)

/-- Whether a copy is there and is as it would be if it were made again. -/
def isInstalled (m : Installation) (source : Nat) (path : Octets) : Act Bool := do
  let fs ← files
  match ← nodeHere? path with
  | .error _ => return false
  | .ok n =>
    match fs.node? source, fs.node? n with
    | some ⟨.file wanted, _, _⟩, some ⟨.file present, mode, _⟩ =>
      return wanted = present && mode = m.mode && mode < 0o1000
    | _, _ => return false

/-- Copies a file to a path. What has been removed, kept and made is reported as it happens. -/
def installFile (name : Octets) (m : Installation) (a b : Octets) : Act Nat := do
  let fs ← files
  let there ← nodeHere? b
  let refuse (words : Octets) : Act Nat := complain 1 (name ++ octets ": " ++ words)
  match ← nodeBehind? a, there with
  | .error e, _ => complainTried name "cannot stat" a e
  | .ok source, there =>
    if fs.isDirectory source then refuse (octets "omitting directory " ++ named a)
    else if m.compares && (← isInstalled m source b) then return 0
    else if isThroughFile there then complainTried name "cannot stat" b .notDirectory
    else if there.toOption = some source && !(← isFurtherName a b) then
      refuse (named a ++ octets " and " ++ named b ++ octets " are the same file")
    else if there.toOption.any fs.isDirectory then
      refuse (octets "cannot overwrite directory " ++ named b ++ octets " with non-directory")
    else
      let kept ← m.backup.keep b
      if there.isOk && kept.isNone then
        let _ ← onFiles fun fs here => fs.removeFile here b
        if m.verbose then sayLine (octets "removed " ++ named b)
      if m.verbose then sayLine (named a ++ octets " -> " ++ named b ++ Backup.report kept)
      match ← contentOf a with
      | .error e =>
        refuse (octets "cannot open " ++ named a ++ octets " for reading: " ++ octets e.message)
      | .ok content =>
        match ← withFile b { OpenWay.toWrite with mode := 0o600 } fun d => write d content with
        | .error e =>
          complainTried name "cannot create regular file" b
            (if e = .isDirectory then .notDirectory else e)
        | .ok _ =>
          if m.strips then
            let _ ← onFiles fun fs here => fs.removeFile here b
            complain 1 (octets "strip: " ++ b ++ octets ": file format not recognized\n" ++ name
              ++ octets ": strip process terminated abnormally")
          else
            if m.keepsTime then
              match fs.node? source, ← nodeBehind? b with
              | some node, .ok n =>
                change fun k => { k with files := k.files.setTime n node.time }
              | _, _ => pure ()
            setModeAt b m.mode
            return 0
where
  /-- Two paths are different names of one file, neither of which is a link to the other. -/
  isFurtherName (a b : Octets) : Act Bool := do
    let k ← look
    match k.files.spot .stay k.here a, k.files.spot .stay k.here b with
    | .ok s, .ok t => return s.node = t.node && (s.directory, s.name) != (t.directory, t.name)
    | _, _ => return false

/-- Where files are to be installed: in a directory that is there or that may be made, or under a
name. -/
def installPlaces (name : Octets) (o : Options) (operands : List Octets) :
    Act (Except Nat (List (Octets × Octets))) := do
  let into (directory : Octets) (sources : List Octets) : List (Octets × Octets) :=
    sources.map fun s => (s, inside directory (lastName s))
  match o.every 't', operands with
  | _ :: _ :: _, _ =>
    return .error (← complain 1 (name ++ octets ": multiple target directories specified"))
  | [_], [] => return .error (← misuse name 1 (octets "missing file operand"))
  | [directory], _ :: _ =>
    if o.has 'T' then
      return .error (← complain 1 (name ++ octets
        ": cannot combine --target-directory (-t) and --no-target-directory (-T)"))
    else if ← isDirectory directory then return .ok (into directory operands)
    else
      match ← nodeBehind? directory with
      | .error .missing =>
        if o.has 'D' then return .ok (into directory operands)
        else return .error (← complainTried name "failed to access" directory .missing)
      | .error e => return .error (← complainTried name "failed to access" directory e)
      | .ok _ => return .error (← complainTried name "failed to access" directory .notDirectory)
  | [], _ => destinations name o operands

/-- Copies files to where they belong, or makes directories. -/
def install : Program := fun name args => do
  withOptions name ([flag 'c', flag 'C' "compare", flag 'd' "directory", flag 'D',
      valued 'g' "group", valued 'm' "mode", valued 'o' "owner",
      flag 'p' "preserve-timestamps", flag 's' "strip", longValued 'x' "strip-program",
      valued 't' "target-directory", flag 'T' "no-target-directory", flag 'v' "verbose",
      flag 'Z' "context"] ++ Backup.forms) 1 args fun o operands => do
    let owned (key : Char) (who : String) (ids : List String) : Option Octets :=
      (o.last? key).filter (fun id => !ids.contains (String.ofList id)) |>.map fun id =>
        octets ("invalid " ++ who ++ " ") ++ named id
    let special := (o.last? 'm').map fun m => (m, modeFunction? 0 m)
    -- Modes and owners are looked at when it is known where everything goes.
    let ready (isTree : Bool) (act : Nat → Act Nat) : Act Nat :=
      match special with
      | some (m, none) => complain 1 (name ++ octets ": invalid mode " ++ quoted m)
      | _ =>
        if o.has 'p' && o.has 'C' then
          misuse name 1 (octets
            "options --compare (-C) and --preserve-timestamps are mutually exclusive")
        else
          match owned 'o' "user" ["root", "0"], owned 'g' "group" ["root", "0"] with
          | some message, _ | none, some message => complain 1 (name ++ octets ": " ++ message)
          | none, none =>
            act ((special.bind (·.2)).elim usualInstallMode fun f => f isTree 0)
    match Backup.ofOptions o with
    | .error message => misuse name 1 message
    | .ok backup =>
      if o.has 'd' then
        if o.has 's' then
          complain 1 (name ++ octets
            ": the strip option may not be used when installing a directory")
        else if o.has 't' then
          complain 1 (name ++ octets ": target directory not allowed when installing a directory")
        else if operands.isEmpty then misuse name 1 (octets "missing file operand")
        else ready true fun mode =>
          eachOperand (installDirectory name (o.has 'v') mode) operands
      else
        match ← installPlaces name o operands with
        | .error code => return code
        | .ok pairs => ready false fun mode => do
          if o.has 'x' && !o.has 's' then
            put 2 (name ++ octets
              ": WARNING: ignoring --strip-program option as -s option was not specified\n")
          let manner : Installation :=
            { mode
              verbose := o.has 'v'
              keepsTime := o.has 'p'
              compares := o.has 'C'
              strips := o.has 's'
              backup }
          eachNew name backup false (fun a b => do
            let code ← if o.has 'D' then
                makeMissing name (o.has 'v') (FileSystem.stages (withoutSlashes b)).dropLast
              else pure 0
            if code != 0 then return code else installFile name manner a b) pairs

end MutationTesting.Tool
