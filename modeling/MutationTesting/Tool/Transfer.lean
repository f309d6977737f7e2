import MutationTesting.Tool.Describe
import MutationTesting.Tool.Removal
/-!
# Moving and copying files

The programs that give files other names, copies and further names: `mv`, `cp`, `link` and `ln`.
They take a source and a destination, or several sources and a directory. What stands in the way is
replaced, unless someone who is asked does not agree; it can be kept under a name of its own.

## Main definitions

* `destinations` — sources and the paths to which they go
* `Backup` — what happens to a file that is replaced
* `copyTree`
* `mv`, `cp`, `link`, `ln`
-/

namespace MutationTesting.Tool

open Act

/-! ### Sources and destinations -/

/-- Sources and the path to which each of them goes: into a directory, or to a name. -/
def destinations (name : Octets) (o : Options) (operands : List Octets) :
    Act (Except Nat (List (Octets × Octets))) := do
  let into (directory : Octets) (sources : List Octets) : List (Octets × Octets) :=
    sources.map fun s => (s, inside directory (lastName s))
  match o.last? 't' with
  | some directory =>
    if operands.isEmpty then return .error (← misuse name 1 (octets "missing file operand"))
    else if ← isDirectory directory then return .ok (into directory operands)
    else
      let reason := if (← nodeBehind? directory).isOk then FileError.notDirectory else .missing
      return .error (← complain 1 (name ++ octets ": target directory " ++ named directory
        ++ octets ": " ++ octets reason.message))
  | none =>
    match operands with
    | [] => return .error (← misuse name 1 (octets "missing file operand"))
    | [a] =>
      return .error (← misuse name 1 (octets "missing destination file operand after " ++ named a))
    | [a, b] =>
      if !o.has 'T' && (← isDirectory b) then return .ok (into b [a]) else return .ok [(a, b)]
    | _ :: _ :: extra :: _ =>
      let target := operands.getLast?.getD []
      if o.has 'T' then return .error (← misuse name 1 (octets "extra operand " ++ quoted extra))
      else if ← isDirectory target then return .ok (into target operands.dropLast)
      else
        let reason := if (← nodeBehind? target).isOk then FileError.notDirectory else .missing
        return .error (← complain 1 (name ++ octets ": target " ++ named target ++ octets ": "
          ++ octets reason.message))

/-- Does something with each source and its destination. -/
def eachPair (act : Octets → Octets → Act Nat) : List (Octets × Octets) → Act Nat
  | [] => return 0
  | (a, b) :: rest => do
    let code ← act a b
    let later ← eachPair act rest
    return max code later

/-- The directory and the name that a path leads to, if there is something. -/
def entryOf? (path : Octets) : Act (Option (Nat × Option Octets)) := ofFiles fun fs here =>
  match fs.spot .stay here path with
  | .ok spot => spot.node.map fun _ => (spot.directory, spot.name)
  | .error _ => none

/-! ### What stands in the way -/

/-- The names under which files that are replaced are kept. -/
inductive Backup where
  | none
  /-- The name of the file with an ending. -/
  | simple (ending : Octets)
  /-- The name of the file with the next number. -/
  | numbered
  /-- The next number if there is one, or else an ending. -/
  | existing (ending : Octets)

namespace Backup

/-- The options that ask for backups. -/
def forms : List OptionForm := [flag 'b', longExtended 'b' "backup", valued 'S' "suffix"]

/-- The kinds of backups by their names. -/
def kinds : List (List String) :=
  [["none", "off"], ["simple", "never"], ["existing", "nil"], ["numbered", "t"]]

/-- The backups that options ask for, or what is wrong with their kind. -/
def ofOptions (o : Options) : Except Octets Backup := do
  let ending := (o.last? 'S').getD ['~']
  let named := ((o.every 'b').filter (!·.isEmpty)).getLast?
  if !o.has 'b' && !o.has 'S' then return .none
  else
    match ← chosen "backup type" kinds (named.getD (octets "existing")) with
    | 0 => return .none
    | 1 => return .simple ending
    | 2 => return .existing ending
    | _ => return .numbered

/-- Something is kept. -/
def keeps : Backup → Bool
  | .none => false
  | _ => true

/-- Backups bear numbers, whatever is there. -/
def counts : Backup → Bool
  | .numbered => true
  | _ => false

/-- The numbers of the backups of a path that there are. -/
def numbers (fs : FileSystem) (here : Nat) (path : Octets) : List Nat :=
  let stem := lastName path ++ ['.', '~']
  match fs.find .follow here (withoutLastName path) with
  | .error _ => []
  | .ok directory => (fs.entries directory).filterMap fun (entry, _) =>
    if stem.isPrefixOf entry && entry.getLast? = some '~' then
      natOf? (entry.drop stem.length).dropLast
    else Option.none

/-- The path under which what is at a path is kept. -/
def path? (b : Backup) (fs : FileSystem) (here : Nat) (path : Octets) : Option Octets :=
  let next : Octets :=
    path ++ octets ".~" ++ Decimal.natText ((numbers fs here path).foldl max 0 + 1) ++ ['~']
  match b with
  | .none => Option.none
  | .simple ending => some (path ++ ending)
  | .numbered => some next
  | .existing ending =>
    if (numbers fs here path).isEmpty then some (path ++ ending) else some next

/-- Keeps what is at a path, unless it is a directory; the path under which it is kept. -/
def keep (b : Backup) (path : Octets) : Act (Option Octets) := do
  let fs ← files
  let here ← here
  match fs.find .stay here path with
  | .error _ => return Option.none
  | .ok n =>
    if fs.isDirectory n then return Option.none
    else
      match b.path? fs here path with
      | Option.none => return Option.none
      | some kept =>
        match ← onFiles fun fs here => fs.rename here path kept with
        | .ok () => return some kept
        | .error _ => return Option.none

/-- What is reported of a file that is kept. -/
def report (kept : Option Octets) : Octets :=
  match kept with
  | some path => octets " (backup: " ++ named path ++ [')']
  | Option.none => []

end Backup

/-- Does something with each source and its destination, but replaces nothing that was made just
before, unless it is kept under a number. If sources are taken only once, those that are named again
are passed over. -/
def eachNew (name : Octets) (backup : Backup) (once : Bool) (act : Octets → Octets → Act Nat)
    (pairs : List (Octets × Octets)) : Act Nat :=
  go [] [] pairs
where
  /-- The same for the pairs that are left, given what was taken and what was made. -/
  go (taken made : List (Nat × Option Octets)) : List (Octets × Octets) → Act Nat
    | [] => return 0
    | (a, b) :: rest => do
      let source ← entryOf? a
      let target ← entryOf? b
      if once && !backup.keeps && source.any taken.contains then
        let form := if ← isDirectory a then "directory " else "file "
        put 2 (name ++ octets (": warning: source " ++ form) ++ named a
          ++ octets " specified more than once\n")
        go taken made rest
      else
        let taken := source.toList ++ taken
        let isNew := target.any made.contains && source != target
        if !backup.counts && isNew && !(← isDirectory b) then
          let code ← complain 1 (name ++ octets ": will not overwrite just-created " ++ named b
            ++ octets " with " ++ named a)
          let later ← go taken made rest
          return max code later
        else
          let code ← act a b
          let result ← entryOf? b
          let later ← go taken (if code = 0 then result.toList ++ made else made) rest
          return max code later

/-- What happens to what is in the way. -/
inductive Clash where
  | replace
  /-- Someone is asked. -/
  | ask
  /-- It is kept, which is a failure. -/
  | refuse
  /-- It is kept. -/
  | skip
  deriving DecidableEq

/-- When what is in the way is replaced. -/
structure Replacing where
  clash : Clash := .replace
  /-- Only if it is older. -/
  onlyOlder : Bool := false

namespace Replacing

/-- The options that say what happens to what is in the way. -/
def forms : List OptionForm :=
  [flag 'f' "force", flag 'i' "interactive", flag 'n' "no-clobber", flag 'u',
    longExtended 'u' "update"]

/-- What options say; a file is moved or copied. The last one counts, but what is kept for good is
not looked at any more. -/
def ofOptions (moves : Bool) (o : Options) : Except Octets Replacing := do
  let r ← o.foldlM (fun (r : Replacing) (key, word) => do
    match key with
    | 'f' => return if moves then { r with clash := .replace } else r
    | 'i' => return { r with clash := .ask }
    | 'n' => return { r with clash := if moves then .refuse else .skip }
    | 'u' =>
      if word.isEmpty then return { r with onlyOlder := true }
      else if r.clash = .refuse then return r
      else
        match ← chosen "--update" [["all"], ["none"], ["older"]] word with
        | 0 => return { clash := .replace, onlyOlder := false }
        | 1 => return { clash := .skip, onlyOlder := false }
        | _ => return { clash := .replace, onlyOlder := true }
    | _ => return r) {}
  return if r.clash = .refuse then { r with onlyOlder := false } else r

/-- What is at the second path is not replaced in any case. -/
def keeps (r : Replacing) : Bool := r.clash = .refuse || r.clash = .skip

/-- The code with which a file is passed over because of what is at the second path: that may have
to be older, be kept, or someone does not agree. -/
def passedOver? (r : Replacing) (name a b : Octets) : Act (Option Nat) := do
  let k ← look
  let time (path : Octets) : Option Int := (k.files.nodeAt? .follow k.here path).map (·.time)
  if r.onlyOlder && (match time a, time b with
      | some x, some y => x ≤ y
      | _, _ => false) then
    return some 0
  else
    match r.clash with
    | .replace => return none
    | .skip => return some 0
    | .refuse => return some (← complain 1 (name ++ octets ": not replacing " ++ named b))
    | .ask =>
      let agreed ← agrees true (name ++ octets ": overwrite " ++ named b ++ octets "? ")
      return if agreed then none else some 1

end Replacing

/-! ### Moving -/

/-- Gives files other names. -/
def mv : Program := fun name args => do
  let forms := [flag 'v' "verbose", valued 't' "target-directory", flag 'T' "no-target-directory",
    longFlag 's' "strip-trailing-slashes"]
  withOptions name (forms ++ Replacing.forms ++ Backup.forms) 1 args fun o operands => do
    match Replacing.ofOptions true o with
    | .error message => misuse name 1 message
    | .ok replacing =>
      match ← destinations name o operands with
      | .error code => return code
      | .ok pairs =>
        if replacing.clash = .refuse && (o.has 'b' || o.has 'S') then
          return (← misuse name 1 (octets
            "options --backup and --no-clobber are mutually exclusive"))
        match Backup.ofOptions o with
        | .error message => misuse name 1 message
        | .ok backup =>
          eachNew name backup false (fun a b => do
            match ← nodeHere? a with
            | .error e => complainTried name "cannot stat" a e
            | .ok n =>
              let there ← nodeHere? b
              if isThroughFile there then complainTried name "cannot stat" b .notDirectory
              else if there.toOption = some n && !replacing.keeps then
                complain 1 (name ++ octets ": " ++ named a ++ octets " and " ++ named b
                  ++ octets " are the same file")
              else
                if there.isOk then
                  if let some code ← replacing.passedOver? name a b then return code
                let source := withoutSlashes a
                let target := if ← ofFiles fun fs _ => fs.isDirectory n then withoutSlashes b else b
                let kept ← backup.keep b
                match ← onFiles fun fs here => fs.rename here source target with
                | .ok () =>
                  if o.has 'v' then
                    sayLine (octets "renamed " ++ named a ++ octets " -> " ++ named b
                      ++ Backup.report kept)
                  return 0
                | .error .invalid =>
                  complain 1 (name ++ octets ": cannot move " ++ named a
                    ++ octets " to a subdirectory of itself, " ++ named b)
                | .error .isDirectory =>
                  complain 1 (name ++ octets ": cannot overwrite directory " ++ named b
                    ++ octets " with non-directory")
                | .error .notDirectory =>
                  if there.isOk then
                    complain 1 (name ++ octets ": cannot overwrite non-directory " ++ named b
                      ++ octets " with directory " ++ named a)
                  else
                    complain 1 (name ++ octets ": cannot move " ++ named a ++ octets " to "
                      ++ named b ++ octets ": Not a directory")
                | .error .notEmpty => complainTried name "cannot overwrite" b .notEmpty
                | .error e =>
                  complain 1 (name ++ octets ": cannot move " ++ named a ++ octets " to "
                    ++ named b ++ octets ": " ++ octets e.message)) pairs

/-! ### Copying -/

/-- How a copy is made. -/
structure CopyManner where
  recursive : Bool
  /-- Modes and times are those of the sources. -/
  faithful : Bool
  /-- Links are copied as such. -/
  keepsLinks : Bool
  /-- Copies are further names of their sources. -/
  names : Bool
  /-- Copies stand for the paths of their sources. -/
  pointers : Bool
  /-- What is in the way of a further name is removed first. -/
  forced : Bool
  /-- What is in the way is removed first. -/
  replacing : Bool
  verbose : Bool
  /-- When what is in the way is replaced at all. -/
  clashes : Replacing
  backup : Backup

/-- What a copy was made of at first, and to where; and the first directory that was made for it. -/
structure CopyRoot where
  source : Octets
  target : Octets
  made : Option Nat

/-- Gives a copy the mode and the time of its source. -/
def makeFaithful (node : Node) (path : Octets) : Act Unit := do
  match ← nodeBehind? path with
  | .ok n =>
    change fun k => { k with files := (k.files.setMode n node.mode).setTime n node.time }
  | .error _ => pure ()

/-- Copies what is no directory to a path at which there is nothing but what can be replaced; the
words about it come after the copy has begun. -/
def copyLeaf (name : Octets) (m : CopyManner) (node : Node) (a b : Octets) : Act Nat := do
  let k ← look
  let mode := if m.faithful then node.mode else k.modeFor node.mode
  let there := k.files.find .stay k.here b
  let ending : Ending := if m.keepsLinks then .stay else .follow
  let same : Bool := match k.files.find ending k.here a, k.files.find ending k.here b with
    | .ok n, .ok m => n == m
    | _, _ => false
  let refuse (words : Octets) : Act Nat := complain 1 (name ++ octets ": " ++ words)
  let simple (tried : Octets) (e : FileError) : Act Nat :=
    refuse (tried ++ octets ": " ++ octets e.message)
  let isLink := match k.files.nodeAt? .stay k.here b with
    | some ⟨.link _, _, _⟩ => true
    | _ => false
  -- A link to the source may be put out of the way.
  if same && !m.clashes.keeps && !(isLink && (m.backup.keeps || m.replacing)) then
    if m.names then return 0
    else refuse (named a ++ octets " and " ++ named b ++ octets " are the same file")
  else if isThroughFile there then complainTried name "cannot stat" b .notDirectory
  else if k.files.leadsToDirectory k.here b then
    refuse (octets "cannot overwrite directory " ++ named b ++ octets " with non-directory")
  else
    -- A file is written through a link, so that it matters what the link leads to.
    let isWritten := match node.form with
      | .file _ => !m.backup.keeps && !m.replacing && !m.names && !m.pointers
      | _ => false
    let inWay := if isWritten then k.files.find .follow k.here b else there
    if inWay.isOk then
      if let some code ← m.clashes.passedOver? name a b then return code
    let kept ← m.backup.keep b
    let make (change : FileSystem → Nat → FileChange) (tried : Octets) : Act Nat := do
      match ← onFiles fun fs here =>
          change (if m.forced then (fs.removeFile here b).toOption.getD fs else fs) here with
      | .ok () =>
        if m.verbose then
          sayLine (named a ++ octets " -> " ++ named b ++ Backup.report kept)
        return 0
      | .error e => simple tried e
    if m.names then
      make (fun fs here => fs.link (if m.keepsLinks then .stay else .follow) here a b)
        (octets "cannot create hard link " ++ named b ++ octets " to " ++ named a)
    else if m.pointers then
      if a.head? != some '/' && withoutLastName b != ['.'] then
        refuse (b ++ octets ": can make relative symbolic links only in current directory")
      else
        make (fun fs here => (fs.make here b (.link a) 0o777).map (·.2))
          (octets "cannot create symbolic link " ++ named b ++ octets " to " ++ named a)
    else
      match node.form, m.recursive with
      | .link target, _ =>
        make (fun fs here =>
            (((fs.removeFile here b).toOption.getD fs).make here b (.link target) 0o777).map (·.2))
          (octets "cannot create symbolic link " ++ named b)
      | .pipe, true =>
        make (fun fs here => (fs.make here b .pipe mode).map (·.2))
          (octets "cannot create fifo " ++ named b)
      | _, _ =>
        match ← contentOf a with
        | .error e => simple (octets "cannot open " ++ named a ++ octets " for reading") e
        | .ok content =>
          if m.replacing then
            let _ ← onFiles fun fs here => fs.removeFile here b
          if there.isOk && kept.isNone && !m.replacing && !(k.files.find .follow k.here b).isOk then
            refuse (octets "not writing through dangling symlink " ++ named b)
          else
            if m.verbose then sayLine (named a ++ octets " -> " ++ named b ++ Backup.report kept)
            match ← withFile b { OpenWay.toWrite with mode } fun d => write d content with
            | .ok _ =>
              if m.faithful then makeFaithful node b
              return 0
            | .error e =>
              let e := if e = .isDirectory then FileError.notDirectory else e
              simple (octets "cannot create regular file " ++ named b) e

/-- Copies what is at a path to another one: a file into the one that is there, or a directory with
everything in it; the code, and whether the copy ran into itself. The first argument bounds the
depth. -/
def copyTree (name : Octets) (m : CopyManner) : Nat → CopyRoot → Octets → Octets → Act (Nat × Bool)
  | 0, _, _, _ => return (1, false)
  | depth + 1, root, a, b => do
    let k ← look
    let found := (k.files.find (if m.keepsLinks then .stay else .follow) k.here a).map fun n =>
      (n, k.files.node? n)
    match found with
    | .error e => return (← complainTried name "cannot stat" a e, false)
    | .ok (_, none) => return (1, false)
    | .ok (n, some node) =>
      match node.form with
      | .directory _ _ =>
        if !m.recursive then
          return (← complain 1 (name ++ octets ": -r not specified; omitting directory "
            ++ named a), false)
        else if root.made = some n then
          return (← complain 1 (name ++ octets ": cannot copy a directory, " ++ named root.source
            ++ octets ", into itself, " ++ named root.target), true)
        else
          let isThere := k.files.leadsToDirectory k.here b
          if isThere && (match k.files.find .follow k.here b with
              | .ok t => t == n
              | .error _ => false) then
            return (← complain 1 (name ++ octets ": " ++ named a ++ octets " and " ++ named b
              ++ octets " are the same file"), false)
          else
            let mode := if m.faithful then node.mode else k.modeFor node.mode
            let result ← if isThere then pure (.ok ())
              else onFiles fun fs here => fs.makeDirectory here (withoutSlashes b) mode
            match result with
            | .error e =>
              if e = .taken then
                return (← complain 1 (name ++ octets ": cannot overwrite non-directory " ++ named b
                  ++ octets " with directory " ++ named a), false)
              else return (← complainTried name "cannot create directory" b e, false)
            | .ok () =>
              if m.verbose && !isThere then sayLine (named a ++ octets " -> " ++ named b)
              let root ← if isThere || root.made.isSome then pure root
                else do
                  let made ← nodeBehind? b
                  pure { root with made := made.toOption }
              let entries := (← files).entries n
              let rec copyAll : List (Octets × Nat) → Act (Nat × Bool)
                | [] => return (0, false)
                | (entry, _) :: rest => do
                  let (code, intoItself) ← copyTree name { m with keepsLinks := true } depth root
                    (inside a entry) (inside b entry)
                  if intoItself then return (code, true)
                  let (later, intoItself) ← copyAll rest
                  return (max code later, intoItself)
              let result ← copyAll entries
              if m.faithful then makeFaithful node b
              return result
      | _ => return (← copyLeaf name m node a b, false)

/-- Makes the directories above the copy of a path in a directory, as they are above the path. -/
def makeAbove (directory path : Octets) : Act Unit := do
  let above := withoutLastName path
  if above != ['.'] then
    let mode ← modeFor 0o777
    let _ ← onFiles fun fs here => fs.makeDirectories here (inside directory above) mode
    pure ()

/-- Copies files. -/
def cp : Program := fun name args => do
  -- Which properties of a source are kept can be said one by one; here they are kept together.
  withOptions name ([flag 'r' "recursive", flag 'R', flag 'a' "archive", flag 'p',
      flag 'v' "verbose", flag 'd',
      flag 'P' "no-dereference", flag 'L' "dereference", flag 'H', flag 'l' "link",
      flag 's' "symbolic-link", valued 't' "target-directory", flag 'T' "no-target-directory",
      longExtended 'p' "preserve", longValued 'N' "no-preserve", flag 'x' "one-file-system",
      longFlag 'F' "remove-destination",
      longFlag 'q' "parents", longFlag '2' "strip-trailing-slashes"] ++ Replacing.forms
      ++ Backup.forms) 1 args fun o operands => do
    for _ in o.every 'n' do
      put 2 (name ++ octets (": warning: behavior of -n is non-portable and may change in future; "
        ++ "use --update=none instead\n"))
    let any (keys : List Char) : Bool := keys.any o.has
    let recursive := any ['r', 'R', 'a']
    match Backup.ofOptions o, Replacing.ofOptions false o with
    | .error message, _ | _, .error message => misuse name 1 message
    | .ok backup, .ok clashes =>
      let follows := match o.latest? ['L', 'P', 'd', 'a', 'H'] with
        | some 'L' => true
        | some 'H' => false
        | some _ => false
        | none => !recursive
      let manner : CopyManner :=
        { recursive
          faithful := any ['a', 'p']
          keepsLinks := !follows
          names := o.has 'l'
          pointers := o.has 's'
          forced := any ['f', 'F']
          replacing := o.has 'F'
          verbose := o.has 'v'
          clashes
          backup }
      match ← destinations name o operands with
      | .error code => return code
      | .ok pairs =>
        let target := (o.last? 't').getD (operands.getLast?.getD [])
        if o.has 'q' && !(← isDirectory target) then
          misuse name 1 (octets "with --parents, the destination must be a directory")
        else
          eachNew name backup true (fun a b => do
            let b := if o.has 'q' then inside target a else b
            if o.has 'q' then makeAbove target a
            return (← copyTree name manner FileSystem.pathLimit ⟨a, b, none⟩ a b).1) pairs

/-! ### Further names -/

/-- Gives a file another name. -/
def link : Program := fun name args =>
  withOptions name [] 1 args fun _ paths =>
    match paths with
    | [] => misuse name 1 (octets "missing operand")
    | [a] => misuse name 1 (octets "missing operand after " ++ named a)
    | [a, b] => do
      match ← onFiles fun fs here => fs.link .stay here a b with
      | .ok () => return 0
      | .error e =>
        complain 1 (name ++ octets ": cannot create link " ++ named b ++ octets " to " ++ named a
          ++ octets ": " ++ octets (if e = .refused then "Operation not permitted" else e.message))
    | _ :: _ :: extra :: _ => misuse name 1 (octets "extra operand " ++ quoted extra)

/-- Gives files further names, or makes links. -/
def ln : Program := fun name args => do
  withOptions name ([flag 's' "symbolic", flag 'f' "force", flag 'i' "interactive",
      flag 'n' "no-dereference", flag 'v' "verbose", flag 'T' "no-target-directory",
      valued 't' "target-directory", flag 'r' "relative", flag 'L' "logical",
      flag 'P' "physical", flag 'd' "directory", flag 'F'] ++ Backup.forms) 1 args
      fun o operands => do
    let operands := if operands.length = 1 && !o.has 't' then operands ++ [['.']] else operands
    let keptTarget ← do
      match operands with
      | [_, b] =>
        if o.has 'n' then
          match ← ofFiles fun fs here => fs.nodeAt? .stay here b with
          | some ⟨.link _, _, _⟩ => pure true
          | _ => pure false
        else pure false
      | _ => pure false
    match Backup.ofOptions o with
    | .error message => misuse name 1 message
    | .ok backup =>
      match ← destinations name (if keptTarget then ('T', []) :: o else o) operands with
      | .error code => return code
      | .ok pairs =>
        eachPair (fun a b => do
          let symbolic := o.has 's'
          let ending : Ending := if o.has 'L' then .follow else .stay
          let k ← look
          let source := k.files.find ending k.here a
          let there := k.files.find .stay k.here b
          let replaces := o.has 'f' || o.has 'i' || backup.keeps
          let samePlace := match k.files.spot .stay k.here a, k.files.spot .stay k.here b with
            | .ok s, .ok t => s.directory = t.directory && s.name = t.name && s.name.isSome
              && !(symbolic && (match s.node.bind k.files.form? with
                | some (.link _) => true
                | _ => false))
            | _, _ => false
          match symbolic, source with
          | false, .error e => complainTried name "failed to access" a e
          | _, _ =>
            let isTree := source.toOption.any k.files.isDirectory
            if !symbolic && isTree then
              complain 1 (name ++ octets ": " ++ a
                ++ octets ": hard link not allowed for directory")
            else if replaces && there.isOk && samePlace then
              complain 1 (name ++ octets ": " ++ named a ++ octets " and " ++ named b
                ++ octets " are the same file")
            else if there.toOption.any k.files.isDirectory && replaces then
              complain 1 (name ++ octets ": " ++ b ++ octets ": cannot overwrite directory")
            else if !(← agrees (o.latest? ['i', 'f'] = some 'i' && there.isOk)
                (name ++ octets ": replace " ++ named b ++ octets "? ")) then
              return 1
            else
              let kept ← backup.keep b
              let pointer (fs : FileSystem) (here : Nat) : Octets :=
                if o.has 'r' then
                  match truePath? fs here true true (withoutLastName b),
                      truePath? fs here true true a with
                  | some start, some path => wayFrom start path
                  | _, _ => a
                else a
              let isNamed := !symbolic && there.isOk && source.toOption = there.toOption && replaces
              let result ← onFiles fun fs here => do
                if isNamed then return fs
                let fs := if replaces then (fs.removeFile here b).toOption.getD fs else fs
                if symbolic then return (← fs.make here b (.link (pointer fs here)) 0o777).2
                else fs.link ending here a b
              match result with
              | .ok () =>
                if o.has 'v' then
                  sayLine ((kept.map fun p => named p ++ octets " ~ ").getD [] ++ named b
                    ++ octets (if symbolic then " -> " else " => ") ++ named a)
                return 0
              | .error e =>
                if e = .taken || symbolic then
                  complainTried name
                    (if symbolic then "failed to create symbolic link"
                      else "failed to create hard link") b e
                else
                  complain 1 (name ++ octets ": failed to create hard link " ++ named b
                    ++ octets " => " ++ named a ++ octets ": " ++ octets e.message)) pairs

end MutationTesting.Tool
