import MutationTesting.Tool.File
/-!
# Removing files

The programs that take names away: `rmdir` from directories without entries, `unlink` from a file,
`rm` from files, and from directories together with everything below them. Before a name is taken
away one can be asked whether to do so. A directory stays if anything in it stays.

## Main definitions

* `agrees` — asks a question that is answered by a line of the input
* `removeAll`
* `rmdir`, `unlink`, `rm`
-/

namespace MutationTesting.Tool

open Act

/-- Asks a question if need be; whether the next line of the input agrees. -/
def agrees (needed : Bool) (question : Octets) : Act Bool := do
  if !needed then return true
  put 2 question
  match ← readLine 0 with
  | .ok line => return (Octets.ofBytes line).head?.any fun c => c = 'y' || c = 'Y'
  | .error _ => return false

/-- Removes directories without entries. -/
def rmdir : Program := fun name args =>
  withOptions name [flag 'p' "parents", flag 'v' "verbose",
      longFlag 'i' "ignore-fail-on-non-empty"] 1 args fun o paths =>
    if paths.isEmpty then misuse name 1 (octets "missing operand")
    else
      eachOperand (fun path => do
        let rec go : Nat → Bool → Octets → Act Nat
          | 0, _, _ => return 0
          | n + 1, isFirst, path => do
            if o.has 'v' then
              sayLine (name ++ octets ": removing directory, " ++ named path)
            match ← onFiles fun fs here => fs.removeDirectory here path with
            | .ok () =>
              let above := withoutLastName path
              if o.has 'p' && above != ['.'] && above != ['/'] then go n false above else return 0
            | .error e =>
              if o.has 'i' && e = .notEmpty then return 0
              else
                complainTried name
                  (if isFirst then "failed to remove" else "failed to remove directory") path e
        go (path.length + 1) true path) paths

/-- Takes away the name of a file. -/
def unlink : Program := fun name args =>
  withOptions name [] 1 args fun _ paths =>
    match paths with
    | [] => misuse name 1 (octets "missing operand")
    | [path] => do
      match ← onFiles fun fs here => fs.removeFile here path with
      | .ok () => return 0
      | .error e => complainTried name "cannot unlink" path e
    | _ :: extra :: _ => misuse name 1 (octets "extra operand " ++ quoted extra)

/-- How names are taken away. -/
structure RemovalManner where
  recursive : Bool
  /-- Directories without entries are removed too. -/
  takesEmpty : Bool
  /-- Every removal has to be agreed to. -/
  asks : Bool
  verbose : Bool

/-- Takes away what is at a path, with everything below it if so said: whether it is gone, and the
code. The first argument bounds the depth. -/
def removeAll (name : Octets) (m : RemovalManner) : Nat → Octets → Act (Bool × Nat)
  | 0, _ => return (false, 1)
  | depth + 1, path => do
    match ← nodeHere? path with
    | .error e => return (false, ← complainTried name "cannot remove" path e)
    | .ok n =>
      let fs ← files
      let isTree := fs.isDirectory n
      let entries := fs.entries n
      let remove (removed : String) (change : FileSystem → Nat → FileChange) :
          Act (Bool × Nat) := do
        let form := ((fs.form? n).map formName).getD ""
        if !(← agrees m.asks (name ++ octets ": remove " ++ octets form ++ [' ']
            ++ named path ++ octets "? ")) then
          return (false, 0)
        else
          match ← onFiles change with
          | .ok () =>
            if m.verbose then sayLine (octets removed ++ named path)
            return (true, 0)
          | .error e => return (false, ← complainTried name "cannot remove" path e)
      if !isTree then remove "removed " fun fs here => fs.removeFile here path
      else if m.recursive then
        if entries.isEmpty then
          remove "removed directory " fun fs here => fs.removeDirectory here (withoutSlashes path)
        else if !(← agrees m.asks (name ++ octets ": descend into directory "
            ++ named path ++ octets "? ")) then
          return (false, 0)
        else
          let results ← entries.mapM fun (entry, _) => removeAll name m depth (inside path entry)
          let code := (results.map (·.2)).foldl max 0
          if results.all (·.1) then
            let (gone, last) ← remove "removed directory " fun fs here =>
              fs.removeDirectory here (withoutSlashes path)
            return (gone, max code last)
          else return (false, code)
      else if m.takesEmpty then
        remove "removed directory " fun fs here => fs.removeDirectory here path
      else return (false, ← complainTried name "cannot remove" path .isDirectory)

/-- How often one is asked as options say: `i` each time, `I` once at most. -/
def askingOf (o : Options) : Except Octets (Option Char) := do
  let letters ← (o : List (Char × Octets)).mapM fun (key, word) => do
    if key != 'w' then return key
    else
      let word := if word.isEmpty then octets "always" else word
      let choices := [["never", "no", "none"], ["once"], ["always", "yes"]]
      match ← chosen "--interactive" choices word with
      | 0 => return 'f'
      | 1 => return 'I'
      | _ => return 'i'
  return (letters.filter ['f', 'i', 'I'].contains).getLast?

/-- Removes files, and directories with everything below them if so said. -/
def rm : Program := fun name args => do
  let forms := [flag 'r' "recursive", flag 'R', flag 'f' "force", flag 'i', flag 'v' "verbose",
    flag 'd' "dir", flag 'I', longExtended 'w' "interactive", longFlag 'N' "no-preserve-root",
    longExtended 'P' "preserve-root", longFlag 'o' "one-file-system"]
  match readOptions forms false args with
  | .error message =>
    -- The name of a file may have been taken for options.
    let here ← here
    let fs ← files
    let hint := match args.find? fun a =>
        a.head? = some '-' && 1 < a.length && (fs.find .stay here a).isOk with
      | some a => octets "Try '" ++ name ++ octets " ./" ++ a ++ octets "' to remove the file "
          ++ named a ++ octets ".\n"
      | none => []
    complain 1 (name ++ octets ": " ++ message ++ ['\n'] ++ hint ++ octets "Try '" ++ name
      ++ octets " --help' for more information.")
  | .ok (o, paths) =>
    match askingOf o with
    | .error message => misuse name 1 message
    | .ok asking =>
      let recursive := o.has 'r' || o.has 'R'
      let manner : RemovalManner := ⟨recursive, o.has 'd', asking = some 'i', o.has 'v'⟩
      if paths.isEmpty then
        if o.has 'f' then return 0 else misuse name 1 (octets "missing operand")
      else
        let count := paths.length
        if !(← agrees (asking = some 'I' && (3 < count || recursive))
            (name ++ octets ": remove " ++ Decimal.natText count
              ++ octets (if count = 1 then " argument" else " arguments")
              ++ octets (if recursive then " recursively? " else "? "))) then
          return 0
        else
          eachOperand (fun path => do
            match ← nodeHere? path with
            | .error e =>
              if o.has 'f' && (e = .missing || e = .notDirectory) then return 0
              else complainTried name "cannot remove" path e
            | .ok n =>
              let last := lastName path
              let isTree ← ofFiles fun fs _ => fs.isDirectory n
              if recursive && n = FileSystem.root && !o.has 'N' && last != ['.', '.'] then
                let same := if path = ['/'] then [] else octets " (same as '/')"
                complain 1 (name ++ octets ": it is dangerous to operate recursively on "
                  ++ named path ++ same ++ ['\n'] ++ name
                  ++ octets ": use --no-preserve-root to override this failsafe")
              else if isTree && recursive && (last = ['.'] || last = ['.', '.']) then
                complain 1 (name ++ octets ": refusing to remove '.' or '..' directory: skipping "
                  ++ named path)
              else return (← removeAll name manner FileSystem.pathLimit path).2) paths

end MutationTesting.Tool
