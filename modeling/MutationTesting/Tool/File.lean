import MutationTesting.Shell.Formula
import MutationTesting.Tool.Date
/-!
# Making files

The programs that make files and directories, and those that change what may be done with them:
`touch`, `mkdir`, `mkfifo`, `truncate`, `mktemp`, `chmod`. A complaint about a file does not keep
the others from being dealt with.

## Main definitions

* `lastName`, `withoutLastName`, `inside` — paths and their last names
* `formName`, `modeLetters` — what a node is, in words and letters
* `modeFunction?` — what a text makes of a mode
-/

namespace MutationTesting.Tool

open Act

/-! ### Paths -/

/-- A path without slashes at its end. -/
def withoutSlashes (path : Octets) : Octets :=
  let cut := (path.reverse.dropWhile (· = '/')).reverse
  if cut.isEmpty && !path.isEmpty then ['/'] else cut

/-- The last name of a path. -/
def lastName (path : Octets) : Octets :=
  let path := withoutSlashes path
  if path = ['/'] then path else ((splitAt '/' path).getLast?).getD []

/-- A path without its last name. -/
def withoutLastName (path : Octets) : Octets :=
  let path := withoutSlashes path
  if path = ['/'] then path
  else if !path.contains '/' then ['.']
  else withoutSlashes (path.take (path.length - (lastName path).length))

/-- The path of a name in a directory. -/
def inside (directory name : Octets) : Octets :=
  if directory.getLast? = some '/' then directory ++ name else directory ++ '/' :: name

/-- A complaint with what was tried, a path between quotes and the reason. -/
def complainTried (name : Octets) (tried : String) (path : Octets) (e : FileError)
    (writing : Octets → Octets := named) : Act Nat :=
  complain 1 (name ++ octets ": " ++ octets tried ++ [' '] ++ writing path ++ octets ": "
    ++ octets e.message)

/-- A path leads to a directory. -/
def isDirectory (path : Octets) : Act Bool := do
  ofFiles fun fs here => fs.leadsToDirectory here path

/-- The node at a path, a link at its end not followed. -/
def nodeHere? (path : Octets) : Act (Except FileError Nat) := ofFiles fun fs here =>
  fs.find .stay here path

/-- The node that a path leads to. -/
def nodeBehind? (path : Octets) : Act (Except FileError Nat) := ofFiles fun fs here =>
  fs.find .follow here path

/-! ### What a node is -/

/-- The letter of what a node is. -/
def formLetter : NodeForm → Char
  | .file _ => '-'
  | .directory _ _ => 'd'
  | .link _ => 'l'
  | .pipe => 'p'
  | .device _ => 'c'

/-- What a node is, in words. -/
def formName : NodeForm → String
  | .file [] => "regular empty file"
  | .file _ => "regular file"
  | .directory _ _ => "directory"
  | .link _ => "symbolic link"
  | .pipe => "fifo"
  | .device _ => "character special file"

/-- A mode in nine letters. -/
def modeLetters (mode : Nat) : Octets :=
  let bit (n : Nat) : Bool := mode >>> n &&& 1 = 1
  let third (base : Nat) (special : Bool) (on off : Char) : Octets :=
    [if bit (base + 2) then 'r' else '-', if bit (base + 1) then 'w' else '-',
      if special then (if bit base then on else off) else if bit base then 'x' else '-']
  third 6 (bit 11) 's' 'S' ++ third 3 (bit 10) 's' 'S' ++ third 0 (bit 9) 't' 'T'

/-! ### Modes -/

/-- The mode that a change makes of a mode: who is concerned, what is done, and with which
letters. -/
def changeMode (isDirectory : Bool) (mask : Nat) (who : Octets) (op : Char) (letters : Octets)
    (mode : Nat) : Nat :=
  let everyone := who.isEmpty || who.contains 'a'
  let concerned (c : Char) : Bool := everyone || who.contains c
  let whole := (if concerned 'u' then 0o4700 else 0) ||| (if concerned 'g' then 0o2070 else 0)
    ||| (if concerned 'o' then 0o1007 else 0)
  let bits (c : Char) : Nat :=
    match c with
    | 'r' => 0o444
    | 'w' => 0o222
    | 'x' => 0o111
    | 'X' => if isDirectory || mode &&& 0o111 != 0 then 0o111 else 0
    | 's' => 0o6000
    | 't' => 0o1000
    | 'u' => (mode >>> 6 &&& 7) * 0o111
    | 'g' => (mode >>> 3 &&& 7) * 0o111
    | 'o' => (mode &&& 7) * 0o111
    | _ => 0
  let wanted := (letters.map bits).foldl (· ||| ·) 0 &&& whole
  let wanted := if who.isEmpty then wanted &&& (0o7777 ^^^ mask) else wanted
  match op with
  | '+' => mode ||| wanted
  | '-' => mode &&& (0o7777 ^^^ wanted)
  | _ =>
    let kept := if isDirectory then 0o6000 else 0
    (mode &&& (0o7777 ^^^ (whole &&& (0o7777 ^^^ kept)))) ||| wanted

/-- The changes after those who are concerned. -/
def modeChanges? : Nat → Octets → Option (List (Char × Octets))
  | 0, _ => none
  | _, [] => some []
  | n + 1, op :: rest =>
    if op = '+' || op = '-' || op = '=' then do
      let letters := rest.takeWhile fun c => "rwxXstugo".toList.contains c
      return (op, letters) :: (← modeChanges? n (rest.drop letters.length))
    else none

/-- The function on modes that a text means. -/
def modeFunction? (mask : Nat) (text : Octets) : Option (Bool → Nat → Nat) :=
  match Shell.digitsIn? 8 text with
  | some new =>
    -- A directory keeps the bits above the nine, unless all digits are given.
    if new < 0o10000 then some fun isDirectory mode =>
      if isDirectory && text.length < 5 then new ||| (mode &&& 0o6000) else new
    else none
  | none => do
    let clauses ← (splitAt ',' text).mapM fun clause => do
      let who := clause.takeWhile fun c => "ugoa".toList.contains c
      let changes ← modeChanges? (clause.length + 1) (clause.drop who.length)
      if changes.isEmpty then none else some (who, changes)
    return fun isDirectory mode =>
      clauses.foldl (fun mode (who, changes) =>
        changes.foldl (fun mode (op, letters) =>
          changeMode isDirectory mask who op letters mode) mode) mode

/-- The mask of the process at work. -/
def ownMask : Act Nat := ofKernel fun k => (k.self?.map (·.mask)).getD 0o022

/-- A mode in digits and in letters. -/
def shownMode (mode : Nat) : Octets :=
  let digits := Nat.toDigits 8 mode
  List.replicate (4 - digits.length) '0' ++ digits ++ octets " (" ++ modeLetters mode ++ [')']

/-- Changes the mode of a node that a path leads to and reports it, if that is wanted. If a mode
that looks like options does not mean the same for every mask, it is compared with what it means
without one. -/
def adjustMode (name : Octets) (o : Options) (f : Bool → Nat → Nat)
    (expected : Option (Bool → Nat → Nat)) (path : Octets) (n : Nat) : Act Nat := do
  let k ← look
  match k.files.node? n with
  | none => return 1
  | some node =>
    match node.form with
    | .link _ => return 0
    | _ =>
      let isTree := k.files.isDirectory n
      let old := node.mode
      let new := f isTree old
      change fun k => { k with files := k.files.setMode n new }
      if new != old then
        if o.has 'v' || o.has 'c' then
          sayLine (octets "mode of " ++ named path ++ octets " changed from " ++ shownMode old
            ++ octets " to " ++ shownMode new)
      else if o.has 'v' then
        sayLine (octets "mode of " ++ named path ++ octets " retained as " ++ shownMode new)
      match expected with
      | none => return 0
      | some g =>
        let wanted := g isTree old
        if new &&& (0o7777 ^^^ wanted) = 0 then return 0
        else
          complain 1 (name ++ octets ": " ++ path ++ octets ": new permissions are "
            ++ modeLetters new ++ octets ", not " ++ modeLetters wanted)

/-- Changes what may be done with files. -/
def chmod : Program := fun name args => do
  -- A mode may look like options.
  let (args, first) := match args with
    | ('-' :: c :: cs) :: rest =>
      if "rwxXstugoa=,".toList.contains c then (rest, some ('-' :: c :: cs)) else (args, none)
    | _ => (args, none)
  withOptions name [flag 'R' "recursive", flag 'v' "verbose", flag 'f' "silent",
      flag 'c' "changes", longFlag 'f' "quiet", longValued 'F' "reference"] 1 args
    fun o operands => do
      let k ← look
      let mask ← ownMask
      let (mode?, paths) := match first, o.last? 'F' with
        | some m, _ => (some m, operands)
        | _, some reference => (some reference, operands)
        | none, none => (operands.head?, operands.drop 1)
      match mode?, paths with
      | none, _ => misuse name 1 (octets "missing operand")
      | some m, [] => misuse name 1 (octets "missing operand after " ++ quoted m)
      | some m, paths =>
        let wanted : Except (Act Nat) (Bool → Nat → Nat) :=
          if o.has 'F' then
            match k.files.find .follow k.here m with
            | .ok n => .ok fun _ _ => ((k.files.node? n).map (·.mode)).getD 0
            | .error e => .error (complainTried name "failed to get attributes of" m e)
          else
            match modeFunction? mask m with
            | some f => .ok f
            | none => .error (misuse name 1 (octets "invalid mode: " ++ quoted m))
        match wanted with
        | .error refusal => refusal
        | .ok f =>
          let expected := first.bind (modeFunction? 0)
          eachOperand (fun path => do
            match ← nodeBehind? path with
            | .error e =>
              if !o.has 'f' then
                if (← nodeHere? path).isOk && e = .missing then
                  let _ ← complain 1
                    (name ++ octets ": cannot operate on dangling symlink " ++ named path)
                else
                  let _ ← complainTried name "cannot access" path e
              if o.has 'v' then sayLine (named path ++ octets " could not be accessed")
              return 1
            | .ok n =>
              let code ← adjustMode name o f expected path n
              if o.has 'R' then
                let below ← ofFiles fun fs _ => fs.everythingBelow n
                let codes ← below.mapM fun (way, m) =>
                  adjustMode name o f expected (inside path (List.intercalate ['/'] way)) m
                return codes.foldl max code
              else return code) paths

/-- Changes to whom files belong, which is always the same. -/
def chown : Program := fun name args =>
  withOptions name [flag 'R' "recursive", flag 'h', flag 'v', flag 'f' "silent", flag 'c'] 1 args
    fun o operands =>
      match operands with
      | [] | [_] => misuse name 1 (octets "missing operand")
      | _ :: paths =>
        eachOperand (fun path => do
          match ← nodeBehind? path with
          | .ok _ => return 0
          | .error e => if o.has 'f' then return 1 else complainTried name "cannot access" path e)
          paths

/-! ### Making -/

/-- Takes note that a node was changed, now or at a given time. -/
def refresh (n : Nat) (moment : Option Moment) : Act Unit :=
  change fun k =>
    match k.files.form? n, moment with
    | some _, some moment => { k with files := k.files.setTime n (moment - firstMoment) }
    | some form, none => { k with files := k.files.setForm n form }
    | none, _ => k

/-- The time that options say files are to bear, if they do; or what refuses them. -/
def timeAsked (name : Octets) (o : Options) : Act (Except (Act Nat) (Option Moment)) := do
  let now ← momentNow
  let refuse (text : Octets) : Act Nat :=
    complain 1 (name ++ octets ": invalid date format " ++ quoted text)
  let reference : Except (Act Nat) (Option Moment) ← match o.last? 'r' with
    | none => pure (.ok none)
    | some path => do
      match ← nodeBehind? path with
      | .ok n => pure (.ok (((← files).node? n).map nodeMoment))
      | .error e => pure (.error (complainTried name "failed to get attributes of" path e))
  match reference, o.last? 'd', o.last? 't' with
  | .error refusal, _, _ => return .error refusal
  | .ok base, some text, _ =>
    match momentOf? (base.getD now) text with
    | some moment => return .ok (some moment)
    | none => return .error (refuse text)
  | .ok none, none, some text =>
    match stampOf? now text with
    | some moment => return .ok (some moment)
    | none => return .error (refuse text)
  | .ok base, none, _ => return .ok base

/-- Makes files that are not there, and takes note of those that are. -/
def touch : Program := fun name args =>
  withOptions name [flag 'c' "no-create", flag 'a', flag 'm', valued 'd' "date", valued 't',
      valued 'r' "reference", flag 'h' "no-dereference", flag 'f', longValued 'T' "time"] 1 args
      fun o paths => do
    match ← timeAsked name o with
    | .error refusal => refusal
    | .ok moment =>
      if paths.isEmpty then misuse name 1 (octets "missing file operand")
      else
        -- The time of the latest reading is not known of a file.
        let onlyRead := (o.has 'a' || o.last? 'T' = some (octets "atime")
          || o.last? 'T' = some (octets "access")) && !o.has 'm'
        eachOperand (fun path => do
          match ← if o.has 'h' then nodeHere? path else nodeBehind? path with
          | .ok n =>
            if !onlyRead then refresh n moment
            return 0
          | .error e =>
            if (o.has 'c' || o.has 'h') && e = .missing then
              if o.has 'c' then return 0 else complainTried name "setting times of" path e
            else
              let mode ← modeFor 0o666
              match ← onFiles fun fs here => (fs.create here path mode).map (·.2) with
              | .ok () =>
                match ← nodeBehind? path with
                | .ok n =>
                  if moment.isSome && !onlyRead then refresh n moment
                  return 0
                | .error _ => return 0
              | .error e =>
                let e := if e = .isDirectory && path.getLast? = some '/' then .missing else e
                complainTried name
                  (if path.getLast? = some '/' then "setting times of" else "cannot touch") path e)
          paths

/-- Makes the directories that a path leads through and the one that it leads to, where they are not
there, and reports each of them if so said. -/
def makeAll (name : Octets) (verbose : Bool) (mode : Nat) : List Octets → Act Nat
  | [] => return 0
  | stage :: rest => do
    if ← isDirectory stage then makeAll name verbose mode rest
    else
      match ← onFiles fun fs here => fs.makeDirectory here stage mode with
      | .ok () =>
        if verbose then sayLine (name ++ octets ": created directory " ++ named stage)
        makeAll name verbose mode rest
      | .error e =>
        complainTried name "cannot create directory" stage
          (if e = .taken && !rest.isEmpty then .notDirectory else e) quoted

/-- The mode of a directory that is made with a mode. If this has unusual bits it is made such that
only its owner can write, and its mode is changed only if it lacks what was asked for. -/
def newTreeMode (f : Bool → Nat → Nat) : Nat :=
  let mode := f true 0o777
  let asked := 0o7777 ^^^ (f true 0 ^^^ f true 0o7777)
  let first := if asked &&& 0o6000 != 0 || mode &&& 0o1000 != 0 then mode &&& 0o1755 else mode
  if (first ^^^ mode) &&& asked != 0 then mode else first

/-- Makes directories. -/
def mkdir : Program := fun name args =>
  withOptions name [flag 'p' "parents", valued 'm' "mode", flag 'v' "verbose", flag 'Z'] 1 args
    fun o paths => do
      if paths.isEmpty then misuse name 1 (octets "missing operand")
      else
        let mask ← ownMask
        let special? := (o.last? 'm').map fun m => (modeFunction? mask m).map newTreeMode
        match special? with
        | some none =>
          complain 1 (name ++ octets ": invalid mode " ++ quoted ((o.last? 'm').getD []))
        | _ =>
          let mode ← modeFor 0o777
          eachOperand (fun path => do
            let isNew := !(← nodeBehind? path).isOk
            let code ←
              if o.has 'p' && !path.isEmpty then
                makeAll name (o.has 'v') mode (FileSystem.stages path)
              else do
                match ← onFiles fun fs here => fs.makeDirectory here path mode with
                | .ok () =>
                  if o.has 'v' then sayLine (name ++ octets ": created directory " ++ named path)
                  pure 0
                | .error e => complainTried name "cannot create directory" path e quoted
            match ← nodeBehind? path, special?.join with
            | .ok n, some mode =>
              if code = 0 && isNew then change fun k => { k with files := k.files.setMode n mode }
              return code
            | _, _ => return code) paths

/-- Makes pipes that have names. -/
def mkfifo : Program := fun name args =>
  withOptions name [valued 'm' "mode", flag 'Z'] 1 args fun o paths => do
    if paths.isEmpty then return (← misuse name 1 (octets "missing operand"))
    let mask ← ownMask
    let mode? : Option Nat := match o.last? 'm' with
      | some text => (modeFunction? mask text).map fun f => f false 0o666
      | none => some (0o666 &&& (0o7777 ^^^ mask))
    match mode? with
    | none => complain 1 (name ++ octets ": invalid mode")
    | some mode =>
      if 0o777 < mode then
        return (← complain 1 (name ++ octets ": mode must specify only file permission bits"))
      eachOperand (fun path => do
        match ← onFiles fun fs here => (fs.make here path .pipe mode).map (·.2) with
        | .ok () => return 0
        | .error e => complainTried name "cannot create fifo" path e) paths

/-- What a size means for a file that has one. -/
def newSize? (text : Octets) : Option (Nat → Nat) :=
  match text.dropWhile (· = ' ') with
  | '+' :: rest => (sizeOf? rest).map fun n => (· + n)
  | '-' :: rest => (sizeOf? rest).map fun n => (· - n)
  | '<' :: rest => (sizeOf? rest).map fun n => min n
  | '>' :: rest => (sizeOf? rest).map fun n => max n
  | '/' :: rest => (sizeOf? rest).map fun n size => size / n * n
  | '%' :: rest => (sizeOf? rest).map fun n size => (size + n - 1) / n * n
  | text => (sizeOf? text).map fun n _ => n

/-- Cuts files, or fills them up with zeros. -/
def truncate : Program := fun name args =>
  withOptions name [valued 's' "size", flag 'c' "no-create", valued 'r' "reference",
      flag 'o' "io-blocks"] 1 args
    fun o paths => do
      let text? := o.last? 's'
      let found : Except Octets (Nat → Nat) := match text? with
        | none => .ok fun n => n
        | some text =>
          match newSize? text with
          | none => .error (octets "Invalid number: " ++ quoted text)
          | some f =>
            if ['%', '/'].any (text.head? = some ·) && sizeOf? (text.drop 1) = some 0 then
              .error (octets "division by zero")
            else .ok f
      match found with
      | .error message => complain 1 (name ++ octets ": " ++ message)
      | .ok f =>
        if text?.isNone && !o.has 'r' then
          misuse name 1 (octets "you must specify either '--size' or '--reference'")
        else if paths.isEmpty then misuse name 1 (octets "missing file operand")
        else
          let reference ← ofFiles fun fs here => (o.last? 'r').map fun path =>
            (path, (fs.read here path).map (·.length))
          match reference with
          | some (path, .error e) => complainTried name "cannot stat" path e
          | _ =>
            let base? := match reference with
              | some (_, .ok size) => some size
              | _ => none
            eachOperand (fun path => do
              let mode ← modeFor 0o666
              if o.has 'c' && !(← nodeBehind? path).isOk then return 0
              match ← onFiles fun fs here => do
                let (n, fs) ← fs.create here path mode
                let content := (fs.content n).toOption.getD []
                let size := f (base?.getD content.length)
                return fs.setContent n
                  (content.take size ++ List.replicate (size - content.length) 0) with
              | .ok () => return 0
              | .error e =>
                complain 1 (name ++ octets ": cannot open " ++ named path
                  ++ octets " for writing: " ++ octets e.message)) paths

/-- A name with other characters in the place of its last ones. -/
def freshName (template : Octets) (seed : Nat) : Octets :=
  let marks := (template.reverse.takeWhile (· = 'X')).length
  let letters := (Kernel.noise (seed * 7919 + 17) marks).map fun b =>
    Char.ofNat (97 + b.toNat % 26)
  template.take (template.length - marks) ++ letters

/-- Makes a file or directory with a name that is not taken. -/
def mktemp : Program := fun name args =>
  withOptions name [flag 'd' "directory", flag 'u' "dry-run", flag 'q' "quiet", flag 't',
      valued 'p' "tmpdir", longValued 's' "suffix"] 1 args fun o operands => do
    let usual := ((← variableValue? "TMPDIR").getD (octets "/tmp"))
    let template := operands.headD (octets "tmp.XXXXXXXXXX")
    -- What stands after the last mark is an ending too.
    let ending := match o.last? 's' with
      | some ending => ending
      | none => (template.reverse.takeWhile (· != 'X')).reverse
    let stem := if o.has 's' then template else template.take (template.length - ending.length)
    if o.has 's' && stem.getLast? != some 'X' then
      complain 1 (name ++ octets ": with --suffix, template " ++ quoted template
        ++ octets " must end in X")
    else if 3 ≤ (stem.reverse.takeWhile (· = 'X')).length then
      let place (t : Octets) : Octets :=
        if operands.isEmpty || o.has 't' || o.has 'p' then inside ((o.last? 'p').getD usual) t
        else t
      let placed := place (stem ++ ending)
      let path ← access fun k =>
        (freshName (place stem) k.issued ++ ending, { k with issued := k.issued + 1 })
      let result ← onFiles fun fs here =>
        if o.has 'u' then .ok fs
        else if o.has 'd' then fs.makeDirectory here path 0o700
        else (fs.make here path (.file []) 0o600).map (·.2)
      match result with
      | .ok () =>
        sayLine path
        return 0
      | .error e =>
        complain 1 (name ++ octets ": failed to create " ++ octets
          (if o.has 'd' then "directory" else "file") ++ octets " via template " ++ quoted placed
          ++ octets ": " ++ octets e.message)
    else complain 1 (name ++ octets ": too few X's in template " ++ quoted template)

end MutationTesting.Tool
