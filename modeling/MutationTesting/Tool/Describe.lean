import MutationTesting.Tool.File
/-!
# Describing files

The programs that say what there is: `stat`, `readlink`, `realpath`, and those that take paths
apart: `basename`, `dirname`.
-/

namespace MutationTesting.Tool

open Act

/-! ### What is known of a node -/

/-- The size of a node. -/
def nodeSize : NodeForm → Nat
  | .file content => content.length
  | .directory _ _ => 4096
  | .link target => target.length
  | _ => 0

/-- How many kilobytes are reserved for a node. -/
def nodeBlocks : NodeForm → Nat
  | .file content => (content.length + 4095) / 4096 * 4
  | .directory _ _ => 4
  | _ => 0

/-- How many names a node has. -/
def nameCount (fs : FileSystem) (n : Nat) : Nat :=
  if fs.isDirectory n then
    2 + ((fs.entries n).filter fun e => fs.isDirectory e.2).length
  else
    (fs.nodes.map fun (_, node) =>
      match node.form with
      | .directory _ entries => (entries.filter (·.2 = n)).length
      | _ => 0).foldl (· + ·) 0

/-- Half a year, in microseconds. -/
def halfYear : Nat := 15778476 * secondLength

/-- The time of a node in a style: usually what is not of the last half year is shown with the year,
and all else with the time of day. -/
def listedTime (style : Option Octets) (now : Moment) (node : Node) : Octets :=
  let m := nodeMoment node
  let isRecent := now - halfYear < m && m ≤ now + secondLength
  let usual := octets (if isRecent then "%b %e %H:%M" else "%b %e  %Y")
  let format := match style with
    | some ('+' :: formats) =>
      -- Two formats can stand in two lines, the second one for what is recent.
      match splitAt '\n' formats with
      | [old, recent] => if isRecent then recent else old
      | _ => formats
    | some style =>
      match String.ofList style with
      | "full-iso" => octets "%F %T.%N %z"
      | "long-iso" => octets "%F %R"
      | "iso" => octets (if isRecent then "%m-%d %R" else "%F ")
      | _ => usual
    | none => usual
  m.text format

/-! ### Single files -/

/-- What a letter in a format means for a node. -/
def statField (fs : FileSystem) (path : Octets) (n : Nat) (node : Node) : Char → Octets
  | 'a' => Nat.toDigits 8 node.mode
  | 'A' => formLetter node.form :: modeLetters node.mode
  | 'b' => Decimal.natText (nodeBlocks node.form * 2)
  | 'B' => octets "512"
  | 'd' => octets "1"
  | 'F' => octets (formName node.form)
  | 'f' =>
    let kind := match node.form with
      | .file _ => 0o100000
      | .directory _ _ => 0o040000
      | .link _ => 0o120000
      | .pipe => 0o010000
      | .device _ => 0o020000
    Decimal.hexText (kind + node.mode)
  | 'g' | 'u' => ['0']
  | 'G' | 'U' => octets "root"
  | 'h' => Decimal.natText (nameCount fs n)
  | 'i' => Decimal.natText n
  | 'n' => path
  | 'M' =>
    match node.form with
    | .link target => path ++ octets " -> " ++ target
    | _ => path
  | 'N' =>
    match node.form with
    | .link target => named path ++ octets " -> " ++ named target
    | _ => named path
  | 'o' => octets "4096"
  | 's' => Decimal.natText (nodeSize node.form)
  | 't' | 'T' => ['0']
  | 'X' | 'Y' | 'Z' => (nodeMoment node).text (octets "%s")
  | 'W' => ['0']
  | 'x' | 'y' | 'z' => (nodeMoment node).text (octets "%F %T.%N %z")
  | 'w' => ['-']
  | _ => ['?']

/-- A format with what is known of a node in the places of its letters. -/
def statText (fs : FileSystem) (path : Octets) (n : Nat) (node : Node) : Octets → Octets
  | '%' :: '%' :: rest => '%' :: statText fs path n node rest
  | '%' :: c :: rest => statField fs path n node c ++ statText fs path n node rest
  | c :: rest => c :: statText fs path n node rest
  | [] => []

/-- What is known of a node at length. -/
def statFormat : Octets :=
  octets ("  File: %M\n  Size: %s\tBlocks: %b\tIO Block: %o\t%F\nDevice: %d\tInode: %i\tLinks: %h\n"
    ++ "Access: (0%a/%A)  Uid: (%u/%U)   Gid: (%g/%G)\nAccess: %x\nModify: %y\nChange: %z\n"
    ++ " Birth: %w\n")

/-- Says what is known of files. -/
def stat : Program := fun name args =>
  withOptions name [valued 'c' "format", longValued 'p' "printf", flag 'L' "dereference",
      flag 't' "terse", flag 'f' "file-system"] 1 args fun o paths =>
    if paths.isEmpty then misuse name 1 (octets "missing operand")
    else
      eachOperand (fun path => do
        let k ← look
        match k.files.find (if o.has 'L' then .follow else .stay) k.here path with
        | .error e => complainTried name "cannot statx" path e
        | .ok n =>
          match k.files.node? n with
          | none => return 1
          | some node =>
            match o.latest? ['c', 'p'] with
            | some 'p' =>
              sayAll (unescapeFormat (statText k.files path n node ((o.last? 'p').getD [])))
            | some _ => sayAll (statText k.files path n node ((o.last? 'c').getD []) ++ ['\n'])
            | none => sayAll (statText k.files path n node statFormat)) paths
where
  /-- A format with the characters that backslashes stand for. -/
  unescapeFormat : Octets → Octets
    | '\\' :: 'n' :: rest => '\n' :: unescapeFormat rest
    | '\\' :: 't' :: rest => '\t' :: unescapeFormat rest
    | '\\' :: '\\' :: rest => '\\' :: unescapeFormat rest
    | c :: rest => c :: unescapeFormat rest
    | [] => []

/-- The path without links that leads to the same place; the last name, or all of them, need not be
there. -/
def truePath? (fs : FileSystem) (here : Nat) (all some' : Bool) (path : Octets) : Option Octets :=
  match fs.spot .follow here path with
  | .ok s =>
    match s.node, s.name with
    | none, none => none
    | some n, none => fs.pathTo? n
    | found, some name =>
      if found.isNone && !some' then none
      else
        match found with
        | some n =>
          if fs.isDirectory n then fs.pathTo? n
          else (fs.pathTo? s.directory).map (inside · name)
        | none => (fs.pathTo? s.directory).map (inside · name)
  | .error _ =>
    if all then
      let start := if path.head? = some '/' then some ['/'] else fs.pathTo? here
      start.map fun start =>
        (FileSystem.names path).foldl (fun p name =>
          if name = ['.', '.'] then withoutLastName p else inside p name) start
    else none

/-- Says what links stand for. -/
def readlink : Program := fun name args =>
  withOptions name [flag 'f' "canonicalize", flag 'e' "canonicalize-existing",
      flag 'm' "canonicalize-missing", flag 'n' "no-newline", flag 'q' "quiet", flag 's' "silent",
      flag 'v' "verbose", flag 'z' "zero"] 1 args fun o paths => do
    if paths.isEmpty then misuse name 1 (octets "missing operand")
    else
      let isAlone := paths.length = 1
      if o.has 'n' && !isAlone then
        put 2 (name ++ octets ": ignoring --no-newline with multiple arguments\n")
      let ending := if o.has 'n' && isAlone then [] else if o.has 'z' then ['\x00'] else ['\n']
      eachOperand (fun path => do
        let k ← look
        let found :=
          if o.has 'f' || o.has 'e' || o.has 'm' then
            truePath? k.files k.here (o.has 'm') (!o.has 'e') path
          else
            match k.files.nodeAt? .stay k.here path with
            | some ⟨.link target, _, _⟩ => some target
            | _ => none
        let isCanonical := o.has 'f' || o.has 'e' || o.has 'm'
        match found with
        | some text => sayAll (text ++ ending)
        | none =>
          let e := match k.files.find (if isCanonical then .follow else .stay) k.here path with
            | .error e => e
            | .ok _ => if isCanonical then .missing else .invalid
          if o.latest? ['q', 's', 'v'] = some 'v' then complainOf name (plain path) e
          else return 1) paths

/-- A path from a directory without names that stand for other ones; links stay. -/
def plainPath (start path : Octets) : Octets :=
  (FileSystem.names path).foldl (fun p name =>
    if name = ['.', '.'] then withoutLastName p
    else if name = ['.'] then p
    else inside p name) (if path.head? = some '/' then ['/'] else start)

/-- The way from a directory to a path, both without links. -/
def wayFrom (start path : Octets) : Octets :=
  let rec go : List Octets → List Octets → List Octets
    | a :: as, b :: bs =>
      if a = b then go as bs else (a :: as).map (fun _ => ['.', '.']) ++ b :: bs
    | as, bs => as.map (fun _ => ['.', '.']) ++ bs
  match go (FileSystem.names start) (FileSystem.names path) with
  | [] => ['.']
  | names => List.intercalate ['/'] names

/-- Says where paths lead. -/
def realpath : Program := fun name args =>
  withOptions name [flag 'e' "canonicalize-existing", flag 'm' "canonicalize-missing",
      flag 's' "strip", longFlag 's' "no-symlinks", flag 'q' "quiet", flag 'L' "logical",
      flag 'P' "physical", flag 'z' "zero", longValued 'r' "relative-to",
      longValued 'b' "relative-base"] 1 args fun o paths =>
    if paths.isEmpty then misuse name 1 (octets "missing operand")
    else
      eachOperand (fun path => do
        let k ← look
        let place (path : Octets) : Option Octets :=
          if o.has 's' then
            (k.files.pathTo? k.here).map fun start => plainPath start path
          else truePath? k.files k.here (o.has 'm') (!o.has 'e') path
        match place path with
        | some text =>
          let base? := (o.last? 'b').bind place
          let isBelow (base : Octets) : Bool := (FileSystem.names base).isPrefixOf
            (FileSystem.names text)
          let start? := if base?.all isBelow then
              ((o.last? 'r').bind place).orElse fun _ => base?
            else none
          sayAll ((match start? with
            | some start => wayFrom start text
            | none => text) ++ [if o.has 'z' then '\x00' else '\n'])
        | none =>
          if o.has 'q' then return 1
          else
            complainOf name (plain path) .missing)
        paths

/-- A name without an ending, unless it is nothing else. -/
def withoutEnding (ending name : Octets) : Octets :=
  if ending.reverse.isPrefixOf name.reverse && ending.length < name.length then
    name.take (name.length - ending.length)
  else name

/-- Says the last names of paths. -/
def basename : Program := fun name args =>
  match readOptions [flag 'a' "multiple", valued 's' "suffix", flag 'z' "zero"] true args with
  | .error message => misuse name 1 message
  | .ok (o, operands) =>
    let line (ending path : Octets) : Octets := withoutEnding ending (lastName path) ++ ['\n']
    match operands with
    | [] => misuse name 1 (octets "missing operand")
    | path :: rest =>
      if o.has 'a' || o.has 's' then
        sayAll ((path :: rest).flatMap (line ((o.last? 's').getD [])))
      else
        match rest with
        | [] => sayAll (line [] path)
        | [ending] => sayAll (line ending path)
        | _ :: extra :: _ => misuse name 1 (octets "extra operand " ++ quoted extra)

/-- Says paths without their last names. -/
def dirname : Program := fun name args =>
  withOptions name [flag 'z' "zero"] 1 args fun _ paths =>
    if paths.isEmpty then misuse name 1 (octets "missing operand")
    else sayAll (ofLines (paths.map withoutLastName))

end MutationTesting.Tool
