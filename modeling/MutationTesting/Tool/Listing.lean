import MutationTesting.Text.Glob
import MutationTesting.Tool.Describe
import MutationTesting.Tool.Sort
/-!
# Listing directories

The program `ls`: the names of what there is, with what is known of it if so said. Names are sorted,
and stand in lines of their own, in columns, in rows or between commas.

## Main definitions

* `ListForm` — what is listed, and how
* `ListForm.ofOptions`
* `ListForm.layOut` — the text for things that are listed
* `ls`
-/

namespace MutationTesting.Tool

open Act

/-! ### What is asked for -/

/-- How names are laid out. -/
inductive Layout where
  | single
  /-- With all that is known. -/
  | long
  | columns
  | rows
  | commas
  deriving DecidableEq

/-- By what names are sorted. -/
inductive ListOrder where
  | unsorted
  | name
  | size
  | time
  | version
  | extension
  | width
  deriving DecidableEq

/-- Which kinds of things are marked behind their names. -/
inductive MarkStyle where
  | unmarked
  /-- Directories. -/
  | slash
  /-- Everything but programs. -/
  | fileType
  | classify
  deriving DecidableEq

/-- Which hidden names are listed: those that begin with a point. -/
inductive Reach where
  | visible
  /-- All but those of the directory itself and of the one above. -/
  | almost
  | all
  deriving DecidableEq

/-- How names are quoted. -/
inductive QuoteStyle where
  | literal
  | shell
  | shellAlways
  | shellEscape
  | shellEscapeAlways
  | c
  | cMaybe
  | escape
  | locale
  | clocale
  deriving DecidableEq

namespace QuoteStyle

/-- The styles by their names. -/
def table : List (String × QuoteStyle) :=
  [("literal", literal), ("shell", shell), ("shell-always", shellAlways),
    ("shell-escape", shellEscape), ("shell-escape-always", shellEscapeAlways), ("c", c),
    ("c-maybe", cMaybe), ("escape", escape), ("locale", locale), ("clocale", clocale)]

/-- A name in a style. -/
def write (style : QuoteStyle) (name : Octets) : Octets :=
  let doubled := '"' :: Quote.escaped ['"', '\\'] name ++ ['"']
  let single :=
    if name.contains '\'' && name.all Quote.isHarmless then '"' :: name ++ ['"']
    else
      let body := name.flatMap fun c => if c = '\'' then ['\'', '\\', '\'', '\''] else [c]
      '\'' :: body ++ ['\'']
  match style with
  | .literal => name
  | .shell => if Quote.isSpecial name then single else name
  | .shellAlways => single
  | .shellEscape => Quote.inShellIfNeeded name
  | .shellEscapeAlways => Quote.inShell name
  | .c | .clocale => doubled
  | .cMaybe => if Quote.escaped ['"', '\\'] name = name then name else doubled
  | .escape => Quote.escaped ['\\', ' '] name
  | .locale => Quote.inMessage name

/-- Some names stand between quotes and others do not, so that these begin a column later. -/
def isUneven (style : QuoteStyle) : Bool :=
  style = .shell || style = .shellEscape || style = .cMaybe

end QuoteStyle

/-- What is listed, and how. -/
structure ListForm where
  reach : Reach := .visible
  layout : Layout := .single
  order : Option ListOrder := none
  /-- Another time than that of the last change was asked for. -/
  isTimed : Bool := false
  reversed : Bool := false
  directoriesFirst : Bool := false
  marks : MarkStyle := .unmarked
  owner : Bool := true
  group : Bool := true
  author : Bool := false
  numeric : Bool := false
  /-- Sizes are shown with units that are powers of this. -/
  unit : Option Nat := none
  inodes : Bool := false
  blocks : Bool := false
  /-- Security labels are shown, of which there are none. -/
  labels : Bool := false
  timeStyle : Option Octets := none
  quoting : QuoteStyle := .literal
  hidesControls : Bool := false
  width : Nat := 80
  tab : Nat := 8
  /-- Patterns of names that are not listed, the second ones unless hidden names are. -/
  ignored : List Octets := []
  hidden : List Octets := []
  /-- Directories are listed as such. -/
  asSuch : Bool := false
  recursive : Bool := false
  /-- What links lead to is listed in their places: everywhere, or where they were named. -/
  follows : Bool := false
  followsNamed : Bool := false
  ending : Char := '\n'

namespace ListForm

/-- The options of listing. -/
def options : List OptionForm :=
  [flag 'a' "all", flag 'A' "almost-all", flag 'l', flag '1', flag 'd' "directory",
    flag 'R' "recursive", flag 't', flag 'r' "reverse", flag 'S', flag 'i' "inode",
    flag 'h' "human-readable", longFlag '0' "si", flag 'n' "numeric-uid-gid", flag 'g', flag 'o',
    flag 'G' "no-group", flag 'F', longExtended 'F' "classify", flag 'p',
    longFlag '2' "file-type", longValued '3' "indicator-style", flag 's' "size", flag 'm', flag 'x',
    flag 'C', longValued '4' "format", flag 'U', flag 'f', flag 'q' "hide-control-chars",
    longFlag '5' "show-control-chars", flag 'b' "escape", flag 'N' "literal",
    flag 'Q' "quote-name", longValued '6' "quoting-style", flag 'X', flag 'v',
    longValued '7' "sort", flag 'L' "dereference", flag 'H' "dereference-command-line",
    longFlag '8' "dereference-command-line-symlink-to-dir", flag 'k' "kibibytes", flag 'u',
    flag 'c', longValued '9' "time", longValued '+' "time-style", longFlag 'Y' "full-time",
    longExtended 'K' "color", longExtended 'K' "hyperlink", longFlag 'D' "group-directories-first",
    flag 'Z' "context", valued 'w' "width", valued 'T' "tabsize", valued 'I' "ignore",
    longValued 'J' "hide",
    flag 'B' "ignore-backups", longFlag 'M' "author", longFlag 'O' "zero",
    longValued 'P' "block-size"]

/-- When something is done: always, never, or on a terminal. -/
def whens : List (List String) :=
  [["always", "yes", "force"], ["never", "no", "none"], ["auto", "tty", "if-tty"]]

/-- A choice of values by their names. -/
def pick {α : Type} (option : String) (table : List (List String × α)) (word : Octets)
    (default : α) : Except (Octets × Bool) α :=
  match chosen option (table.map (·.1)) word with
  | .ok i => .ok ((table[i]?.map (·.2)).getD default)
  | .error message => .error (message, true)

/-- A number in an option. -/
def number (what : String) (word : Octets) : Except (Octets × Bool) Nat :=
  match natOf? word with
  | some n => .ok n
  | none => .error (octets ("invalid " ++ what ++ ": ") ++ quoted word, false)

/-- The form after an option, or what is wrong with it and whether that is a misuse. -/
def step (f : ListForm) : Char × Octets → Except (Octets × Bool) ListForm
  | (key, word) => do
    match key with
    | 'a' => return { f with reach := .all }
    | 'A' => return { f with reach := .almost }
    | 'f' =>
      let layout := if f.layout = .long then .single else f.layout
      return { f with reach := .all, order := some .unsorted, layout, blocks := false }
    | 'l' => return { f with layout := .long }
    | 'g' => return { f with layout := .long, owner := false }
    | 'o' => return { f with layout := .long, group := false }
    | 'n' => return { f with layout := .long, numeric := true }
    | 'G' => return { f with group := false }
    | 'M' => return { f with author := true }
    | '1' => return if f.layout = .long then f else { f with layout := .single }
    | 'C' => return { f with layout := .columns }
    | 'x' => return { f with layout := .rows }
    | 'm' => return { f with layout := .commas }
    | '4' =>
      let layout ← pick "--format" [(["verbose", "long"], Layout.long), (["commas"], .commas),
        (["horizontal", "across"], .rows), (["vertical"], .columns), (["single-column"], .single)]
        word .single
      return { f with layout }
    | 'h' => return { f with unit := some 1024 }
    | '0' => return { f with unit := some 1000 }
    | 'k' => return { f with unit := none }
    | 'F' =>
      let isAlways ← if word.isEmpty then pure true
        else do pure ((← pick "--classify" (whens.zip [0, 1, 2]) word 0) = 0)
      return if isAlways then { f with marks := .classify } else f
    | 'p' => return { f with marks := .slash }
    | '2' => return { f with marks := .fileType }
    | '3' =>
      let marks ← pick "--indicator-style" [(["none"], MarkStyle.unmarked), (["slash"], .slash),
        (["file-type"], .fileType), (["classify"], .classify)] word .unmarked
      return { f with marks }
    | 'U' => return { f with order := some .unsorted }
    | 'S' => return { f with order := some .size }
    | 't' => return { f with order := some .time }
    | 'v' => return { f with order := some .version }
    | 'X' => return { f with order := some .extension }
    | '7' =>
      let order ← pick "--sort" [(["none"], ListOrder.unsorted), (["time"], .time),
        (["size"], .size), (["extension"], .extension), (["version"], .version),
        (["width"], .width)] word .name
      return { f with order := some order }
    | 'u' | 'c' => return { f with isTimed := true }
    | '9' =>
      let _ ← pick "--time" [(["atime", "access", "use"], ()), (["ctime", "status"], ()),
        (["mtime", "modification"], ()), (["birth", "creation"], ())] word ()
      return { f with isTimed := true }
    | '+' => return { f with timeStyle := some word }
    | 'Y' => return { f with layout := .long, timeStyle := some (octets "full-iso") }
    | 'r' => return { f with reversed := true }
    | 's' => return { f with blocks := true }
    | 'i' => return { f with inodes := true }
    | 'Z' => return { f with labels := true }
    | 'q' => return { f with hidesControls := true }
    | '5' => return { f with hidesControls := false }
    | 'b' => return { f with quoting := .escape }
    | 'N' => return { f with quoting := .literal }
    | 'Q' => return { f with quoting := .c }
    | '6' =>
      let table := QuoteStyle.table.map fun (name, style) => ([name], style)
      return { f with quoting := ← pick "--quoting-style" table word .literal }
    | 'w' => return { f with width := ← number "line width" word }
    | 'T' => return { f with tab := ← number "tab size" word }
    | 'I' => return { f with ignored := word :: f.ignored }
    | 'B' => return { f with ignored := octets "*~" :: octets ".*~" :: f.ignored }
    | 'J' => return { f with hidden := word :: f.hidden }
    | 'd' => return { f with asSuch := true }
    | 'R' => return { f with recursive := true }
    | 'L' => return { f with follows := true }
    | 'H' => return { f with followsNamed := true }
    | 'D' => return { f with directoriesFirst := true }
    | 'O' =>
      let layout := if f.layout = .long then .long else .single
      return { f with ending := '\x00', quoting := .literal, layout }
    | 'K' =>
      if !word.isEmpty then
        let _ ← pick "--color" (whens.zip [0, 1, 2]) word 0
      return f
    | _ => return f

/-- The styles of times. -/
def timeStyles : List String := ["full-iso", "long-iso", "iso", "locale"]

/-- What options say, given what the environment says of the width and the quotes. -/
def ofOptions (width : Nat) (quoting : QuoteStyle) (o : Options) :
    Except (Octets × Bool) ListForm :=
  (o : List (Char × Octets)).foldlM step { width, quoting }

/-- What is wrong with the style of times, if times are shown. -/
def timeFault? (f : ListForm) : Option Octets :=
  match f.timeStyle, f.layout with
  | some style, .long =>
    let name := if (octets "posix-").isPrefixOf style then style.drop 6 else style
    if style.head? = some '+' || timeStyles.any (octets · = name) then none
    else
      some (octets "invalid argument " ++ quoted style ++ octets (" for 'time style'\n" ++
        "Valid arguments are:\n  - [posix-]full-iso\n  - [posix-]long-iso\n  - [posix-]iso\n"
        ++ "  - [posix-]locale\n  - +FORMAT (e.g., +%H:%M) for a 'date'-style format"))
  | _, _ => none

/-- By what names are sorted. -/
def ordering (f : ListForm) : ListOrder :=
  f.order.getD (if f.isTimed && f.layout != .long then .time else .name)

/-- The name of an entry of a directory is listed. -/
def lists (f : ListForm) (name : Octets) : Bool :=
  let fits (pattern : Octets) : Bool :=
    (Glob.ofText pattern).accepts name && (name.head? != some '.' || pattern.head? = some '.')
  (f.reach != .visible || (name.head? != some '.' && !f.hidden.any fits)) && !f.ignored.any fits

end ListForm

/-! ### What is shown -/

/-- Something that is listed under a name. -/
structure Listed where
  name : Octets
  number : Nat
  node : Node

/-- A number of bytes with a unit, rounded up. -/
def humanSize (base n : Nat) : Octets :=
  let rec go : Nat → Nat → List Char → Octets
    | 0, n, _ => Decimal.natText n
    | _, n, [] => Decimal.natText n
    | depth + 1, tenths, unit :: units =>
      if tenths < 100 then
        Decimal.natText (tenths / 10) ++ '.' :: Decimal.natText (tenths % 10) ++ [unit]
      else if tenths < base * 10 then Decimal.natText ((tenths + 9) / 10) ++ [unit]
      else go depth ((tenths + base - 1) / base) units
  if n < base then Decimal.natText n
  else go 5 ((n * 10 + base - 1) / base) [if base = 1000 then 'k' else 'K', 'M', 'G', 'T']

/-- Texts filled up to the same width, at their beginnings or at their ends. -/
def alignTexts (right : Bool) (texts : List Octets) : List Octets :=
  let width := (texts.map (·.length)).foldl max 0
  texts.map fun t =>
    let fill := List.replicate (width - t.length) ' '
    if right then fill ++ t else t ++ fill

/-- The number of a device among those of its kind. -/
def deviceNumber : Device → Nat
  | .null => 3
  | .zero => 5
  | .full => 7
  | .random => 9

/-- Blanks from one column to another, as tabs where they fit. The first argument bounds the
number of characters. -/
def indentation (tab : Nat) : Nat → Nat → Nat → Octets
  | 0, _, _ => []
  | n + 1, start, stop =>
    if stop ≤ start then []
    else if tab != 0 && (start + 1) / tab < stop / tab then
      '\t' :: indentation tab n (start + tab - start % tab) stop
    else ' ' :: indentation tab n (start + 1) stop

/-- The widths of the columns in which texts with these lengths fit into a line, as many columns as
possible. A column has two blanks at its end, but the last one. -/
def columnWidths (byColumns : Bool) (width : Nat) (lengths : List Nat) : List Nat :=
  let count := lengths.length
  let most := min count ((width + 2) / 3)
  let widths (columns : Nat) : List Nat :=
    (List.range columns).map fun i =>
      let rows := (count + columns - 1) / columns
      let own := lengths.zipIdx.filter fun (_, n) =>
        (if byColumns then n / rows else n % columns) = i
      (own.map fun (length, _) => if i + 1 = columns then length else length + 2).foldl max 3
  let fits (columns : Nat) : Bool :=
    let ws := widths columns
    ws.all (· = 3) || ws.foldl (· + ·) 0 < width
  match ((List.range most).reverse.map (· + 1)).find? fits with
  | some columns => widths columns
  | none => widths 1

namespace ListForm

variable (f : ListForm) (fs : FileSystem) (now : Moment)

/-- The mark behind the name of a node. -/
def mark (form : NodeForm) (mode : Nat) : Octets :=
  match f.marks, form with
  | .unmarked, _ => []
  | _, .directory _ _ => ['/']
  | .slash, _ => []
  | _, .link _ => ['@']
  | _, .pipe => ['|']
  | .classify, .file _ => if mode &&& 0o111 != 0 then ['*'] else []
  | _, _ => []

/-- A name as it is shown. -/
def written (name : Octets) : Octets :=
  let text := f.quoting.write name
  if f.hidesControls then text.map fun c => if Quote.isPrinted c then c else '?' else text

/-- The directory in which a link is. -/
def linkPlace (x : Listed) : Nat :=
  ((fs.nodes.find? fun (_, node) =>
    match node.form with
    | .directory _ entries => entries.any fun entry => entry.2 = x.number
    | _ => false).map (·.1)).getD FileSystem.root

/-- The names of things that are listed, with their marks. In a long list it is said where links
lead. -/
def shownNames (xs : List Listed) : List Octets :=
  let texts := xs.map fun x => (f.written x.name, x)
  let isAligned := f.quoting.isUneven && f.layout != .single && f.layout != .commas
    && texts.any fun (text, x) => text != x.name
  texts.map fun (text, x) =>
    let text := if isAligned && text = x.name then ' ' :: text else text
    match x.node.form, f.layout with
    | .link target, .long =>
      let mark := match fs.node? x.number, fs.find .follow (linkPlace fs x) target with
        | some _, .ok n =>
          match fs.node? n with
          | some node => if f.marks = .slash then [] else f.mark node.form node.mode
          | none => []
        | _, _ => []
      text ++ octets " -> " ++ f.written target ++ mark
    | form, _ => text ++ f.mark form x.node.mode

/-- A number of blocks of a thousand bytes. -/
def blockText (n : Nat) : Octets :=
  match f.unit with
  | some base => humanSize base (n * 1024)
  | none => Decimal.natText n

/-- What stands in front of names. -/
def fronts (xs : List Listed) : List Octets :=
  let column (isShown : Bool) (text : Listed → Octets) : List Octets :=
    if !isShown then xs.map fun _ => []
    else
      let texts := xs.map text
      (if f.layout = .commas then texts else alignTexts true texts).map (· ++ [' '])
  let pairs := (column f.inodes fun x => Decimal.natText x.number).zip
    (column f.blocks fun x => f.blockText (nodeBlocks x.node.form))
  let label := if f.labels && f.layout != .long then ['?', ' '] else []
  pairs.map fun (a, b) => a ++ b ++ label

/-- The lines of a long list. -/
def longLines (xs : List Listed) : List Octets :=
  let counts := alignTexts true (xs.map fun x => Decimal.natText (nameCount fs x.number))
  let minors := xs.map fun x =>
    match x.node.form with
    | .device d => Decimal.natText (deviceNumber d)
    | _ => []
  let sizes := alignTexts true ((xs.zip (alignTexts true minors)).map fun (x, minor) =>
    match x.node.form with
    | .device _ => octets "1, " ++ minor
    | form =>
      match f.unit with
      | some base => humanSize base (nodeSize form)
      | none => Decimal.natText (nodeSize form))
  let times := alignTexts false (xs.map fun x => listedTime f.timeStyle now x.node)
  let who := if f.numeric then ['0'] else octets "root"
  let people := (if f.owner then who ++ [' '] else []) ++ (if f.group then who ++ [' '] else [])
    ++ (if f.author then octets "root " else []) ++ if f.labels then ['?', ' '] else []
  (((xs.zip (f.fronts xs)).zip (f.shownNames fs xs)).zip ((counts.zip sizes).zip times)).map
    fun (((x, front), name), ((count, size), time)) =>
      front ++ formLetter x.node.form :: modeLetters x.node.mode ++ ' ' :: count ++ ' ' :: people
        ++ size ++ ' ' :: time ++ ' ' :: name

/-- Texts one after the other, as many in a line as fit. -/
def inRun (separator : Char) (texts : List Octets) : Octets :=
  let (done, _) := texts.foldl (fun (done, place) text =>
    if done.isEmpty then ([text], text.length)
    else if f.width = 0 || place + text.length + 2 < f.width then
      (text :: [separator, ' '] :: done, place + 2 + text.length)
    else (text :: [separator, f.ending] :: done, text.length))
    (([] : List Octets), 0)
  if texts.isEmpty then [] else done.reverse.flatten ++ [f.ending]

/-- Texts in columns, which are read downwards or, if not, in rows. -/
def inColumns (byColumns : Bool) (texts : List Octets) : Octets :=
  let widths := columnWidths byColumns f.width (texts.map (·.length))
  let columns := widths.length
  let rows := (texts.length + columns - 1) / columns
  (List.range rows).flatMap fun row =>
    let places := (List.range columns).map fun i =>
      if byColumns then i * rows + row else row * columns + i
    let own := (places.filterMap fun i => texts[i]?).zip widths
    let (line, _) := own.zipIdx.foldl (fun (line, place) ((text, width), i) =>
      if i + 1 = own.length then (line ++ text, place)
      else
        (line ++ text ++ indentation f.tab (width + 1) (place + text.length) (place + width),
          place + width)) (([] : Octets), 0)
    line ++ [f.ending]

/-- The text for things that are listed. -/
def layOut (xs : List Listed) : Octets :=
  let lines (texts : List Octets) : Octets := texts.flatMap (· ++ [f.ending])
  let texts := ((f.fronts xs).zip (f.shownNames fs xs)).map fun (front, name) => front ++ name
  match f.layout with
  | .single => lines texts
  | .long => lines (f.longLines fs now xs)
  | .commas => f.inRun ',' texts
  | .columns => if f.width = 0 then f.inRun ' ' texts else f.inColumns true texts
  | .rows => if f.width = 0 then f.inRun ' ' texts else f.inColumns false texts

/-- Things in the order that is asked for. -/
def sorted (xs : List Listed) : List Listed :=
  let byName := xs.mergeSort fun a b => Octets.precedes a.name b.name
  let ending (x : Listed) : Octets :=
    if x.name.contains '.' then '.' :: (x.name.reverse.takeWhile (· != '.')).reverse else []
  let inOrder := match f.ordering with
    | .unsorted => xs
    | .name => byName
    | .size => byName.mergeSort fun a b => nodeSize b.node.form ≤ nodeSize a.node.form
    | .extension => byName.mergeSort fun a b => Octets.precedes (ending a) (ending b)
    | .time => byName.mergeSort fun a b => b.node.time ≤ a.node.time
    | .version => byName.mergeSort fun a b => compareVersions a.name b.name != .gt
    | .width => byName.mergeSort fun a b => a.name.length ≤ b.name.length
  let inOrder := if f.reversed && f.ordering != .unsorted then inOrder.reverse else inOrder
  if f.directoriesFirst && f.ordering != .unsorted then
    let leads (x : Listed) : Bool :=
      fs.isDirectory x.number || match x.node.form with
        | .link target =>
          match fs.find .follow (linkPlace fs x) target with
          | .ok n => fs.isDirectory n
          | .error _ => false
        | _ => false
    let (trees, others) := inOrder.partition leads
    trees ++ others
  else inOrder

/-- What is in a directory, as far as it is asked for. -/
def entriesOf (n : Nat) : List Listed :=
  let dots := if f.reach = .all then [(['.'], n), (['.', '.'], fs.parent n)] else []
  let entries := dots ++ (fs.entries n).filter fun e => f.lists e.1
  f.sorted fs (entries.filterMap fun (name, m) =>
    let m := if f.follows then ((fs.find .follow n name).toOption).getD m else m
    (fs.node? m).map (⟨name, m, ·⟩))

/-- The text of a directory with its head line, and of those below it if so said. -/
def directoryText (headed : Bool) : Nat → Bool → Octets → Nat → Octets
  | 0, _, _, _ => []
  | depth + 1, first, path, n =>
    let xs := f.entriesOf fs n
    let head := if headed then (if first then [] else ['\n']) ++ f.written path ++ [':', '\n']
      else []
    let blocks := (xs.map fun x => nodeBlocks x.node.form).foldl (· + ·) 0
    let total := if f.layout = .long || f.blocks then
      octets "total " ++ f.blockText blocks ++ [f.ending] else []
    let below := if f.recursive then
        xs.flatMap fun x =>
          if fs.isDirectory x.number && x.name != ['.'] && x.name != ['.', '.'] then
            directoryText headed depth false (inside path x.name) x.number
          else []
      else []
    head ++ total ++ f.layOut fs now xs ++ below

end ListForm

/-! ### The program -/

/-- Files and directories that are named, and the code of complaints about what is not there. -/
def listedPaths (name : Octets) (f : ListForm) (k : Kernel) :
    List Octets → Act (List Listed × List Listed × Nat)
  | [] => return ([], [], 0)
  | path :: rest => do
    let stays := (f.layout = .long || f.asSuch || f.marks = .classify) && !f.follows
      && !f.followsNamed
    let found := match k.files.find (if stays then .stay else .follow) k.here path with
      | .ok n => some n
      | .error _ => (k.files.find .stay k.here path).toOption
    match found with
    | none =>
      let e := match k.files.find .follow k.here path with
        | .error e => e
        | .ok _ => .missing
      let _ ← complainTried name "cannot access" path e
      let (files, directories, _) ← listedPaths name f k rest
      return (files, directories, 2)
    | some n =>
      let (files, directories, code) ← listedPaths name f k rest
      match k.files.node? n with
      | none => return (files, directories, code)
      | some node =>
        let x : Listed := ⟨path, n, node⟩
        if k.files.isDirectory n && !f.asSuch then return (files, x :: directories, code)
        else return (x :: files, directories, code)

/-- Lists files and the contents of directories. -/
def ls : Program := fun name args =>
  withOptions name ListForm.options 2 args fun o paths => do
    let k ← look
    let environment := ((k.self?).map (·.environment)).getD []
    let value? (key : String) : Option Octets := environment.lookup (octets key)
    let width := (((value? "COLUMNS").bind natOf?).filter (· != 0)).getD 80
    let quoting := ((value? "QUOTING_STYLE").bind fun style =>
      (QuoteStyle.table.find? fun entry => octets entry.1 = style).map (·.2)).getD .literal
    match ListForm.ofOptions width quoting o with
    | .error (message, true) => misuse name 1 message
    | .error (message, false) => complain 2 (name ++ octets ": " ++ message)
    | .ok f =>
      let f := { f with timeStyle := f.timeStyle.orElse fun _ => value? "TIME_STYLE" }
      if let some message := f.timeFault? then return (← misuse name 2 message)
      let now ← momentNow
      let paths := if paths.isEmpty then [['.']] else paths
      let (files, directories, code) ← listedPaths name f k paths
      let directories := f.sorted k.files directories
      let headed := 1 < paths.length || f.recursive
      let listed := f.layOut k.files now (f.sorted k.files files)
      let (text, _) := directories.foldl (fun (text, first) x =>
        (text ++ f.directoryText k.files now headed k.files.issued first x.name x.number, false))
        (listed, files.isEmpty)
      say text
      return code

end MutationTesting.Tool
