import MutationTesting.Tool.Basic
/-!
# Dates

Times as they are written: by year, month and day, by hours and minutes, or by how long before or
after now they are. The program `date` shows them in a format. All clocks show the same zone.

## Main definitions

* `Moment`, `momentNow` — microseconds since the beginning of 1970
* `Date`, `Date.ofDay`, `Date.toDay` — days and their dates
* `Moment.text` — a time in a format
* `momentOf?`, `stampOf?` — the time that a text is
* `date`
-/

namespace MutationTesting.Tool

open Act

/-- A time, in microseconds since the beginning of 1970. -/
abbrev Moment := Int

/-- The time at which machines are started. -/
def firstMoment : Moment := 1700000000000000

/-- The time that a machine has come to. A file system may be ahead of the other clocks. -/
def momentIn (k : Kernel) : Moment := firstMoment + max (k.clock * 1000) k.files.clock

/-- The time of a process at work. -/
def momentNow : Act Moment := ofKernel momentIn

/-- The time at which a node was changed last. -/
def nodeMoment (node : Node) : Moment := firstMoment + node.time

/-- The microseconds of a second. -/
def secondLength : Nat := 1000000

/-- The microseconds of a day. -/
def dayLength : Nat := 86400 * secondLength

/-! ### Days -/

/-- A date. -/
structure Date where
  year : Int
  month : Nat
  day : Nat

namespace Date

/-- The date of a day, as its distance from the first one of 1970. -/
def ofDay (day : Int) : Date :=
  -- Years begin in March here, so that the day that is not always there is the last one.
  let z := day + 719468
  let era := z / 146097
  let dayOfEra := (z - era * 146097).toNat
  let year := (dayOfEra - dayOfEra / 1460 + dayOfEra / 36524 - dayOfEra / 146096) / 365
  let dayOfYear := dayOfEra - (365 * year + year / 4 - year / 100)
  let month := (5 * dayOfYear + 2) / 153
  let day := dayOfYear - (153 * month + 2) / 5 + 1
  let month := if month < 10 then month + 3 else month - 9
  ⟨year + era * 400 + if month ≤ 2 then 1 else 0, month, day⟩

/-- The day of a date, as its distance from the first one of 1970. A day after the end of a month is
one of the next month. -/
def toDay (date : Date) : Int :=
  let y := if date.month ≤ 2 then date.year - 1 else date.year
  let era := y / 400
  let yearOfEra := (y - era * 400).toNat
  let monthOfYear := if 2 < date.month then date.month - 3 else date.month + 9
  let dayOfYear := (153 * monthOfYear + 2) / 5 + date.day
  era * 146097 + (yearOfEra * 365 + yearOfEra / 4 - yearOfEra / 100 + dayOfYear : Nat) - 719469

/-- The date is one of the calendar. -/
def isProper (date : Date) : Bool :=
  let again := ofDay date.toDay
  1 ≤ date.month && date.month ≤ 12 && again.month = date.month && again.day = date.day

/-- The date some months later. -/
def plusMonths (date : Date) (n : Int) : Date :=
  let months := date.year * 12 + (date.month - 1 : Nat) + n
  ⟨months / 12, (months % 12).toNat + 1, date.day⟩

end Date

/-- The names of the months. -/
def monthNames : List String := ["January", "February", "March", "April", "May", "June", "July",
  "August", "September", "October", "November", "December"]

/-- The names of the days of a week. -/
def weekdayNames : List String :=
  ["Sunday", "Monday", "Tuesday", "Wednesday", "Thursday", "Friday", "Saturday"]

/-! ### Writing -/

/-- A number filled up with a character to a width. -/
def filled (fill : Char) (width n : Nat) : Octets :=
  let digits := Decimal.natText n
  List.replicate (width - digits.length) fill ++ digits

namespace Moment

/-- What a letter in a format means for a time; the letters that stand for whole formats have been
replaced. -/
def field (m : Moment) (c : Char) : Option Octets :=
  let seconds := m / secondLength
  let day := m / dayLength
  let second := (seconds - day * 86400).toNat
  let hour := second / 3600
  let minute := second / 60 % 60
  let date := Date.ofDay day
  let weekday := ((day + 4) % 7).toNat
  let dayOfYear := (day - Date.toDay ⟨date.year, 1, 1⟩).toNat
  let year := date.year.toNat
  -- A week belongs to the year of its Thursday.
  let thursday := day - (weekday + 6) % 7 + 3
  let weekYear := (Date.ofDay thursday).year
  let week := (thursday - Date.toDay ⟨weekYear, 1, 1⟩).toNat / 7 + 1
  let nameIn (names : List String) (i : Nat) : Octets := octets ((names[i]?).getD "")
  let hourOfHalf := (hour + 11) % 12 + 1
  match c with
  | '%' => some ['%']
  | 'n' => some ['\n']
  | 't' => some ['\t']
  | 's' => some (Decimal.intText seconds)
  | 'N' => some (filled '0' 6 (m - seconds * secondLength).toNat ++ octets "000")
  | 'Y' => some (Decimal.intText date.year)
  | 'C' => some (filled '0' 2 (year / 100))
  | 'y' => some (filled '0' 2 (year % 100))
  | 'm' => some (filled '0' 2 date.month)
  | 'd' => some (filled '0' 2 date.day)
  | 'e' => some (filled ' ' 2 date.day)
  | 'j' => some (filled '0' 3 (dayOfYear + 1))
  | 'H' => some (filled '0' 2 hour)
  | 'k' => some (filled ' ' 2 hour)
  | 'I' => some (filled '0' 2 hourOfHalf)
  | 'l' => some (filled ' ' 2 hourOfHalf)
  | 'M' => some (filled '0' 2 minute)
  | 'S' => some (filled '0' 2 (second % 60))
  | 'p' => some (octets (if hour < 12 then "AM" else "PM"))
  | 'P' => some (octets (if hour < 12 then "am" else "pm"))
  | 'A' => some (nameIn weekdayNames weekday)
  | 'a' => some ((nameIn weekdayNames weekday).take 3)
  | 'B' => some (nameIn monthNames (date.month - 1))
  | 'b' | 'h' => some ((nameIn monthNames (date.month - 1)).take 3)
  | 'u' => some (Decimal.natText (if weekday = 0 then 7 else weekday))
  | 'w' => some (Decimal.natText weekday)
  | 'U' => some (filled '0' 2 ((dayOfYear + 7 - weekday) / 7))
  | 'W' => some (filled '0' 2 ((dayOfYear + 7 - (weekday + 6) % 7) / 7))
  | 'V' => some (filled '0' 2 week)
  | 'G' => some (Decimal.intText weekYear)
  | 'g' => some (filled '0' 2 (weekYear.toNat % 100))
  | 'q' => some (Decimal.natText ((date.month + 2) / 3))
  | 'Z' => some (octets "UTC")
  | 'z' => some (octets "+0000")
  | _ => none

/-- The formats that letters stand for. -/
def formats : List (Char × String) := [('D', "%m/%d/%y"), ('x', "%m/%d/%y"), ('F', "%Y-%m-%d"),
  ('T', "%H:%M:%S"), ('X', "%H:%M:%S"), ('R', "%H:%M"), ('r', "%I:%M:%S %p"),
  ('c', "%a %b %e %H:%M:%S %Y"), ('v', "%e-%b-%Y")]

/-- A time in a format without letters that stand for whole formats. -/
def plainText (m : Moment) : Octets → Octets
  | '%' :: c :: rest => (field m c).getD ['%', c] ++ plainText m rest
  | c :: rest => c :: plainText m rest
  | [] => []

/-- A field without what fills it up, or filled up with something else. -/
def refill (flag : Char) (text : Octets) : Octets :=
  let isFill (c : Char) : Bool := c = '0' || c = ' '
  let fill := text.takeWhile isFill
  let rest := text.dropWhile isFill
  let (fill, rest) := if rest.isEmpty then (fill.dropLast, fill.drop (fill.length - 1))
    else (fill, rest)
  match flag with
  | '-' => rest
  | '_' => fill.map (fun _ => ' ') ++ rest
  | '0' => fill.map (fun _ => '0') ++ rest
  | _ => (fill ++ rest).map Char.toUpper

/-- A time in a format. -/
def text (m : Moment) : Octets → Octets
  | '%' :: '%' :: rest => '%' :: text m rest
  | '%' :: '3' :: 'N' :: rest => ((field m 'N').getD []).take 3 ++ text m rest
  | '%' :: '6' :: 'N' :: rest => ((field m 'N').getD []).take 6 ++ text m rest
  | '%' :: flag :: c :: rest =>
    if ['-', '_', '0', '^'].contains flag then
      match field m c with
      | some shown => refill flag shown ++ text m rest
      | none => '%' :: flag :: c :: text m rest
    else if flag = ':' && c = 'z' then octets "+00:00" ++ text m rest
    else
      (match formats.lookup flag with
        | some format => plainText m (octets format)
        | none => (field m flag).getD ['%', flag]) ++ text m (c :: rest)
  | ['%', c] =>
    match formats.lookup c with
    | some format => plainText m (octets format)
    | none => (field m c).getD ['%', c]
  | c :: rest => c :: text m rest
  | [] => []

end Moment

/-! ### Reading -/

/-- What is known of a time from the words read so far. -/
structure Reading where
  date : Option Date := none
  /-- The time of day, in microseconds. -/
  time : Option Nat := none
  weekday : Option Nat := none
  months : Int := 0
  days : Int := 0
  microseconds : Int := 0
  /-- Something was said of the distance from now. -/
  relative : Bool := false

namespace Reading

/-- Something has the beginning of a name, and three letters at least. -/
def abbreviates (word : Octets) (name : String) : Bool :=
  word = octets name.toLower || word = (octets name.toLower).take 3
    || (word = octets "sept" && name = "September")

/-- The units of distances: in months, days and microseconds. -/
def units : List (String × Int × Int × Int) := [("year", 12, 0, 0), ("month", 1, 0, 0),
  ("fortnight", 0, 14, 0), ("week", 0, 7, 0), ("day", 0, 1, 0), ("hour", 0, 0, 3600000000),
  ("minute", 0, 0, 60000000), ("min", 0, 0, 60000000), ("second", 0, 0, 1000000),
  ("sec", 0, 0, 1000000)]

/-- A unit by its name. -/
def unit? (word : Octets) : Option (Int × Int × Int) :=
  let word := if word.getLast? = some 's' then word.dropLast else word
  units.lookup (String.ofList word)

/-- The microseconds that digits after a point mean. -/
def fraction? (digits : Octets) : Option Nat :=
  (natOf? ((digits ++ List.replicate 6 '0').take 6))

/-- The time of day of a word with colons. -/
def timeOfDay? (text : Octets) : Option Nat := do
  let parts := splitAt ':' text
  let (seconds, part) ← match parts with
    | [_, _] => some (0, 0)
    | [_, _, s] =>
      let whole := s.takeWhile (· != '.')
      let n ← natOf? whole
      if whole.length = s.length then some (n, 0)
      else some (n, ← fraction? (s.drop (whole.length + 1)))
    | _ => none
  let hours ← (parts[0]?).bind natOf?
  let minutes ← (parts[1]?).bind natOf?
  if hours < 24 && minutes < 60 && seconds < 61 then
    some ((hours * 3600 + minutes * 60 + seconds) * secondLength + part)
  else none

/-- The date of a word of numbers. -/
def date? (text : Octets) : Option Date := do
  let date ← match (splitAt '-' text).mapM natOf?, (splitAt '/' text).mapM natOf? with
    | some [y, m, d], _ => some (⟨y, m, d⟩ : Date)
    | _, some [m, d, y] => some ⟨y, m, d⟩
    | some [_], _ =>
      if text.length = 8 then
        some ⟨← natOf? (text.take 4), ← natOf? ((text.drop 4).take 2), ← natOf? (text.drop 6)⟩
      else none
    | _, _ => none
  if date.isProper then some date else none

/-- The date of a day in a named month. -/
def dateIn? (now : Moment) (month : Nat) (day : Octets) (year : Option Octets) : Option Date := do
  let year ← match year with
    | some y => if y.length = 4 then (natOf? y).map Int.ofNat else none
    | none => some (Date.ofDay (now / dayLength)).year
  let date : Date := ⟨year, month, ← natOf? (day.filter (· != ','))⟩
  if date.isProper then some date else none

/-- Adds a distance so many times. -/
def shift (r : Reading) (n : Int) (u : Int × Int × Int) : Reading :=
  { r with
    months := r.months + n * u.1
    days := r.days + n * u.2.1
    microseconds := r.microseconds + n * u.2.2
    relative := true }

/-- Reads words in small letters. The first argument is at least their number. -/
def ofWords? (now : Moment) : Nat → List Octets → Reading → Option Reading
  | _, [], r => some r
  | 0, _, _ => none
  | n + 1, word :: rest, r =>
    let word := word.filter (· != ',')
    let month? := monthNames.findIdx? (abbreviates word)
    let weekday? := weekdayNames.findIdx? (abbreviates word)
    let count? := intOf? word
    let nextUnit? := rest.head?.bind unit?
    match month?, weekday?, count?, nextUnit? with
    | some month, _, _, _ =>
      match rest with
      | day :: year :: more =>
        match dateIn? now (month + 1) day (some year) with
        | some date => ofWords? now n more { r with date := some date }
        | none => do
          let date ← dateIn? now (month + 1) day none
          ofWords? now n (year :: more) { r with date := some date }
      | [day] => do some { r with date := some (← dateIn? now (month + 1) day none) }
      | [] => none
    | _, some weekday, _, _ => ofWords? now n rest { r with weekday := some weekday }
    | _, _, some count, some u =>
      let more := rest.drop 1
      if more.head? = some (octets "ago") then ofWords? now n (more.drop 1) (r.shift (-count) u)
      else ofWords? now n more (r.shift count u)
    | _, _, _, _ =>
      match String.ofList word, nextUnit? with
      | "next", some u => ofWords? now n (rest.drop 1) (r.shift 1 u)
      | "last", some u => ofWords? now n (rest.drop 1) (r.shift (-1) u)
      | "this", some u => ofWords? now n (rest.drop 1) (r.shift 0 u)
      | "now", _ | "today", _ => ofWords? now n rest (r.shift 0 (0, 0, 0))
      | "yesterday", _ => ofWords? now n rest (r.shift (-1) (0, 1, 0))
      | "tomorrow", _ => ofWords? now n rest (r.shift 1 (0, 1, 0))
      | "utc", _ | "gmt", _ | "z", _ | "+0000", _ | "+00:00", _ => ofWords? now n rest r
      | _, _ =>
        match unit? word, timeOfDay? word, date? word, rest with
        | some u, _, _, _ =>
          if rest.head? = some (octets "ago") then ofWords? now n (rest.drop 1) (r.shift (-1) u)
          else ofWords? now n rest (r.shift 1 u)
        | _, some time, _, _ => ofWords? now n rest { r with time := some time }
        | _, _, some date, _ => ofWords? now n rest { r with date := some date }
        | _, _, _, second :: more =>
          -- A day before its month.
          match monthNames.findIdx? (abbreviates second) with
          | none => none
          | some month =>
            match dateIn? now (month + 1) word more.head? with
            | some date =>
              if more.isEmpty then some { r with date := some date }
              else ofWords? now n (more.drop 1) { r with date := some date }
            | none => do
              let date ← dateIn? now (month + 1) word none
              ofWords? now n more { r with date := some date }
        | _, _, _, [] =>
          -- A year comes last where the time of day parts it from its date.
          match r.date, natOf? word with
          | some date, some year =>
            if word.length = 4 && r.time.isSome then
              some { r with date := some { date with year := (year : Int) } }
            else none
          | _, _ => none

/-- The time that was read. Without a time of day it is midnight, unless only the distance from now
was said. -/
def moment (r : Reading) (now : Moment) : Moment :=
  let today := now / dayLength
  let start := ((r.date.map Date.toDay).getD today)
  let time : Int := match r.time with
    | some time => time
    | none =>
      if r.relative && r.date.isNone && r.weekday.isNone then now - today * dayLength else 0
  let start := match r.weekday with
    | some weekday => start + ((weekday : Int) - (start + 4)) % 7
    | none => start
  let start := if r.months = 0 then start else ((Date.ofDay start).plusMonths r.months).toDay
  (start + r.days) * dayLength + time + r.microseconds

end Reading

/-- The seconds since the beginning of 1970 that a text is, as a time. -/
def secondsOf? (text : Octets) : Option Moment :=
  let (negative, digits) := match text with
    | '-' :: digits => (true, digits)
    | digits => (false, digits)
  let whole := digits.takeWhile (· != '.')
  let part? := if whole.length = digits.length then some 0
    else Reading.fraction? (digits.drop (whole.length + 1))
  match natOf? whole, part? with
  | some n, some part =>
    let m : Int := (n * secondLength + part : Nat)
    some (if negative then -m else m)
  | _, _ => none

/-- The time that a text is. -/
def momentOf? (now : Moment) (text : Octets) : Option Moment :=
  match text.dropWhile (· = ' ') with
  | '@' :: seconds => secondsOf? seconds
  | text =>
    -- A date is parted from a time of day by a letter or a blank, and a zone may follow at once.
    let spaced := text.zipIdx.flatMap fun (c, i) =>
      let before := 0 < i && text[i - 1]?.any Char.isDigit
      let after := text[i + 1]?.any Char.isDigit
      if (c = 'T' || c = 't') && before && after then [' ']
      else if (c = 'Z' || c = 'z') && before && text.length = i + 1 then [' ', 'z']
      else if c = '+' && before && (text.take i).contains ':' then [' ', '+']
      else [c.toLower]
    let words := (splitAt ' ' spaced).filter (!·.isEmpty)
    -- A sign may stand apart from its number, and a number before its unit may be glued to it.
    let words := words.flatMap fun w =>
      let sign := w.takeWhile fun c => c = '+' || c = '-'
      let digits := (w.drop sign.length).takeWhile Char.isDigit
      let rest := w.drop (sign.length + digits.length)
      if !digits.isEmpty && !rest.isEmpty && rest.all Char.isAlpha
          && (Reading.unit? rest).isSome then
        [sign ++ digits, rest]
      else [w]
    (Reading.ofWords? now (words.length + 1) words {}).map fun r => r.moment now

/-- The time that digits without marks are: month, day, hour and minute, possibly after a year, and
possibly with seconds after a point. -/
def stampOf? (now : Moment) (text : Octets) : Option Moment := do
  let digits := text.takeWhile (· != '.')
  let seconds ← if digits.length = text.length then some 0
    else
      let s := text.drop (digits.length + 1)
      if s.length = 2 then natOf? s else none
  let pairs (text : Octets) (n : Nat) : Option Nat := natOf? ((text.drop (2 * n)).take 2)
  if !digits.all Char.isDigit then none
  else
    let (year, rest) ← match digits.length with
      | 8 => some ((Date.ofDay (now / dayLength)).year, digits)
      | 10 => do
        let y ← pairs digits 0
        some (if y < 69 then 2000 + (y : Int) else 1900 + (y : Int), digits.drop 2)
      | 12 => do some ((← natOf? (digits.take 4) : Nat), digits.drop 4)
      | _ => none
    let date : Date := ⟨year, ← pairs rest 0, ← pairs rest 1⟩
    let hour ← pairs rest 2
    let minute ← pairs rest 3
    if date.isProper && hour < 24 && minute < 60 && seconds < 61 then
      some (date.toDay * dayLength
        + ((hour * 3600 + minute * 60 + seconds) * secondLength : Nat))
    else none

/-- Shows a time. -/
def date : Program := fun name args => do
  let now ← momentNow
  let format? := args.find? fun a => a.head? = some '+'
  -- The precision of a date in numbers can be said at once.
  let precision := octets "--iso-8601="
  let args := args.map fun a =>
    if (octets "-I").isPrefixOf a && 2 < a.length then precision ++ a.drop 2 else a
  let precision? := (args.filter precision.isPrefixOf).getLast?.map (·.drop precision.length)
  let args := args.filter (!precision.isPrefixOf ·)
  let refuse (text : Octets) : Act Nat :=
    complain 1 (name ++ octets ": invalid date " ++ quoted text)
  withOptions name [valued 'd' "date", flag 'u' "utc", longFlag 'u' "universal", flag 'R'
      "rfc-email", flag 'I' "iso-8601", valued 'r' "reference"] 1
      (args.filter fun a => a.head? != some '+') fun o words => do
    if let some word := words.head? then
      return (← if format?.isSome then misuse name 1 (octets "extra operand " ++ quoted word)
        else refuse word)
    let k ← look
    let moment : Except (Act Nat) Moment := match o.latest? ['d', 'r'] with
      | some 'd' =>
        let text := (o.last? 'd').getD []
        match momentOf? now text with
        | some m => .ok m
        | none => .error (refuse text)
      | some _ =>
        let path := (o.last? 'r').getD []
        match k.files.find .follow k.here path with
        | .ok n => .ok (((k.files.node? n).map nodeMoment).getD now)
        | .error e => .error (complainOf name (plain path) e)
      | none => .ok now
    match moment with
    | .error refusal => refusal
    | .ok moment =>
      let format := match format? with
        | some ('+' :: format) => format
        | _ =>
          match precision?.map String.ofList with
          | some "hours" => octets "%FT%H+00:00"
          | some "minutes" => octets "%FT%R+00:00"
          | some "seconds" => octets "%FT%T+00:00"
          | some "ns" => octets "%FT%T,%N+00:00"
          | some _ => octets "%F"
          | none =>
            if o.has 'I' then octets "%F"
            else if o.has 'R' then octets "%a, %d %b %Y %T %z"
            else octets "%a %b %e %T %Z %Y"
      sayAll (moment.text format ++ ['\n'])

end MutationTesting.Tool
