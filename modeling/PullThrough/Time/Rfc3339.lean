import PullThrough.Text.Blank
import PullThrough.Time.Instant
/-!
Instants as text after RFC 3339. Reading is lenient: blanks may stand between the parts, the letters
may be small, a blank may replace the T, and a year may have a sign and any number of digits.
-/
namespace PullThrough.Rfc3339

/-! ## Writing -/

/-- A number filled up with zeros in front to a width. -/
def padded (width n : Nat) : String :=
  let s := toString n
  String.ofList (List.replicate (width - s.length) '0') ++ s

/-- Four digits; years outside these have a sign and at least four digits. -/
def yearText (y : Int) : String :=
  if 0 ≤ y ∧ y ≤ 9999 then padded 4 y.toNat
  else (if y < 0 then "-" else "+") ++ padded 4 y.natAbs

/-- The fraction of a second, in three, six or nine digits: as few as suffice. -/
def fractionText (nanos : Nat) : String :=
  if nanos = 0 then ""
  else if nanos % 1000000 = 0 then "." ++ padded 3 (nanos / 1000000)
  else if nanos % 1000 = 0 then "." ++ padded 6 (nanos / 1000)
  else "." ++ padded 9 nanos

/-- An instant with the given text for the zone of Universal Time. -/
def text (zone : String) (t : Instant) : String :=
  let d := t.date
  let s := t.secondOfDay
  let leap := if t.nanos < 1000000000 then 0 else 1
  yearText d.year ++ "-" ++ padded 2 d.month ++ "-" ++ padded 2 d.day ++ "T" ++
    padded 2 (s / 3600) ++ ":" ++ padded 2 (s / 60 % 60) ++ ":" ++ padded 2 (s % 60 + leap) ++
    fractionText (t.nanos % 1000000000) ++ zone

/-! ## Reading -/

def isDigit (c : Char) : Bool := '0' ≤ c && c ≤ '9'

def digitsValue (digits : List Char) : Nat :=
  digits.foldl (fun n c => 10 * n + (c.toNat - 0x30)) 0

/-- A number of one up to `width` digits. -/
def number? (width : Nat) (s : List Char) : Option (Nat × List Char) :=
  match (s.take width).takeWhile isDigit with
  | [] => none
  | digits => some (digitsValue digits, s.drop digits.length)

/-- A number after blanks and within bounds. -/
def field? (low high : Nat) (s : List Char) : Option (Nat × List Char) :=
  (number? 2 (Text.trimStart s)).filter fun (n, _) => low ≤ n && n ≤ high

/-- A year after blanks: up to four digits, or a sign and any number of digits. -/
def year? (s : List Char) : Option (Int × List Char) :=
  match Text.trimStart s with
  | '-' :: s => (number? s.length s).map fun (n, rest) => (-(n : Int), rest)
  | '+' :: s => (number? s.length s).map fun (n, rest) => ((n : Int), rest)
  | s => (number? 4 s).map fun (n, rest) => ((n : Int), rest)

/-- The rest after blanks and a mark. -/
def mark? (mark : Char) (s : List Char) : Option (List Char) :=
  match Text.trimStart s with
  | c :: rest => if c = mark then some rest else none
  | [] => none

/-- The nanoseconds behind a point, if there is one; digits beyond the ninth do not count. -/
def fraction? : List Char → Option (Nat × List Char)
  | '.' :: s =>
    match (s.takeWhile isDigit).take 9 with
    | [] => none
    | digits => some (digitsValue digits * Nat.pow 10 (9 - digits.length), s.dropWhile isDigit)
  | s => some (0, s)

/-- Two digits. -/
def twoDigits? : List Char → Option (Nat × List Char)
  | a :: b :: rest =>
    if isDigit a && isDigit b then some (digitsValue [a, b], rest) else none
  | _ => none

/-- Hours and minutes of a zone, in seconds. -/
def zoneHours? (s : List Char) : Option (Nat × List Char) := do
  let (h, s) ← twoDigits? s
  let (m, s) ← twoDigits? (s.dropWhile fun c => c == ':' || Text.isBlank c)
  if m < 60 then some (h * 3600 + m * 60, s) else none

/-- How many seconds a zone is ahead of Universal Time. -/
def zone? : List Char → Option (Int × List Char)
  | c :: s =>
    if (c :: s.take 2).map Char.toUpper = ['U', 'T', 'C'] then some (0, s.drop 2)
    else if c = 'Z' ∨ c = 'z' then some (0, s)
    else if c = '+' then (zoneHours? s).map fun (n, rest) => ((n : Int), rest)
    else if c = '-' ∨ c = '\u2212' then (zoneHours? s).map fun (n, rest) => (-(n : Int), rest)
    else none
  | [] => none

/-- The rest after the character between date and time. -/
def separator? : List Char → Option (List Char)
  | c :: rest => if c = 'T' ∨ c = 't' ∨ c = ' ' then some rest else none
  | [] => none

/-- Reads an instant. -/
def parse? (text : String) : Option Instant := do
  let (year, s) ← year? text.toList
  let (month, s) ← field? 1 12 (← mark? '-' s)
  let (day, s) ← field? 1 31 (← mark? '-' s)
  let (hour, s) ← field? 0 23 (← separator? s)
  let (minute, s) ← field? 0 59 (← mark? ':' s)
  let (second, s) ← field? 0 60 (← mark? ':' s)
  let (nanos, s) ← fraction? s
  let (ahead, s) ← zone? (Text.trimStart s)
  let date : Date := ⟨year, month, day⟩
  let leap := second = 60
  let civil := date.toDays * 86400 + hour * 3600 + minute * 60 + (if leap then 59 else second : Nat)
  let t : Instant := ⟨civil - ahead, if leap then nanos + 1000000000 else nanos⟩
  if Text.trimStart s = [] ∧ date.isValid ∧ ahead.natAbs < 86400 ∧ t.date.isValid then some t
  else none

end PullThrough.Rfc3339
