import PullThrough.Decimal.Double
import PullThrough.Text.Hex
import PullThrough.Toml.Strings
/-!
TOML numbers, dates and times.
-/
namespace PullThrough.Toml

def isDigit (c : Char) : Bool := '0' ≤ c && c ≤ '9'

def decimalValue (digits : List Char) : Nat :=
  digits.foldl (fun n c => 10 * n + (c.toNat - 0x30)) 0

/-! ## Numbers -/

/-- Digits that go on, each underscore between two of them. -/
def moreDigits (isDigit : Char → Bool) : List Char → List Char × List Char
  | '_' :: c :: rest =>
    if isDigit c then
      let (digits, rest) := moreDigits isDigit rest
      (c :: digits, rest)
    else ([], '_' :: c :: rest)
  | c :: rest =>
    if isDigit c then
      let (digits, rest) := moreDigits isDigit rest
      (c :: digits, rest)
    else ([], c :: rest)
  | [] => ([], [])

/-- Digits, at least one. -/
def digits? (isDigit : Char → Bool) : List Char → Option (List Char × List Char)
  | c :: rest =>
    if isDigit c then
      let (digits, rest) := moreDigits isDigit rest
      some (c :: digits, rest)
    else none
  | [] => none

/-- Digits of which a zero can only be the single first one. -/
def whole? : List Char → Option (List Char × List Char)
  | '0' :: rest => some (['0'], rest)
  | s => digits? isDigit s

/-- A sign, if there is one, and whether it is a minus. -/
def sign : List Char → Bool × List Char
  | '-' :: rest => (true, rest)
  | '+' :: rest => (false, rest)
  | s => (false, s)

/-- Digits behind a point. -/
def fraction? : List Char → Option (List Char × List Char)
  | '.' :: rest => digits? isDigit rest
  | _ => none

/-- The value of an exponent. -/
def exponent? : List Char → Option (Int × List Char)
  | c :: rest =>
    if c = 'e' ∨ c = 'E' then
      let (negative, rest) := sign rest
      (digits? isDigit rest).map fun (digits, rest) =>
        let n : Int := decimalValue digits
        (if negative then -n else n, rest)
    else none
  | [] => none

/-- A number with fraction or exponent. One that is too large is none, unless it is negative. -/
def float? (s : List Char) : Option (Double × List Char) := do
  let (negative, s) := sign s
  if let some rest := "inf".toList.isPrefixOf? s then return (.infinite negative, rest)
  if let some rest := "nan".toList.isPrefixOf? s then return (.nan, rest)
  let (whole, s) ← whole? s
  let (places, exponent, s) ←
    match fraction? s with
    | some (places, s) =>
      match exponent? s with
      | some (e, s) => some (places, e, s)
      | none => some (places, 0, s)
    | none => (exponent? s).map fun (e, s) => ([], e, s)
  let x := Double.ofDecimal negative (decimalValue (whole ++ places)) (exponent - places.length)
  if x = .infinite false then none else some (x, s)

/-- Whole numbers of sixty-four bits with sign. -/
def inRange (n : Int) : Bool := -9223372036854775808 ≤ n && n ≤ 9223372036854775807

/-- A whole number behind the mark of a base. -/
def based? (base : Nat) (s : List Char) : Option (Int × List Char) := do
  let isDigit c := (Hex.value? c).any (· < base)
  let (digits, rest) ← digits? isDigit s
  let n : Int := digits.foldl (fun n c => base * n + (Hex.value? c).getD 0) 0
  if inRange n then some (n, rest) else none

def integer? : List Char → Option (Int × List Char)
  | '0' :: 'x' :: s => based? 16 s
  | '0' :: 'o' :: s => based? 8 s
  | '0' :: 'b' :: s => based? 2 s
  | s => do
    let (negative, s) := sign s
    let (digits, rest) ← whole? s
    let n : Int := decimalValue digits
    let n := if negative then -n else n
    if inRange n then some (n, rest) else none

/-! ## Dates and times, as the text that shows them -/

/-- A number of exactly so many digits, within bounds. -/
def field? (width low high : Nat) (s : List Char) : Option (Nat × List Char) :=
  let digits := s.take width
  let n := decimalValue digits
  if digits.length = width ∧ digits.all isDigit ∧ low ≤ n ∧ n ≤ high then some (n, s.drop width)
  else none

def char? (c : Char) : List Char → Option (List Char)
  | d :: rest => if d = c then some rest else none
  | [] => none

/-- A number filled up with zeros in front to a width. -/
def padded (width n : Nat) : List Char :=
  let s := Nat.toDigits 10 n
  List.replicate (width - s.length) '0' ++ s

def daysInMonth (year month : Nat) : Nat :=
  if month = 2 then (if year % 4 = 0 ∧ (year % 100 ≠ 0 ∨ year % 400 = 0) then 29 else 28)
  else if month = 4 ∨ month = 6 ∨ month = 9 ∨ month = 11 then 30 else 31

def date? (s : List Char) : Option (List Char × List Char) := do
  let (year, s) ← field? 4 0 9999 s
  let (month, s) ← field? 2 1 12 (← char? '-' s)
  let (day, s) ← field? 2 1 (daysInMonth year month) (← char? '-' s)
  some (padded 4 year ++ '-' :: padded 2 month ++ '-' :: padded 2 day, s)

/-- The fraction of a second: nine digits count, and zeros at their end are not shown. -/
def secondFraction? (s : List Char) : Option (List Char × List Char) :=
  match char? '.' s with
  | none => some ([], s)
  | some s =>
    match s.takeWhile isDigit with
    | [] => none
    | digits =>
      let shown := ((digits.take 9).reverse.dropWhile (· == '0')).reverse
      some (if shown = [] then [] else '.' :: shown, s.dropWhile isDigit)

def time? (s : List Char) : Option (List Char × List Char) := do
  let (hour, s) ← field? 2 0 23 s
  let (minute, s) ← field? 2 0 59 (← char? ':' s)
  let (second, s) ← field? 2 0 60 (← char? ':' s)
  let (fraction, s) ← secondFraction? s
  some (padded 2 hour ++ ':' :: padded 2 minute ++ ':' :: padded 2 second ++ fraction, s)

/-- A zone, if there is one. -/
def zone? : List Char → Option (List Char × List Char)
  | c :: rest =>
    if c = 'Z' ∨ c = 'z' then some (['Z'], rest)
    else if c = '+' ∨ c = '-' then do
      let (hour, s) ← field? 2 0 23 rest
      let (minute, s) ← field? 2 0 59 (← char? ':' s)
      let mark := if c = '-' ∧ (hour ≠ 0 ∨ minute ≠ 0) then '-' else '+'
      some (mark :: padded 2 hour ++ ':' :: padded 2 minute, s)
    else some ([], c :: rest)
  | [] => some ([], [])

/-- The mark between date and time. -/
def dateEnd? : List Char → Option (List Char)
  | c :: rest => if c = 'T' ∨ c = 't' ∨ c = ' ' then some rest else none
  | [] => none

/-- Whether a text goes on with hours and a colon. -/
def startsTime (s : List Char) : Bool := ((field? 2 0 23 s).bind fun (_, s) => char? ':' s).isSome

/-- A date, a time, or both. -/
def dateTime? (s : List Char) : Option (List Char × List Char) :=
  match date? s with
  | none => time? s
  | some (date, rest) =>
    match dateEnd? rest with
    | none => some (date, rest)
    | some behind =>
      if startsTime behind then do
        let (time, rest) ← time? behind
        let (zone, rest) ← zone? rest
        some (date ++ 'T' :: time ++ zone, rest)
      else some (date, rest)

end PullThrough.Toml
