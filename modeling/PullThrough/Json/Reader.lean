import PullThrough.Decimal.Double
import PullThrough.Json.Basic
import PullThrough.Text.Hex
/-!
Reading JSON. The grammar is the standard one and nothing else: no byte order mark, no comments, no
trailing commas, one document and blanks around it.
-/
namespace PullThrough.Json

def isBlank (x : UInt8) : Bool := x == 0x20 || x == 0x09 || x == 0x0A || x == 0x0D

def skipBlanks (s : Bytes) : Bytes := s.dropWhile isBlank

def isDigit (x : UInt8) : Bool := 0x30 ≤ x && x ≤ 0x39

/-! ## Strings -/

/-- What a string is written in: octets, and UTF-16 units by number. -/
inductive Piece where
  | octet (x : UInt8)
  | unit (u : Nat)

/-- The UTF-8 pattern of a code point, surrogates included: these make octets that are no text. -/
def codePoint (n : Nat) : Bytes :=
  if n < 0x80 then [UInt8.ofNat n]
  else if n < 0x800 then [UInt8.ofNat (0xC0 + n / 0x40), UInt8.ofNat (0x80 + n % 0x40)]
  else if n < 0x10000 then
    [UInt8.ofNat (0xE0 + n / 0x1000), UInt8.ofNat (0x80 + n / 0x40 % 0x40),
      UInt8.ofNat (0x80 + n % 0x40)]
  else
    [UInt8.ofNat (0xF0 + n / 0x40000), UInt8.ofNat (0x80 + n / 0x1000 % 0x40),
      UInt8.ofNat (0x80 + n / 0x40 % 0x40), UInt8.ofNat (0x80 + n % 0x40)]

def isHighSurrogate (u : Nat) : Bool := 0xD800 ≤ u && u < 0xDC00

def isLowSurrogate (u : Nat) : Bool := 0xDC00 ≤ u && u < 0xE000

/-- The octets that pieces denote, the pieces given from the last to the first and put in front of
`out`. Two surrogates in a row are one code point. -/
def denoteOnto (out : Bytes) : List Piece → Bytes
  | [] => out
  | .octet x :: rest => denoteOnto (x :: out) rest
  | .unit v :: .unit u :: rest =>
    if isHighSurrogate u && isLowSurrogate v then
      denoteOnto (codePoint (0x10000 + (u - 0xD800) * 0x400 + (v - 0xDC00)) ++ out) rest
    else denoteOnto (codePoint v ++ out) (.unit u :: rest)
  | .unit v :: rest => denoteOnto (codePoint v ++ out) rest

/-- The number that four hexadecimal digits spell. -/
def hexQuad? (a b c d : UInt8) : Option Nat := do
  let w ← Hex.value? (Char.ofNat a.toNat)
  let x ← Hex.value? (Char.ofNat b.toNat)
  let y ← Hex.value? (Char.ofNat c.toNat)
  let z ← Hex.value? (Char.ofNat d.toNat)
  some (((w * 16 + x) * 16 + y) * 16 + z)

/-- The octet that a one-letter escape stands for. -/
def shortEscape? (x : UInt8) : Option UInt8 :=
  if x = 0x22 ∨ x = 0x5C ∨ x = 0x2F then some x
  else if x = 0x62 then some 0x08
  else if x = 0x66 then some 0x0C
  else if x = 0x6E then some 0x0A
  else if x = 0x72 then some 0x0D
  else if x = 0x74 then some 0x09
  else none

/-- The pieces of a string up to its closing quote, backwards and in front of those already seen,
and what follows the quote. -/
def pieces? (seen : List Piece) : Bytes → Option (List Piece × Bytes)
  | [] => none
  | x :: rest =>
    if x = 0x22 then some (seen, rest)
    else if x = 0x5C then
      match rest with
      | [] => none
      | e :: rest =>
        if e = 0x75 then
          match rest with
          | a :: b :: c :: d :: rest =>
            match hexQuad? a b c d with
            | some u => pieces? (.unit u :: seen) rest
            | none => none
          | _ => none
        else
          match shortEscape? e with
          | some y => pieces? (.octet y :: seen) rest
          | none => none
    else if x < 0x20 then none
    else pieces? (.octet x :: seen) rest

/-- The string whose opening quote has been read. -/
def string? (s : Bytes) : Option (Bytes × Bytes) :=
  (pieces? [] s).map fun (pieces, rest) => (denoteOnto [] pieces, rest)

/-! ## Numbers -/

/-- The value of decimal digits. -/
def digitsValue (digits : Bytes) : Nat := digits.foldl (fun n x => 10 * n + (x.toNat - 0x30)) 0

/-- The digits at the front and the rest. -/
def takeDigits (s : Bytes) : Bytes × Bytes := (s.takeWhile isDigit, s.dropWhile isDigit)

/-- The whole part: no zero in front of other digits. -/
def wholePart? (s : Bytes) : Option (Bytes × Bytes) :=
  match takeDigits s with
  | ([], _) => none
  | (d :: more, rest) => if d = 0x30 ∧ more ≠ [] then none else some (d :: more, rest)

/-- The digits behind a point, if there is one. -/
def fractionPart? : Bytes → Option (Option Bytes × Bytes)
  | 0x2E :: s =>
    match takeDigits s with
    | ([], _) => none
    | (digits, rest) => some (some digits, rest)
  | s => some (none, s)

/-- The exponent, if there is one. -/
def exponentPart? : Bytes → Option (Option Int × Bytes)
  | x :: s =>
    if x = 0x65 ∨ x = 0x45 then
      let (negative, t) :=
        match s with
        | 0x2D :: t => (true, t)
        | 0x2B :: t => (false, t)
        | t => (false, t)
      match takeDigits t with
      | ([], _) => none
      | (digits, rest) =>
        let n : Int := digitsValue digits
        some (some (if negative then -n else n), rest)
    else some (none, x :: s)
  | [] => some (none, [])

/-- A number without its sign. -/
def magnitude? (negative : Bool) (s : Bytes) : Option (Json × Bytes) := do
  let (whole, s) ← wholePart? s
  let (fraction, s) ← fractionPart? s
  let (exponent, s) ← exponentPart? s
  match fraction, exponent with
  | none, none =>
    let n := digitsValue whole
    if negative then
      some (if n = 0 then .decimal true 0 0 else .integer (-(n : Int)), s)
    else some (.integer n, s)
  | _, _ =>
    let digits := fraction.getD []
    some (.decimal negative (digitsValue (whole ++ digits))
      (exponent.getD 0 - (digits.length : Int)), s)

def number? : Bytes → Option (Json × Bytes)
  | 0x2D :: s => magnitude? true s
  | s => magnitude? false s

/-! ## Values -/

/-- A word that stands for a value. -/
def word? (word : String) (value : Json) (s : Bytes) : Option (Json × Bytes) :=
  ((Bytes.ofText word).isPrefixOf? s).map fun rest => (value, rest)

mutual

/-- One value and what follows it. The first argument bounds how far the reading may go on. -/
def value? : Nat → Bytes → Option (Json × Bytes)
  | 0, _ => none
  | n + 1, s =>
    match skipBlanks s with
    | [] => none
    | x :: rest =>
      if x = 0x22 then (string? rest).map fun (octets, rest) => (.string octets, rest)
      else if x = 0x5B then
        match skipBlanks rest with
        | 0x5D :: rest => some (.array [], rest)
        | rest => (items? n rest).map fun (items, rest) => (.array items, rest)
      else if x = 0x7B then
        match skipBlanks rest with
        | 0x7D :: rest => some (.object [], rest)
        | rest => (members? n rest).map fun (members, rest) => (.object members, rest)
      else if x = 0x6E then word? "null" .null (x :: rest)
      else if x = 0x74 then word? "true" (.bool true) (x :: rest)
      else if x = 0x66 then word? "false" (.bool false) (x :: rest)
      else number? (x :: rest)

/-- The items up to the closing bracket, at least one. -/
def items? : Nat → Bytes → Option (List Json × Bytes)
  | 0, _ => none
  | n + 1, s =>
    match value? n s with
    | none => none
    | some (item, rest) =>
      match skipBlanks rest with
      | 0x5D :: rest => some ([item], rest)
      | 0x2C :: rest => (items? n rest).map fun (items, rest) => (item :: items, rest)
      | _ => none

/-- The members up to the closing brace, at least one. -/
def members? : Nat → Bytes → Option (List (Bytes × Json) × Bytes)
  | 0, _ => none
  | n + 1, s =>
    match skipBlanks s with
    | 0x22 :: rest =>
      match string? rest with
      | none => none
      | some (key, rest) =>
        match skipBlanks rest with
        | 0x3A :: rest =>
          match value? n rest with
          | none => none
          | some (value, rest) =>
            match skipBlanks rest with
            | 0x7D :: rest => some ([(key, value)], rest)
            | 0x2C :: rest =>
              (members? n rest).map fun (members, rest) => ((key, value) :: members, rest)
            | _ => none
        | _ => none
    | _ => none

end

/-- The document that the octets are. -/
def parse? (s : Bytes) : Option Json :=
  match value? (2 * s.length + 2) s with
  | some (j, rest) => if skipBlanks rest = [] then some j else none
  | none => none

/-! ## Fully readable documents -/

/-- As many leading digits as fit into sixty-four bits, and how many are left behind them. `length`
is the number of all digits. -/
def leadingDigits (digits length : Nat) : Nat × Nat :=
  let rest := length - 20
  let kept := digits / Nat.pow 10 rest
  if kept < Nat.pow 2 64 then (kept, rest) else (kept / 10, rest + 1)

/-- Whether a decimal has a finite value: the product of the 64-bit floating-point numbers nearest
to its leading digits and to its power of ten. -/
def isFiniteDecimal (digits : Nat) (exponent : Int) : Bool :=
  let length := (toString digits).length
  digits == 0 || exponent + length ≤ 308 ||
    (exponent + length == 309 &&
      let (kept, rest) := leadingDigits digits length
      ((Double.ofRatio false kept 1).timesMagnitude
        (Double.ofRatio false (Nat.pow 10 (exponent + rest).toNat) 1)).isFinite)

mutual

/-- Every string is text and every number has a finite value. -/
def isReadable : Json → Bool
  | .string octets => (Bytes.text? octets).isSome
  | .decimal _ digits exponent => isFiniteDecimal digits exponent
  | .integer n => isFiniteDecimal n.natAbs 0
  | .array items => itemsReadable items
  | .object members => membersReadable members
  | _ => true

def itemsReadable : List Json → Bool
  | [] => true
  | j :: rest => j.isReadable && itemsReadable rest

def membersReadable : List (Bytes × Json) → Bool
  | [] => true
  | (key, j) :: rest => (Bytes.text? key).isSome && j.isReadable && membersReadable rest

end

/-- The deepest nesting of a document whose every part is wanted. -/
def maxDepth : Nat := 127

/-- A document of which every part is wanted: all of it is readable and it is not too deep. -/
def parseWhole? (s : Bytes) : Option Json :=
  (parse? s).filter fun j => j.isReadable && j.depth ≤ maxDepth

end PullThrough.Json
