import PullThrough.Text.Hex
/-!
Percent escapes and form-encoded query texts, over octets.
-/
namespace PullThrough.Form

/-- The octet that two hexadecimal digits spell. -/
def hexPair? (a b : UInt8) : Option UInt8 := do
  let x ← Hex.value? (Char.ofNat a.toNat)
  let y ← Hex.value? (Char.ofNat b.toNat)
  some (UInt8.ofNat (16 * x + y))

/-- Undoes percent escapes, the result backwards and in front of `out`. A percent sign that two
digits do not follow stands for itself. -/
def unescapeOnto (out : Bytes) : Bytes → Bytes
  | 0x25 :: a :: b :: rest =>
    match hexPair? a b with
    | some x => unescapeOnto (x :: out) rest
    | none => unescapeOnto (0x25 :: out) (a :: b :: rest)
  | x :: rest => unescapeOnto (x :: out) rest
  | [] => out
termination_by s => s.length

/-- The octets with percent escapes undone. -/
def unescape (s : Bytes) : Bytes := (unescapeOnto [] s).reverse

/-- A name or a value of a form as text: a plus sign is a blank, and octets that spell
no text become U+FFFD. -/
def unescapeText (s : Bytes) : String :=
  Bytes.lossyText (unescape (s.map fun x => if x = 0x2B then 0x20 else x))

/-- The pairs of a query, in order. A part without an equals sign is a name with an empty value, and
an empty part is none. -/
def pairs (query : Bytes) : List (String × String) :=
  ((query.splitOn 0x26).filter (· ≠ [])).map fun part =>
    (unescapeText (part.takeWhile (· != 0x3D)),
      unescapeText ((part.dropWhile (· != 0x3D)).drop 1))

/-- Octets that a form carries as they are. -/
def isPlain (x : UInt8) : Bool :=
  (0x30 ≤ x && x ≤ 0x39) || (0x41 ≤ x && x ≤ 0x5A) || (0x61 ≤ x && x ≤ 0x7A) ||
    x == 0x2A || x == 0x2D || x == 0x2E || x == 0x5F

/-- A name or a value as a form writes it. -/
def escape (s : String) : List Char :=
  (Bytes.ofText s).flatMap fun x =>
    if isPlain x then [Char.ofNat x.toNat]
    else if x = 0x20 then ['+']
    else ['%', (Hex.digit (x.toNat / 16)).toUpper, (Hex.digit (x.toNat % 16)).toUpper]

end PullThrough.Form
