import PullThrough.Bytes
import PullThrough.Text.Split
/-!
Base 64 with either alphabet, padded or not. Decoding is strict: it accepts exactly what encoding
writes, so left-over bits have to be zero and padding has to be complete.
-/
namespace PullThrough.Base64

/-- The two digits in which alphabets differ. -/
structure Alphabet where
  digit62 : Char
  digit63 : Char

namespace Alphabet

/-- The alphabet of mail and of basic credentials. -/
def standard : Alphabet := ⟨'+', '/'⟩

/-- The alphabet that is safe in URLs. -/
def urlSafe : Alphabet := ⟨'-', '_'⟩

def digit (α : Alphabet) (n : Nat) : Char :=
  if n < 26 then Char.ofNat (0x41 + n)
  else if n < 52 then Char.ofNat (0x61 + (n - 26))
  else if n < 62 then Char.ofNat (0x30 + (n - 52))
  else if n = 62 then α.digit62 else α.digit63

def value? (α : Alphabet) (c : Char) : Option Nat :=
  if 'A' ≤ c ∧ c ≤ 'Z' then some (c.toNat - 0x41)
  else if 'a' ≤ c ∧ c ≤ 'z' then some (c.toNat - 0x61 + 26)
  else if '0' ≤ c ∧ c ≤ '9' then some (c.toNat - 0x30 + 52)
  else if c = α.digit62 then some 62
  else if c = α.digit63 then some 63
  else none

end Alphabet

/-- Four digits for three octets; one or two octets at the end make two or three digits. -/
def encode (α : Alphabet) : Bytes → List Char
  | [] => []
  | [a] => [α.digit (a.toNat / 4), α.digit (a.toNat % 4 * 16)]
  | [a, b] =>
    [α.digit (a.toNat / 4), α.digit (a.toNat % 4 * 16 + b.toNat / 16), α.digit (b.toNat % 16 * 4)]
  | a :: b :: c :: rest =>
    α.digit (a.toNat / 4) :: α.digit (a.toNat % 4 * 16 + b.toNat / 16) ::
      α.digit (b.toNat % 16 * 4 + c.toNat / 64) :: α.digit (c.toNat % 64) :: encode α rest

/-- Reads what `encode` writes. -/
def decode? (α : Alphabet) : List Char → Option Bytes
  | [] => some []
  | [_] => none
  | [p, q] => do
    let x ← α.value? p
    let y ← α.value? q
    if y % 16 = 0 then some [UInt8.ofNat (x * 4 + y / 16)] else none
  | [p, q, r] => do
    let x ← α.value? p
    let y ← α.value? q
    let z ← α.value? r
    if z % 4 = 0 then
      some [UInt8.ofNat (x * 4 + y / 16), UInt8.ofNat (y % 16 * 16 + z / 4)]
    else none
  | p :: q :: r :: s :: rest => do
    let x ← α.value? p
    let y ← α.value? q
    let z ← α.value? r
    let w ← α.value? s
    let tail ← decode? α rest
    some (UInt8.ofNat (x * 4 + y / 16) :: UInt8.ofNat (y % 16 * 16 + z / 4) ::
      UInt8.ofNat (z % 4 * 64 + w) :: tail)

/-- How many pad marks complete a last group. -/
def padCount (digits : Nat) : Nat := (4 - digits % 4) % 4

def encodePadded (α : Alphabet) (b : Bytes) : List Char :=
  let s := encode α b
  s ++ List.replicate (padCount s.length) '='

/-- Reads what `encodePadded` writes. -/
def decodePadded? (α : Alphabet) (s : List Char) : Option Bytes :=
  let digits := Text.trimEnd '=' s
  if s.length = digits.length + padCount digits.length then decode? α digits else none

end PullThrough.Base64
