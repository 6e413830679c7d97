import PullThrough.Bytes
/-!
Hexadecimal digits. Octets are written as two lower-case digits each; `Hex.value?` reads both cases.
-/
namespace PullThrough.Hex

/-- The lower-case digit of a value below sixteen. -/
def digit (n : Nat) : Char :=
  if n < 10 then Char.ofNat (0x30 + n) else Char.ofNat (0x57 + n)

/-- The value of a digit in either case. -/
def value? (c : Char) : Option Nat :=
  if '0' ≤ c ∧ c ≤ '9' then some (c.toNat - 0x30)
  else if 'a' ≤ c ∧ c ≤ 'f' then some (c.toNat - 0x57)
  else if 'A' ≤ c ∧ c ≤ 'F' then some (c.toNat - 0x37)
  else none

/-- A digit as `encode` writes it. -/
def isLower (c : Char) : Bool := ('0' ≤ c && c ≤ '9') || ('a' ≤ c && c ≤ 'f')

/-- Two digits for each octet. -/
def encode (b : Bytes) : List Char :=
  b.flatMap fun x => [digit (x.toNat / 16), digit (x.toNat % 16)]

@[simp] theorem encode_nil : encode [] = [] := rfl

@[simp] theorem encode_cons (x : UInt8) (b : Bytes) :
    encode (x :: b) = digit (x.toNat / 16) :: digit (x.toNat % 16) :: encode b := rfl

@[simp] theorem length_encode (b : Bytes) : (encode b).length = 2 * b.length := by
  induction b with
  | nil => rfl
  | cons x b ih => simp [ih]; omega

theorem isLower_digit {n : Nat} (h : n < 16) : isLower (digit n) = true := by
  have : ∀ m : Fin 16, isLower (digit m) = true := by decide
  exact this ⟨n, h⟩

theorem all_isLower_encode (b : Bytes) : (encode b).all isLower = true := by
  induction b with
  | nil => rfl
  | cons x b ih =>
    have hx := x.toNat_lt
    simp [ih, isLower_digit (show x.toNat / 16 < 16 by omega),
      isLower_digit (show x.toNat % 16 < 16 by omega)]

end PullThrough.Hex
