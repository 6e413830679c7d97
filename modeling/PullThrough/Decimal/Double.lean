/-!
Binary floating-point numbers of sixty-four bits, as sign, significand and power of two: the nearest
one to a decimal, and the shortest decimal that is nearest to no other. All in whole numbers.
-/
namespace PullThrough

/-- A finite number is `significand · 2^exponent`, the significand below `2^53` and, unless the
exponent is the least, at least `2^52`. -/
inductive Double where
  | nan
  | infinite (negative : Bool)
  | finite (negative : Bool) (significand : Nat) (exponent : Int)
  deriving DecidableEq, Repr

namespace Double

/-- The least and the greatest exponent. -/
def minExponent : Int := -1074
def maxExponent : Int := 971

/-- `num / den`, a half to the even neighbour. -/
def roundDiv (num den : Nat) : Nat :=
  let q := num / den
  let r := num % den
  if 2 * r < den then q else if 2 * r > den then q + 1 else q + q % 2

/-- `num / (den · 2^e)` as a fraction. -/
def scaled (num den : Nat) (e : Int) : Nat × Nat :=
  if e ≥ 0 then (num, den * Nat.pow 2 e.toNat) else (num * Nat.pow 2 (-e).toNat, den)

/-- The exponent that brings `num / den` below `2^53`, from one that is at most one too small. -/
def fitExponent (num den : Nat) (e : Int) : Int :=
  let (n, d) := scaled num den e
  if n / d < Nat.pow 2 53 then e else e + 1

/-- The number nearest to `num / den`. -/
def ofRatio (negative : Bool) (num den : Nat) : Double :=
  if num = 0 then finite negative 0 minExponent
  else
    let guess : Int := (num.log2 : Int) - den.log2 - 53
    let e := fitExponent num den (max guess minExponent)
    let (n, d) := scaled num den e
    let m := roundDiv n d
    let (m, e) := if m = Nat.pow 2 53 then (Nat.pow 2 52, e + 1) else (m, e)
    if e > maxExponent then infinite negative else finite negative m e

/-- The number nearest to `digits · 10^exponent`. -/
def ofDecimal (negative : Bool) (digits : Nat) (exponent : Int) : Double :=
  let size := exponent + (toString digits).length
  if digits = 0 ∨ size < -400 then finite negative 0 minExponent
  else if size > 400 then infinite negative
  else if exponent ≥ 0 then ofRatio negative (digits * Nat.pow 10 exponent.toNat) 1
  else ofRatio negative digits (Nat.pow 10 (-exponent).toNat)

def isFinite : Double → Bool
  | finite .. => true
  | _ => false

/-- The number nearest to the product of two finite ones, without regard to signs. -/
def timesMagnitude : Double → Double → Double
  | finite _ m e, finite _ n f =>
    ofRatio false (m * n * Nat.pow 2 (e + f).toNat) (Nat.pow 2 (-(e + f)).toNat)
  | _, _ => nan

/-! ## The shortest decimal -/

/-- The decimals `d · 10^k` that lie nearest to the number are those between `lower` and `upper`,
all in quarters of the number's last binary place; `value` lies between. -/
structure Interval where
  lower : Nat
  value : Nat
  upper : Nat
  closed : Bool

/-- The interval of a significand, narrower below where the binary places become finer. -/
def interval (significand : Nat) (exponent : Int) : Interval :=
  let below := if significand = Nat.pow 2 52 ∧ exponent > minExponent then 1 else 2
  ⟨4 * significand - below, 4 * significand, 4 * significand + 2, significand % 2 = 0⟩

/-- Compares `d · 10^k` with `x · 2^(e-2)`. -/
def compareDecimal (d : Nat) (k : Int) (x : Nat) (e : Int) : Ordering :=
  let e := e - 2
  let left := d * Nat.pow 10 k.toNat * Nat.pow 2 (-e).toNat
  let right := x * Nat.pow 10 (-k).toNat * Nat.pow 2 e.toNat
  compare left right

/-- Whether `d · 10^k` reads back as the number. -/
def Interval.contains (i : Interval) (e : Int) (d : Nat) (k : Int) : Bool :=
  let low := compareDecimal d k i.lower e
  let high := compareDecimal d k i.upper e
  (low == .gt || (i.closed && low == .eq)) && (high == .lt || (i.closed && high == .eq))

/-- The greatest `d` with `d · 10^k` at most the number. -/
def floorAt (value : Nat) (e : Int) (k : Int) : Nat :=
  let e := e - 2
  (value * Nat.pow 10 (-k).toNat * Nat.pow 2 e.toNat) / (Nat.pow 10 k.toNat * Nat.pow 2 (-e).toNat)

/-- Whether `d · 10^k` is nearer to the number than `(d + 1) · 10^k` is. Of two equally near
the greater is taken. -/
def isNearer (value : Nat) (e : Int) (d : Nat) (k : Int) : Bool :=
  compareDecimal (2 * d + 1) k (2 * value) e == .gt

/-- Goes from coarse grids of decimals to fine ones until one has a neighbour of the
number that reads back. -/
def shortestFrom (i : Interval) (e : Int) : Nat → Int → Nat × Int
  | 0, k => (floorAt i.value e k, k)
  | n + 1, k =>
    let d := floorAt i.value e k
    match i.contains e d k, i.contains e (d + 1) k with
    | true, true => if isNearer i.value e d k then (d, k) else (d + 1, k)
    | true, false => (d, k)
    | false, true => (d + 1, k)
    | false, false => shortestFrom i e n (k - 1)

/-- The fewest digits that read back, with their power of ten. -/
def shortest (significand : Nat) (exponent : Int) : Nat × Int :=
  if significand = 0 then (0, 0)
  else
    let whole := significand * Nat.pow 2 exponent.toNat / Nat.pow 2 (-exponent).toNat
    shortestFrom (interval significand exponent) exponent 400 ((toString whole).length : Int)

/-- Digits and a power of ten in positional notation, with a point in any case. -/
def positional (digits : Nat) (exponent : Int) : String :=
  let s := toString digits
  if exponent ≥ 0 then
    s ++ String.ofList (List.replicate (if digits = 0 then 0 else exponent.toNat) '0') ++ ".0"
  else
    let places := (-exponent).toNat
    let s := List.replicate (places + 1 - s.length) '0' ++ s.toList
    String.ofList (s.take (s.length - places) ++ '.' :: s.drop (s.length - places))

/-- The text of a number: the fewest digits that read back, written out in full. -/
def text : Double → String
  | nan => "NaN"
  | infinite negative => if negative then "-inf" else "inf"
  | finite negative significand exponent =>
    let (d, k) := shortest significand exponent
    (if negative then "-" else "") ++ positional d k

end Double

end PullThrough
