import Mathlib.Data.List.Induction
import PullThrough.Json.Printer
import PullThrough.Json.Reader
/-
  Reading the strings and numbers that the printer writes.

  What is written for a scalar is read back as that scalar, whatever follows it: a string ends with
  its quote (`Json.string?_quoted`), a number with the first octet that cannot go on with it
  (`Json.number?_scalar`).
-/
namespace PullThrough

/-! ## Texts of ASCII -/

namespace Bytes

/-- A text of ASCII has one octet for each character. -/
theorem ofText_ascii {s : List Char} (h : ∀ c ∈ s, c.toNat < 0x80) :
    ofText (String.ofList s) = s.map Char.toUInt8 := by
  induction s with
  | nil => rfl
  | cons c s ih =>
    have hc : c.utf8Size = 1 := if_pos (Nat.le_of_lt_succ (h c (by simp)))
    have hs := ih fun d hd => h d (by simp [hd])
    rw [ofText, String.toByteArray_ofList] at hs
    rw [ofText, String.toByteArray_ofList, List.utf8Encode_cons, List.utf8Encode_singleton,
      String.utf8EncodeChar_eq_singleton hc]
    simpa using hs

theorem toNat_toUInt8 {c : Char} (h : c.toNat < 0x80) : c.toUInt8.toNat = c.toNat := by
  have hm : c.toUInt8.toNat = c.toNat % 256 := rfl
  omega

end Bytes

namespace Json

/-! ## Strings -/

/-- How the reader sees one octet that the printer has written. -/
def pieceOf (x : UInt8) : Piece :=
  if x < 0x20 ∧ x ≠ 0x08 ∧ x ≠ 0x0C ∧ x ≠ 0x0A ∧ x ≠ 0x0D ∧ x ≠ 0x09 then
    .unit x.toNat else .octet x

theorem hexQuad?_of_lt {x : UInt8} (h : x < 0x20) :
    hexQuad? 0x30 0x30 (UInt8.ofNat (Hex.digit (x.toNat / 16)).toNat)
      (UInt8.ofNat (Hex.digit (x.toNat % 16)).toNat) = some x.toNat := by
  have hall : ∀ n : Fin 32, hexQuad? 0x30 0x30 (UInt8.ofNat (Hex.digit (n.val / 16)).toNat)
      (UInt8.ofNat (Hex.digit (n.val % 16)).toNat) = some n.val := by decide +kernel
  exact hall ⟨x.toNat, h⟩

theorem pieces?_short {e y : UInt8} (he : e ≠ 0x75) (h : shortEscape? e = some y)
    (seen : List Piece) (s : Bytes) :
    pieces? seen (0x5C :: e :: s) = pieces? (.octet y :: seen) s := by
  rw [pieces?.eq_def]
  dsimp only
  rw [if_neg (by decide), if_pos rfl, if_neg he, h]

theorem pieces?_hex {a b c d : UInt8} {u : Nat} (h : hexQuad? a b c d = some u) (seen : List Piece)
    (s : Bytes) :
    pieces? seen (0x5C :: 0x75 :: a :: b :: c :: d :: s) = pieces? (.unit u :: seen) s := by
  rw [pieces?.eq_def]
  dsimp only
  rw [if_neg (by decide), if_pos rfl, if_pos rfl, h]

theorem pieces?_escapeOctet (seen : List Piece) (x : UInt8) (s : Bytes) :
    pieces? seen (escapeOctet x ++ s) = pieces? (pieceOf x :: seen) s := by
  have hmark : Bytes.ofText "\\u00" = [0x5C, 0x75, 0x30, 0x30] := by decide +kernel
  unfold escapeOctet
  split
  · next h => subst h; exact pieces?_short (by decide) rfl seen s
  split
  · next h => subst h; exact pieces?_short (by decide) rfl seen s
  split
  · next h => subst h; exact pieces?_short (by decide) rfl seen s
  split
  · next h => subst h; exact pieces?_short (by decide) rfl seen s
  split
  · next h => subst h; exact pieces?_short (by decide) rfl seen s
  split
  · next h => subst h; exact pieces?_short (by decide) rfl seen s
  split
  · next h => subst h; exact pieces?_short (by decide) rfl seen s
  next h22 h5C h08 h0C h0A h0D h09 =>
    split
    · next h =>
      rw [hmark, pieceOf, if_pos ⟨h, h08, h0C, h0A, h0D, h09⟩]
      exact pieces?_hex (hexQuad?_of_lt h) seen s
    · next h =>
      rw [pieceOf, if_neg (fun hx => h hx.1), List.singleton_append, pieces?.eq_def]
      dsimp only
      rw [if_neg h22, if_neg h5C, if_neg h]

theorem pieces?_flatMap (seen : List Piece) (octets rest : Bytes) :
    pieces? seen (octets.flatMap escapeOctet ++ 0x22 :: rest) =
      some ((octets.map pieceOf).reverse ++ seen, rest) := by
  induction octets generalizing seen with
  | nil =>
    rw [List.flatMap_nil, List.nil_append, pieces?.eq_def]
    rfl
  | cons x octets ih =>
    rw [List.flatMap_cons, List.append_assoc, pieces?_escapeOctet, ih]
    simp

theorem denoteOnto_cons (out : Bytes) (x : UInt8) (pieces : List Piece) :
    denoteOnto out (pieceOf x :: pieces) = denoteOnto (x :: out) pieces := by
  unfold pieceOf
  split
  · next h =>
    have hx : x.toNat < 0x20 := h.1
    have hcode : codePoint x.toNat = [x] := by
      rw [codePoint, if_pos (by omega), UInt8.ofNat_toNat]
    have hlow : isLowSurrogate x.toNat = false := by
      simp [isLowSurrogate]
      omega
    cases pieces with
    | nil => simp [denoteOnto, hcode]
    | cons p pieces =>
      cases p with
      | octet y => simp [denoteOnto, hcode]
      | unit u => rw [denoteOnto, hlow, Bool.and_false, if_neg (by simp), hcode]; rfl
  · rw [denoteOnto]

theorem denoteOnto_reverse (out octets : Bytes) :
    denoteOnto out (octets.map pieceOf).reverse = octets ++ out := by
  induction octets using List.reverseRecOn generalizing out with
  | nil => rfl
  | append_singleton octets x ih =>
    rw [List.map_append, List.reverse_append, List.map_singleton, List.reverse_singleton,
      List.singleton_append, denoteOnto_cons, ih]
    simp

/-- A string is read up to its closing quote. -/
theorem string?_quoted (octets rest : Bytes) :
    string? (octets.flatMap escapeOctet ++ 0x22 :: rest) = some (octets, rest) := by
  rw [string?, pieces?_flatMap, List.append_nil, Option.map_some]
  dsimp only
  rw [denoteOnto_reverse, List.append_nil]

/-! ## Numbers -/

/-- A number does not go on here. -/
def Ends (s : Bytes) : Prop :=
  ∀ x, s.head? = some x → isDigit x = false ∧ x ≠ 0x2E ∧ x ≠ 0x65 ∧ x ≠ 0x45

theorem toDigits_digit {n : Nat} {c : Char} (h : c ∈ Nat.toDigits 10 n) :
    0x30 ≤ c.toNat ∧ c.toNat ≤ 0x39 := by
  have hd := Nat.isDigit_of_mem_toDigits (by decide) (by decide) h
  simpa [Char.isDigit, UInt32.le_iff_toNat_le] using hd

/-- The digits of a number do not begin with zero, unless it is zero. -/
theorem toDigits_head {n : Nat} (h : 0 < n) : (Nat.toDigits 10 n).head? ≠ some '0' := by
  induction n using Nat.strongRecOn with
  | _ n ih =>
    by_cases hn : n < 10
    · have hall : ∀ m : Fin 10, 0 < m.val → ([m.val.digitChar].head? ≠ some '0') := by decide
      rw [Nat.toDigits_of_lt_base hn]
      exact hall ⟨n, hn⟩ h
    · rw [Nat.toDigits_of_base_le (by decide) (by omega),
        List.head?_append]
      have hd := ih (n / 10) (by omega) (by omega)
      cases hs : Nat.toDigits 10 (n / 10) with
      | nil => exact absurd hs Nat.toDigits_ne_nil
      | cons c s => rw [hs] at hd; exact hd

theorem decimalDigits_eq (n : Nat) : decimalDigits n = (Nat.toDigits 10 n).map Char.toUInt8 := by
  rw [decimalDigits, Nat.toString_eq_ofList_toDigits]
  refine Bytes.ofText_ascii fun c hc => ?_
  have := toDigits_digit hc
  omega

theorem digitsValue_map {s : List Char} (h : ∀ c ∈ s, c.toNat < 0x80) (n : Nat) :
    (s.map Char.toUInt8).foldl (fun n x => 10 * n + (x.toNat - 0x30)) n =
      Nat.ofDigitChars 10 s n := by
  induction s generalizing n with
  | nil => rfl
  | cons c s ih =>
    rw [List.map_cons, List.foldl_cons, Bytes.toNat_toUInt8 (h c (by simp)),
      ih (fun d hd => h d (by simp [hd])), Nat.ofDigitChars_cons]
    rfl

theorem digitsValue_decimalDigits (n : Nat) : digitsValue (decimalDigits n) = n := by
  rw [decimalDigits_eq, digitsValue, digitsValue_map, Nat.ofDigitChars_ten_toDigits]
  intro c hc
  have := toDigits_digit hc
  omega

theorem isDigit_decimalDigits {n : Nat} {x : UInt8} (h : x ∈ decimalDigits n) :
    isDigit x = true := by
  rw [decimalDigits_eq] at h
  obtain ⟨c, hc, rfl⟩ := List.mem_map.1 h
  have hd := toDigits_digit hc
  have hn := Bytes.toNat_toUInt8 (c := c) (by omega)
  simp only [isDigit, Bool.and_eq_true, decide_eq_true_eq, UInt8.le_iff_toNat_le, hn]
  exact hd

theorem takeDigits_append {digits rest : Bytes} (hd : ∀ x ∈ digits, isDigit x = true)
    (hr : ∀ x, rest.head? = some x → isDigit x = false) :
    takeDigits (digits ++ rest) = (digits, rest) := by
  have hrest : rest.takeWhile isDigit = [] ∧ rest.dropWhile isDigit = rest := by
    cases rest with
    | nil => exact ⟨rfl, rfl⟩
    | cons x rest => simp [hr x rfl]
  rw [takeDigits, List.takeWhile_append_of_pos hd, List.dropWhile_append_of_pos hd, hrest.1,
    hrest.2, List.append_nil]

/-- The whole part of a number is read up to what is no digit. -/
theorem wholePart?_decimalDigits (n : Nat) {rest : Bytes}
    (hr : ∀ x, rest.head? = some x → isDigit x = false) :
    wholePart? (decimalDigits n ++ rest) = some (decimalDigits n, rest) := by
  rw [wholePart?, takeDigits_append (fun x => isDigit_decimalDigits) hr]
  cases hd : decimalDigits n with
  | nil =>
    rw [decimalDigits_eq] at hd
    exact absurd (List.map_eq_nil_iff.1 hd) Nat.toDigits_ne_nil
  | cons d more =>
    dsimp only
    rw [if_neg]
    rintro ⟨rfl, hmore⟩
    by_cases hn : n = 0
    · subst hn
      have hz : decimalDigits 0 = [0x30] := by decide +kernel
      rw [hz] at hd
      exact hmore (List.cons.inj hd).2.symm
    · rw [decimalDigits_eq] at hd
      obtain ⟨c, s, hs, hc, -⟩ := List.map_eq_cons_iff.1 hd
      have hc0 := toDigits_digit (n := n) (c := c) (by rw [hs]; simp)
      have hcn := Bytes.toNat_toUInt8 (c := c) (by omega)
      rw [hc] at hcn
      refine toDigits_head (Nat.pos_of_ne_zero hn) ?_
      rw [hs, List.head?_cons]
      have hzero : c = '0' := Char.toNat_inj.1 hcn.symm
      rw [hzero]

theorem fractionPart?_none {s : Bytes} (h : s.head? ≠ some 0x2E) :
    fractionPart? s = some (none, s) := by
  unfold fractionPart?
  split
  · exact absurd rfl h
  · rfl

theorem exponentPart?_none {s : Bytes} (h : s.head? ≠ some 0x65) (h' : s.head? ≠ some 0x45) :
    exponentPart? s = some (none, s) := by
  cases s with
  | nil => rfl
  | cons x s =>
    have hx : ¬ (x = 0x65 ∨ x = 0x45) := by
      rintro (rfl | rfl)
      · exact h rfl
      · exact h' rfl
    exact if_neg hx

theorem magnitude?_decimalDigits (negative : Bool) (n : Nat) {rest : Bytes} (hr : Ends rest) :
    magnitude? negative (decimalDigits n ++ rest) =
      some (if negative then (if n = 0 then .decimal true 0 0 else .integer (-(n : Int)))
        else .integer n, rest) := by
  have hf : rest.head? ≠ some 0x2E := fun h => (hr _ h).2.1 rfl
  have he : rest.head? ≠ some 0x65 := fun h => (hr _ h).2.2.1 rfl
  have he' : rest.head? ≠ some 0x45 := fun h => (hr _ h).2.2.2 rfl
  unfold magnitude?
  rw [wholePart?_decimalDigits n fun x hx => (hr x hx).1]
  simp only [Option.bind_eq_bind, Option.bind_some, fractionPart?_none hf,
    exponentPart?_none he he', digitsValue_decimalDigits]
  cases negative <;> rfl

/-- What a number begins with is no sign in front of it. -/
theorem decimalDigits_head (n : Nat) : ∃ x s, decimalDigits n = x :: s ∧ isDigit x = true := by
  cases hd : decimalDigits n with
  | nil =>
    rw [decimalDigits_eq] at hd
    exact absurd (List.map_eq_nil_iff.1 hd) Nat.toDigits_ne_nil
  | cons x s => exact ⟨x, s, rfl, isDigit_decimalDigits (n := n) (by rw [hd]; simp)⟩

theorem number?_of_digit {x : UInt8} (h : isDigit x = true) (s : Bytes) :
    number? (x :: s) = magnitude? false (x :: s) := by
  unfold number?
  split
  · next hx =>
    rw [(List.cons.inj hx).1] at h
    exact absurd h (by decide)
  · rfl

/-- An integer is read up to what cannot go on with it. -/
theorem number?_integerText (n : Int) {rest : Bytes} (hr : Ends rest) :
    number? (integerText n ++ rest) = some (.integer n, rest) := by
  unfold integerText
  split
  · next hn =>
    rw [List.cons_append]
    show magnitude? true (decimalDigits n.natAbs ++ rest) = _
    rw [magnitude?_decimalDigits true _ hr, if_pos rfl, if_neg (by omega)]
    have : -(n.natAbs : Int) = n := by omega
    rw [this]
  · next hn =>
    obtain ⟨x, s, hs, hx⟩ := decimalDigits_head n.natAbs
    have hm := magnitude?_decimalDigits false n.natAbs hr
    have hN : (n.natAbs : Int) = n := by omega
    rw [hs, List.cons_append] at hm ⊢
    rw [number?_of_digit hx, hm, if_neg (by simp), hN]

/-- Sign and digits behind the mark of an exponent. -/
def signed (s : Bytes) : Bool × Bytes :=
  match s with
  | 0x2D :: t => (true, t)
  | 0x2B :: t => (false, t)
  | t => (false, t)

theorem exponentPart?_eq (s : Bytes) :
    exponentPart? (0x65 :: s) =
      match takeDigits (signed s).2 with
      | ([], _) => none
      | (digits, rest) => some (some (if (signed s).1 then -(digitsValue digits : Int)
          else (digitsValue digits : Int)), rest) := rfl

theorem signed_of_digit {x : UInt8} (h : isDigit x = true) (s : Bytes) :
    signed (x :: s) = (false, x :: s) := by
  unfold signed
  split
  · next hx =>
    rw [(List.cons.inj hx).1] at h
    exact absurd h (by decide)
  · next hx =>
    rw [(List.cons.inj hx).1] at h
    exact absurd h (by decide)
  · rfl

/-- An exponent is read up to what cannot go on with it. -/
theorem exponentPart?_integerText (n : Int) {rest : Bytes} (hr : Ends rest) :
    exponentPart? (0x65 :: (integerText n ++ rest)) = some (some n, rest) := by
  have htake : takeDigits (decimalDigits n.natAbs ++ rest) = (decimalDigits n.natAbs, rest) :=
    takeDigits_append (fun x => isDigit_decimalDigits) fun x hx => (hr x hx).1
  have hvalue := digitsValue_decimalDigits n.natAbs
  obtain ⟨x, s, hs, hx⟩ := decimalDigits_head n.natAbs
  rw [hs] at htake hvalue
  rw [exponentPart?_eq]
  by_cases hn : n < 0
  · rw [integerText, if_pos hn]
    have hsign : signed (0x2D :: decimalDigits n.natAbs ++ rest) = (true, x :: s ++ rest) := by
      rw [hs]
      rfl
    have hN : -(n.natAbs : Int) = n := by omega
    rw [hsign]
    simp only [htake, if_true, hvalue, hN]
  · rw [integerText, if_neg hn]
    have hN : (n.natAbs : Int) = n := by omega
    rw [hs, List.cons_append, signed_of_digit hx, ← List.cons_append]
    simp only [htake, Bool.false_eq_true, if_false, hvalue, hN]

theorem magnitude?_decimal (negative : Bool) (digits : Nat) (exponent : Int) {rest : Bytes}
    (hr : Ends rest) :
    magnitude? negative (decimalDigits digits ++ 0x65 :: (integerText exponent ++ rest)) =
      some (.decimal negative digits exponent, rest) := by
  unfold magnitude?
  rw [wholePart?_decimalDigits digits fun x hx => by cases hx; decide]
  simp only [Option.bind_eq_bind, Option.bind_some]
  rw [fractionPart?_none (by simp)]
  simp only [Option.bind_some]
  rw [exponentPart?_integerText exponent hr]
  simp [digitsValue_decimalDigits]

/-- A number with an exponent is read up to what cannot go on with it. -/
theorem number?_decimal (negative : Bool) (digits : Nat) (exponent : Int) {rest : Bytes}
    (hr : Ends rest) :
    number? (scalar (.decimal negative digits exponent) ++ rest) =
      some (.decimal negative digits exponent, rest) := by
  have hm := magnitude?_decimal negative digits exponent hr
  cases negative with
  | true =>
    show magnitude? true (decimalDigits digits ++ 0x65 :: integerText exponent ++ rest) = _
    rw [List.append_assoc, List.cons_append]
    exact hm
  | false =>
    obtain ⟨x, s, hs, hx⟩ := decimalDigits_head digits
    rw [hs] at hm
    show number? (decimalDigits digits ++ 0x65 :: integerText exponent ++ rest) = _
    rw [List.append_assoc, hs, List.cons_append, List.cons_append, number?_of_digit hx]
    exact hm

end Json

end PullThrough
