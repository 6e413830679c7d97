import PullThrough.Text.Base64
import PullThrough.Text.Blank
/-
  Base 64: decoding undoes encoding, and accepts nothing else.

  All that matters about an alphabet is that it reads back its own digits (`Alphabet.IsSound`), and
  for the converse that it reads no other character (`Alphabet.IsExact`). The proofs follow the
  groups of three octets of `encode`, the last of which may be short. A character that is no digit
  does not occur in what is encoded, so it can stand between encoded parts, and pad them
  (`decodePadded?_eq_some_iff`).
-/
namespace PullThrough.Base64

/-- Every digit is read back. -/
def Alphabet.IsSound (α : Alphabet) : Prop := ∀ n, n < 64 → α.value? (α.digit n) = some n

namespace Alphabet

theorem isSound_standard : standard.IsSound := by
  have h : ∀ n : Fin 64, standard.value? (standard.digit n) = some n.val := by decide +kernel
  exact fun n hn => h ⟨n, hn⟩

theorem isSound_urlSafe : urlSafe.IsSound := by
  have h : ∀ n : Fin 64, urlSafe.value? (urlSafe.digit n) = some n.val := by decide +kernel
  exact fun n hn => h ⟨n, hn⟩

end Alphabet

variable {α : Alphabet}

theorem toUInt8_eq {n : Nat} {x : UInt8} (h : n = x.toNat) : UInt8.ofNat n = x := by
  rw [h, UInt8.ofNat_toNat]

theorem decode?_encode (h : α.IsSound) (b : Bytes) : decode? α (encode α b) = some b := by
  induction b using encode.induct with
  | case1 => rfl
  | case2 a =>
    have ha := a.toNat_lt
    have hx := h (a.toNat / 4) (by omega)
    have hy := h (a.toNat % 4 * 16) (by omega)
    have hpad : a.toNat % 4 * 16 % 16 = 0 := by omega
    have ha' : UInt8.ofNat (a.toNat / 4 * 4 + a.toNat % 4 * 16 / 16) = a := toUInt8_eq (by omega)
    simp only [encode, decode?, hx, hy, Option.bind_eq_bind, Option.bind_some, hpad, ha', if_true]
  | case3 a b =>
    have ha := a.toNat_lt
    have hb := b.toNat_lt
    have hx := h (a.toNat / 4) (by omega)
    have hy := h (a.toNat % 4 * 16 + b.toNat / 16) (by omega)
    have hz := h (b.toNat % 16 * 4) (by omega)
    have hpad : b.toNat % 16 * 4 % 4 = 0 := by omega
    have ha' : UInt8.ofNat (a.toNat / 4 * 4 + (a.toNat % 4 * 16 + b.toNat / 16) / 16) = a :=
      toUInt8_eq (by omega)
    have hb' :
        UInt8.ofNat ((a.toNat % 4 * 16 + b.toNat / 16) % 16 * 16 + b.toNat % 16 * 4 / 4) = b :=
      toUInt8_eq (by omega)
    simp only [encode, decode?, hx, hy, hz, Option.bind_eq_bind, Option.bind_some, hpad, ha', hb',
      if_true]
  | case4 a b c rest ih =>
    have ha := a.toNat_lt
    have hb := b.toNat_lt
    have hc := c.toNat_lt
    have hx := h (a.toNat / 4) (by omega)
    have hy := h (a.toNat % 4 * 16 + b.toNat / 16) (by omega)
    have hz := h (b.toNat % 16 * 4 + c.toNat / 64) (by omega)
    have hw := h (c.toNat % 64) (by omega)
    have ha' : UInt8.ofNat (a.toNat / 4 * 4 + (a.toNat % 4 * 16 + b.toNat / 16) / 16) = a :=
      toUInt8_eq (by omega)
    have hb' : UInt8.ofNat ((a.toNat % 4 * 16 + b.toNat / 16) % 16 * 16 +
        (b.toNat % 16 * 4 + c.toNat / 64) / 4) = b := toUInt8_eq (by omega)
    have hc' : UInt8.ofNat ((b.toNat % 16 * 4 + c.toNat / 64) % 4 * 64 + c.toNat % 64) = c :=
      toUInt8_eq (by omega)
    simp only [encode, decode?, hx, hy, hz, hw, ih, Option.bind_eq_bind, Option.bind_some, ha', hb',
      hc']

/-- A blank is no digit, unless the alphabet makes it one. -/
theorem Alphabet.value?_of_isBlank (h62 : Text.isBlank α.digit62 = false)
    (h63 : Text.isBlank α.digit63 = false) {c : Char} (h : Text.isBlank c = true) :
    α.value? c = none := by
  have hne : ∀ d : Char, Text.isBlank d = false → c ≠ d := by
    rintro d hd rfl
    rw [h] at hd
    cases hd
  have hrange : ∀ low high : Char, 0x30 ≤ low.toNat → high.toNat ≤ 0x7A →
      ¬ (low ≤ c ∧ c ≤ high) := by
    rintro low high hlow hhigh ⟨hl, hh⟩
    have hl : low.toNat ≤ c.toNat := hl
    have hh : c.toNat ≤ high.toNat := hh
    simp only [Text.isBlank, Bool.or_eq_true, Bool.and_eq_true, decide_eq_true_eq, beq_iff_eq] at h
    omega
  rw [value?, if_neg (hrange _ _ (by decide) (by decide)),
    if_neg (hrange _ _ (by decide) (by decide)), if_neg (hrange _ _ (by decide) (by decide)),
    if_neg (hne _ h62), if_neg (hne _ h63)]

/-- What is no digit does not occur. -/
theorem not_mem_encode (h : α.IsSound) {c : Char} (hc : α.value? c = none) (b : Bytes) :
    c ∉ encode α b := by
  have hne : ∀ {n}, n < 64 → c ≠ α.digit n := by
    rintro n hn rfl
    rw [h n hn] at hc
    cases hc
  induction b using encode.induct with
  | case1 => simp [encode]
  | case2 a =>
    have ha := a.toNat_lt
    simp only [encode, List.mem_cons, List.not_mem_nil, or_false, not_or]
    exact ⟨hne (by omega), hne (by omega)⟩
  | case3 a b =>
    have ha := a.toNat_lt
    have hb := b.toNat_lt
    simp only [encode, List.mem_cons, List.not_mem_nil, or_false, not_or]
    exact ⟨hne (by omega), hne (by omega), hne (by omega)⟩
  | case4 a b c rest ih =>
    have ha := a.toNat_lt
    have hb := b.toNat_lt
    have hc := c.toNat_lt
    simp only [encode, List.mem_cons, not_or]
    exact ⟨hne (by omega), hne (by omega), hne (by omega), hne (by omega), ih⟩

/-! ## Nothing else is accepted -/

/-- Only digits are read, each as what it stands for. -/
def Alphabet.IsExact (α : Alphabet) : Prop :=
  ∀ c n, α.value? c = some n → n < 64 ∧ α.digit n = c

theorem Alphabet.isExact_standard : standard.IsExact := by
  have hall : ∀ k : Fin 128, (standard.value? (Char.ofNat k)).all fun n =>
      n < 64 && standard.digit n == Char.ofNat k := by decide +kernel
  have hbelow : ∀ {c d : Char}, c ≤ d → d.toNat < 128 → c.toNat < 128 := by
    intro c d hcd hd
    rw [Char.le_def, UInt32.le_iff_toNat_le] at hcd
    exact Nat.lt_of_le_of_lt hcd hd
  intro c n h
  have hascii : c.toNat < 128 := by
    unfold value? at h
    split at h
    · next hc => exact hbelow hc.2 (by decide)
    split at h
    · next hc => exact hbelow hc.2 (by decide)
    split at h
    · next hc => exact hbelow hc.2 (by decide)
    split at h
    · next hc => rw [hc]; decide
    split at h
    · next hc => rw [hc]; decide
    · cases h
  have hc := hall ⟨c.toNat, hascii⟩
  rw [Char.ofNat_toNat, h] at hc
  simpa using hc

theorem toNat_ofNat {n : Nat} (h : n < 256) : (UInt8.ofNat n).toNat = n :=
  UInt8.toNat_ofNat_of_lt' h

/-- What is read is what was written. -/
theorem encode_of_decode? (h : α.IsExact) {s : List Char} {b : Bytes} (hs : decode? α s = some b) :
    encode α b = s := by
  induction s using decode?.induct generalizing b with
  | case1 =>
    cases hs
    rfl
  | case2 => cases hs
  | case3 p q =>
    simp only [decode?, Option.bind_eq_bind, Option.bind_eq_some_iff,
      Option.ite_none_right_eq_some, Option.some.injEq] at hs
    obtain ⟨x, hx, y, hy, hpad, rfl⟩ := hs
    obtain ⟨hxl, hp⟩ := h _ _ hx
    obtain ⟨hyl, hq⟩ := h _ _ hy
    have ha : (UInt8.ofNat (x * 4 + y / 16)).toNat = x * 4 + y / 16 := toNat_ofNat (by omega)
    have hx' : (x * 4 + y / 16) / 4 = x := by omega
    have hy' : (x * 4 + y / 16) % 4 * 16 = y := by omega
    rw [encode, ha, hx', hy', hp, hq]
  | case4 p q r =>
    simp only [decode?, Option.bind_eq_bind, Option.bind_eq_some_iff,
      Option.ite_none_right_eq_some, Option.some.injEq] at hs
    obtain ⟨x, hx, y, hy, z, hz, hpad, rfl⟩ := hs
    obtain ⟨hxl, hp⟩ := h _ _ hx
    obtain ⟨hyl, hq⟩ := h _ _ hy
    obtain ⟨hzl, hr⟩ := h _ _ hz
    have ha : (UInt8.ofNat (x * 4 + y / 16)).toNat = x * 4 + y / 16 := toNat_ofNat (by omega)
    have hb : (UInt8.ofNat (y % 16 * 16 + z / 4)).toNat = y % 16 * 16 + z / 4 :=
      toNat_ofNat (by omega)
    have hx' : (x * 4 + y / 16) / 4 = x := by omega
    have hy' : (x * 4 + y / 16) % 4 * 16 + (y % 16 * 16 + z / 4) / 16 = y := by omega
    have hz' : (y % 16 * 16 + z / 4) % 16 * 4 = z := by omega
    rw [encode, ha, hb, hx', hy', hz', hp, hq, hr]
  | case5 p q r s rest ih =>
    simp only [decode?, Option.bind_eq_bind, Option.bind_eq_some_iff, Option.some.injEq] at hs
    obtain ⟨x, hx, y, hy, z, hz, w, hw, tail, htail, rfl⟩ := hs
    obtain ⟨hxl, hp⟩ := h _ _ hx
    obtain ⟨hyl, hq⟩ := h _ _ hy
    obtain ⟨hzl, hr⟩ := h _ _ hz
    obtain ⟨hwl, hs⟩ := h _ _ hw
    have ha : (UInt8.ofNat (x * 4 + y / 16)).toNat = x * 4 + y / 16 := toNat_ofNat (by omega)
    have hb : (UInt8.ofNat (y % 16 * 16 + z / 4)).toNat = y % 16 * 16 + z / 4 :=
      toNat_ofNat (by omega)
    have hc : (UInt8.ofNat (z % 4 * 64 + w)).toNat = z % 4 * 64 + w := toNat_ofNat (by omega)
    have hx' : (x * 4 + y / 16) / 4 = x := by omega
    have hy' : (x * 4 + y / 16) % 4 * 16 + (y % 16 * 16 + z / 4) / 16 = y := by omega
    have hz' : (y % 16 * 16 + z / 4) % 16 * 4 + (z % 4 * 64 + w) / 64 = z := by omega
    have hw' : (z % 4 * 64 + w) % 64 = w := by omega
    rw [encode, ha, hb, hc, hx', hy', hz', hw', hp, hq, hr, hs, ih htail]

/-! ## Padding -/

theorem trimEnd_append_replicate {c : Char} {s : List Char} (h : c ∉ s) (n : Nat) :
    Text.trimEnd c (s ++ List.replicate n c) = s := by
  have hpad : ∀ d ∈ List.replicate n c, (d == c) = true := by
    intro d hd
    rw [(List.mem_replicate.1 hd).2]
    exact beq_self_eq_true c
  have hhead : s.reverse.dropWhile (· == c) = s.reverse := by
    cases hr : s.reverse with
    | nil => rfl
    | cons d t =>
      refine List.dropWhile_cons_of_neg ?_
      rw [beq_iff_eq]
      rintro rfl
      exact h (List.mem_reverse.1 (hr ▸ List.mem_cons_self))
  rw [Text.trimEnd, List.reverse_append, List.reverse_replicate,
    List.dropWhile_append_of_pos hpad, hhead, List.reverse_reverse]

/-- A text is what is left of it with marks behind. -/
theorem trimEnd_spec (c : Char) (s : List Char) :
    ∃ n, s = Text.trimEnd c s ++ List.replicate n c := by
  have hsplit : s.reverse = s.reverse.takeWhile (· == c) ++ s.reverse.dropWhile (· == c) :=
    List.takeWhile_append_dropWhile.symm
  have hmarks : s.reverse.takeWhile (· == c) =
      List.replicate (s.reverse.takeWhile (· == c)).length c := by
    refine List.eq_replicate_iff.2 ⟨rfl, fun d hd => ?_⟩
    exact beq_iff_eq.1 (List.all_eq_true.1 List.all_takeWhile d hd)
  refine ⟨(s.reverse.takeWhile (· == c)).length, ?_⟩
  have hrev := congrArg List.reverse hsplit
  rw [List.reverse_reverse, List.reverse_append, hmarks, List.reverse_replicate] at hrev
  exact hrev

/-- Padded texts are read just as they are written. -/
theorem decodePadded?_eq_some_iff (hsound : α.IsSound) (hexact : α.IsExact)
    (hmark : α.value? '=' = none) {s : List Char} {b : Bytes} :
    decodePadded? α s = some b ↔ s = encodePadded α b := by
  unfold decodePadded? encodePadded
  dsimp only
  rw [Option.ite_none_right_eq_some]
  constructor
  · rintro ⟨hlength, hdecode⟩
    obtain ⟨n, hs⟩ := trimEnd_spec '=' s
    have hn := congrArg List.length hs
    rw [List.length_append, List.length_replicate, hlength, Nat.add_left_cancel_iff] at hn
    rw [encode_of_decode? hexact hdecode, hn]
    exact hs
  · rintro rfl
    rw [trimEnd_append_replicate (not_mem_encode hsound hmark b)]
    exact ⟨by rw [List.length_append, List.length_replicate], decode?_encode hsound b⟩

end PullThrough.Base64
