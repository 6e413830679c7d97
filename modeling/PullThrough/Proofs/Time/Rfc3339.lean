import Mathlib.Algebra.Group.Nat.Defs
import PullThrough.Proofs.Json.Scalars
import PullThrough.Proofs.Text.Credentials
import PullThrough.Time.Rfc3339
/-
  Instants survive being written and read.

  Reading undoes writing for every instant that a clock can show (`Rfc3339.parse?_text`), and
  whatever is read is such an instant (`Rfc3339.isShown_of_parse?`). The calendar is settled first:
  a day's number is that of its date (`Date.toDays_ofDays`). Then each reader of a part of the text
  is shown to take back just what its writer put there.
-/
namespace PullThrough

/-! ## Dates -/

namespace Date

/-- The year within an era of 400 years, and its days. -/
theorem yearOfEra_bounds {dayOfEra yearOfEra : Int} (h₀ : 0 ≤ dayOfEra) (h₁ : dayOfEra < 146097)
    (hy : yearOfEra =
      (dayOfEra - dayOfEra / 1460 + dayOfEra / 36524 - dayOfEra / 146096) / 365) :
    0 ≤ yearOfEra ∧ yearOfEra < 400 ∧
      365 * yearOfEra + yearOfEra / 4 - yearOfEra / 100 ≤ dayOfEra ∧
      dayOfEra ≤ 365 * yearOfEra + yearOfEra / 4 - yearOfEra / 100 + 365 := by
  -- by centuries, so that the leap days of each can be counted
  have hc : dayOfEra / 36524 = 0 ∨ dayOfEra / 36524 = 1 ∨ dayOfEra / 36524 = 2 ∨
      dayOfEra / 36524 = 3 ∨ dayOfEra = 146096 := by omega
  have hr : 0 ≤ yearOfEra ∧ yearOfEra < 400 := by
    rcases hc with hc | hc | hc | hc | hc <;> omega
  have hq : yearOfEra / 100 = 0 ∨ yearOfEra / 100 = 1 ∨ yearOfEra / 100 = 2 ∨
      yearOfEra / 100 = 3 := by omega
  refine ⟨hr.1, hr.2, ?_⟩
  rcases hc with hc | hc | hc | hc | hc <;> rcases hq with hq | hq | hq | hq <;> omega

/-- A day's number is that of its date. -/
theorem toDays_ofDays (days : Int) : (ofDays days).toDays = days := by
  unfold ofDays
  dsimp only
  generalize hz : days + 719468 = z
  generalize he : z / 146097 = era
  generalize hd : z - era * 146097 = dayOfEra
  generalize hy : (dayOfEra - dayOfEra / 1460 + dayOfEra / 36524 - dayOfEra / 146096) / 365 =
    yearOfEra
  obtain ⟨hy₀, hy₁, hlow, hhigh⟩ := yearOfEra_bounds (by omega) (by omega) hy.symm
  clear hy
  generalize hdy : dayOfEra - (365 * yearOfEra + yearOfEra / 4 - yearOfEra / 100) = dayOfYear
  generalize hm : (5 * dayOfYear + 2) / 153 = m
  have hm₀ : 0 ≤ m ∧ m ≤ 11 := by omega
  have hera : (yearOfEra + era * 400) / 400 = era := by omega
  have hrest : yearOfEra + era * 400 - era * 400 = yearOfEra := by omega
  have hday : ((dayOfYear - (153 * m + 2) / 5 + 1).toNat : Int) =
      dayOfYear - (153 * m + 2) / 5 + 1 := by omega
  unfold toDays
  dsimp only
  rw [hday]
  by_cases hlate : m < 10
  · have hmonth : ((m + 3).toNat : Int) - 3 = m := by omega
    rw [if_pos hlate, if_neg (by omega), if_neg (by omega), if_neg (by omega), hmonth, hera, hrest]
    omega
  · have hmonth : ((m - 9).toNat : Int) + 9 = m := by omega
    have hyear : yearOfEra + era * 400 + 1 - 1 = yearOfEra + era * 400 := by omega
    rw [if_neg hlate, if_pos (by omega), if_pos (by omega), if_pos (by omega), hmonth, hyear, hera,
      hrest]
    omega

theorem month_of_isValid {d : Date} (h : d.isValid = true) : 1 ≤ d.month ∧ d.month ≤ 12 := by
  simp only [isValid, Bool.and_eq_true, decide_eq_true_eq] at h
  exact ⟨h.1.1.1.2, h.1.1.2⟩

theorem day_of_isValid {d : Date} (h : d.isValid = true) : 1 ≤ d.day ∧ d.day ≤ 31 := by
  simp only [isValid, Bool.and_eq_true, decide_eq_true_eq] at h
  have hm : daysInMonth d.year d.month ≤ 31 := by
    unfold daysInMonth
    split
    · split <;> omega
    · split <;> omega
  exact ⟨h.1.2, by omega⟩

end Date

/-- An instant that a clock can show: it has a date, and the nanoseconds reach a second only while
the last second of a minute is held for a leap second. -/
structure Instant.IsShown (t : Instant) : Prop where
  date : t.date.isValid = true
  nanos : t.nanos < 1000000000 ∨ t.nanos < 2000000000 ∧ t.seconds % 60 = 59

namespace Rfc3339

open Text (trimStart isBlank)

/-! ## Numbers -/

theorem isDigit_of_mem_toDigits {n : Nat} {c : Char} (h : c ∈ Nat.toDigits 10 n) :
    isDigit c = true := by
  have hd := Json.toDigits_digit h
  simpa [isDigit, Char.le_def, UInt32.le_iff_toNat_le] using hd

theorem isBlank_of_isDigit {c : Char} (h : isDigit c = true) : isBlank c = false := by
  have hd : 0x30 ≤ c.toNat ∧ c.toNat ≤ 0x39 := by
    simpa [isDigit, Char.le_def, UInt32.le_iff_toNat_le] using h
  simp only [isBlank, Bool.or_eq_false_iff, Bool.and_eq_false_iff, decide_eq_false_iff_not,
    beq_eq_false_iff_ne]
  omega

/-- The digits of a padded number. -/
def digitsOf (width n : Nat) : List Char :=
  List.replicate (width - (Nat.toDigits 10 n).length) '0' ++ Nat.toDigits 10 n

theorem padded_toList (width n : Nat) : (padded width n).toList = digitsOf width n := by
  unfold padded digitsOf
  rw [Nat.toString_eq_ofList_toDigits]
  simp

theorem isDigit_digitsOf {width n : Nat} : ∀ c ∈ digitsOf width n, isDigit c = true := by
  intro c hc
  rcases List.mem_append.1 hc with hc | hc
  · rw [List.eq_of_mem_replicate hc]
    decide
  · exact isDigit_of_mem_toDigits hc

theorem digitsOf_ne_nil (width n : Nat) : digitsOf width n ≠ [] := by
  simp [digitsOf, Nat.toDigits_ne_nil]

theorem length_digitsOf {width n : Nat} (hw : 0 < width) (h : n < 10 ^ width) :
    (digitsOf width n).length = width := by
  have hl := (Nat.length_toDigits_le_iff (by decide) hw).2 h
  simp only [digitsOf, List.length_append, List.length_replicate]
  omega

theorem digitsValue_eq (s : List Char) (n : Nat) :
    s.foldl (fun n c => 10 * n + (c.toNat - 0x30)) n = Nat.ofDigitChars 10 s n := by
  induction s generalizing n with
  | nil => rfl
  | cons c s ih =>
    rw [List.foldl_cons, ih, Nat.ofDigitChars_cons]
    rfl

/-- Zeros in front do not count. -/
theorem digitsValue_digitsOf (width n : Nat) : digitsValue (digitsOf width n) = n := by
  have hzeros : ∀ k, (List.replicate k '0').foldl (fun n c => 10 * n + (c.toNat - 0x30)) 0 = 0 := by
    intro k
    induction k with
    | zero => rfl
    | succ k ih =>
      rw [List.replicate_succ, List.foldl_cons]
      exact ih
  rw [digitsValue, digitsOf, List.foldl_append, hzeros, digitsValue_eq,
    Nat.ofDigitChars_ten_toDigits]

theorem takeWhile_digits {digits : List Char} (hd : ∀ c ∈ digits, isDigit c = true) :
    digits.takeWhile isDigit = digits := by
  have h : (digits ++ []).takeWhile isDigit = digits ++ [].takeWhile isDigit :=
    List.takeWhile_append_of_pos hd
  rwa [List.append_nil, List.takeWhile_nil, List.append_nil] at h

/-- A number is read if its digits fill the width, or end before it. -/
theorem number?_append {width : Nat} {digits rest : List Char} (hd : ∀ c ∈ digits, isDigit c = true)
    (hne : digits ≠ [])
    (hw : digits.length = width ∨ digits.length < width ∧ ∀ c ∈ rest.head?, isDigit c = false) :
    number? width (digits ++ rest) = some (digitsValue digits, rest) := by
  have htake : ((digits ++ rest).take width).takeWhile isDigit = digits := by
    rcases hw with hw | ⟨hw, hr⟩
    · rw [List.take_left' hw, takeWhile_digits hd]
    · obtain ⟨k, rfl⟩ := Nat.exists_eq_add_of_lt hw
      rw [List.take_append, List.take_of_length_le (by omega), List.takeWhile_append_of_pos hd]
      cases rest with
      | nil => simp
      | cons c rest =>
        have hk : digits.length + k + 1 - digits.length = k + 1 := by omega
        rw [hk, List.take_succ_cons, List.takeWhile_cons_of_neg (by simpa using hr c rfl),
          List.append_nil]
  unfold number?
  rw [htake]
  cases digits with
  | nil => exact absurd rfl hne
  | cons c digits => simp

theorem trimStart_digits {digits rest : List Char} (hd : ∀ c ∈ digits, isDigit c = true)
    (hne : digits ≠ []) : trimStart (digits ++ rest) = digits ++ rest := by
  refine Text.trimStart_eq_self fun c hc => isBlank_of_isDigit (hd c ?_)
  cases digits with
  | nil => exact absurd rfl hne
  | cons d digits =>
    obtain rfl : d = c := by simpa using hc
    exact List.mem_cons_self

/-! ## Parts of the text -/

theorem field?_padded {low high n : Nat} (hl : low ≤ n) (hh : n ≤ high) (h : n < 100)
    (rest : List Char) : field? low high (digitsOf 2 n ++ rest) = some (n, rest) := by
  unfold field?
  rw [trimStart_digits isDigit_digitsOf (digitsOf_ne_nil 2 n),
    number?_append isDigit_digitsOf (digitsOf_ne_nil 2 n) (.inl (length_digitsOf (by decide) h)),
    digitsValue_digitsOf]
  simp [hl, hh]

theorem mark?_cons {mark : Char} (h : isBlank mark = false) (rest : List Char) :
    mark? mark (mark :: rest) = some rest := by
  unfold mark?
  rw [Text.trimStart_eq_self (by simpa using h)]
  simp

theorem yearText_toList (y : Int) : (yearText y).toList =
    if 0 ≤ y ∧ y ≤ 9999 then digitsOf 4 y.toNat
    else (if y < 0 then '-' else '+') :: digitsOf 4 y.natAbs := by
  unfold yearText
  split
  · exact padded_toList _ _
  · rw [String.toList_append, padded_toList]
    split <;> rfl

theorem year?_minus (s : List Char) :
    year? ('-' :: s) = (number? s.length s).map fun x => (-(x.1 : Int), x.2) := by
  unfold year?
  rw [Text.trimStart_eq_self (s := '-' :: s) (by simp [show isBlank '-' = false by decide])]
  rfl

theorem year?_plus (s : List Char) :
    year? ('+' :: s) = (number? s.length s).map fun x => ((x.1 : Int), x.2) := by
  unfold year?
  rw [Text.trimStart_eq_self (s := '+' :: s) (by simp [show isBlank '+' = false by decide])]
  rfl

theorem year?_of_isDigit {c : Char} (h : isDigit c = true) (s : List Char) :
    year? (c :: s) = (number? 4 (c :: s)).map fun x => ((x.1 : Int), x.2) := by
  unfold year?
  rw [Text.trimStart_eq_self (s := c :: s) (by simpa using isBlank_of_isDigit h)]
  split
  · next heq => simp_all [isDigit]
  · next heq => simp_all [isDigit]
  · rfl

/-- A year ends at what is no digit. -/
theorem year?_yearText (y : Int) {rest : List Char} (hr : ∀ c ∈ rest.head?, isDigit c = false)
    (hne : rest ≠ []) : year? ((yearText y).toList ++ rest) = some (y, rest) := by
  have hsigned : ∀ n : Nat, number? (digitsOf 4 n ++ rest).length (digitsOf 4 n ++ rest) =
      some (n, rest) := by
    intro n
    have hlt : (digitsOf 4 n).length < (digitsOf 4 n ++ rest).length := by
      have := List.length_pos_iff.2 hne
      rw [List.length_append]
      omega
    rw [number?_append isDigit_digitsOf (digitsOf_ne_nil 4 n) (.inr ⟨hlt, hr⟩),
      digitsValue_digitsOf]
  rw [yearText_toList]
  by_cases hy : 0 ≤ y ∧ y ≤ 9999
  · have hnum : number? 4 (digitsOf 4 y.toNat ++ rest) = some (y.toNat, rest) := by
      rw [number?_append isDigit_digitsOf (digitsOf_ne_nil _ _)
        (.inl (length_digitsOf (by decide) (by omega))), digitsValue_digitsOf]
    have hhead : ∀ c ∈ digitsOf 4 y.toNat, isDigit c = true := isDigit_digitsOf
    have hcast : ((y.toNat : Nat) : Int) = y := by omega
    rw [if_pos hy]
    cases hs : digitsOf 4 y.toNat with
    | nil => exact absurd hs (digitsOf_ne_nil _ _)
    | cons c digits =>
      rw [hs] at hnum
      rw [List.cons_append] at hnum ⊢
      rw [year?_of_isDigit (hhead c (by simp [hs])), hnum, Option.map_some]
      dsimp only
      rw [hcast]
  · rw [if_neg hy, List.cons_append]
    by_cases hn : y < 0
    · rw [if_pos hn, year?_minus, hsigned, Option.map_some]
      dsimp only
      congr 2
      omega
    · rw [if_neg hn, year?_plus, hsigned, Option.map_some]
      dsimp only
      congr 2
      omega

/-- A fraction ends at what is no digit. -/
theorem fraction?_digits {width n : Nat} (hw : 0 < width) (hw' : width ≤ 9) (h : n < 10 ^ width)
    {rest : List Char} (hr : ∀ c ∈ rest.head?, isDigit c = false) :
    fraction? ('.' :: (digitsOf width n ++ rest)) = some (n * 10 ^ (9 - width), rest) := by
  have hrest : rest.takeWhile isDigit = [] ∧ rest.dropWhile isDigit = rest := by
    cases rest with
    | nil => exact ⟨rfl, rfl⟩
    | cons c rest => simp [hr c rfl]
  have hl := length_digitsOf hw h
  have hd : ∀ c ∈ digitsOf width n, isDigit c = true := isDigit_digitsOf
  unfold fraction?
  split
  · next s hpoint =>
    obtain rfl := (List.cons.inj hpoint).2
    rw [List.takeWhile_append_of_pos hd, hrest.1, List.append_nil,
      List.take_of_length_le (by omega), List.dropWhile_append_of_pos hd, hrest.2]
    cases hs : digitsOf width n with
    | nil => exact absurd hs (digitsOf_ne_nil _ _)
    | cons c digits =>
      dsimp only
      rw [← hs, digitsValue_digitsOf, hl]
      rfl
  · next hpoint => exact absurd rfl (hpoint _)

/-- The nanoseconds are read back from as few digits as were written. -/
theorem fraction?_fractionText {nanos : Nat} (h : nanos < 1000000000) {rest : List Char}
    (hr : ∀ c ∈ rest.head?, isDigit c = false ∧ c ≠ '.') :
    fraction? ((fractionText nanos).toList ++ rest) = some (nanos, rest) := by
  have hd : ∀ c ∈ rest.head?, isDigit c = false := fun c hc => (hr c hc).1
  have hpoint : ∀ width n, ("." ++ padded width n).toList ++ rest =
      '.' :: (digitsOf width n ++ rest) := by
    intro width n
    rw [String.toList_append, padded_toList]
    rfl
  unfold fractionText
  split
  · next hn =>
    have hempty : "".toList ++ rest = rest := rfl
    rw [hn, hempty]
    unfold fraction?
    split
    · exact absurd rfl (hr '.' rfl).2
    · rfl
  · split
    · rw [hpoint, fraction?_digits (by decide) (by decide) (by omega) hd]
      congr 2
      omega
    · split
      · rw [hpoint, fraction?_digits (by decide) (by decide) (by omega) hd]
        congr 2
        omega
      · rw [hpoint, fraction?_digits (by decide) (by decide) (by omega) hd]
        congr 2
        omega

/-! ## The whole text -/

theorem text_toList (t : Instant) : (text "Z" t).toList =
    (yearText t.date.year).toList ++ '-' :: (digitsOf 2 t.date.month ++ '-' ::
      (digitsOf 2 t.date.day ++ 'T' :: (digitsOf 2 (t.secondOfDay / 3600) ++ ':' ::
        (digitsOf 2 (t.secondOfDay / 60 % 60) ++ ':' ::
          (digitsOf 2 (t.secondOfDay % 60 + if t.nanos < 1000000000 then 0 else 1) ++
            ((fractionText (t.nanos % 1000000000)).toList ++ ['Z'])))))) := by
  unfold text
  simp [padded_toList]

/-- The seconds of an instant are those of its day and those within the day. -/
theorem seconds_eq (t : Instant) : t.date.toDays * 86400 + (t.secondOfDay / 3600 : Nat) * 3600 +
    (t.secondOfDay / 60 % 60 : Nat) * 60 + (t.secondOfDay % 60 : Nat) = t.seconds := by
  have hdays : t.date.toDays = t.seconds / 86400 := Date.toDays_ofDays _
  have hs : (t.secondOfDay : Int) = t.seconds % 86400 := by
    unfold Instant.secondOfDay
    omega
  rw [hdays]
  omega

/-- Reading undoes writing. -/
theorem parse?_text {t : Instant} (h : t.IsShown) : parse? (text "Z" t) = some t := by
  obtain ⟨hmonth, hmonth'⟩ := Date.month_of_isValid h.date
  obtain ⟨hday, hday'⟩ := Date.day_of_isValid h.date
  have hs : t.secondOfDay < 86400 ∧ (t.secondOfDay : Int) = t.seconds % 86400 := by
    unfold Instant.secondOfDay
    omega
  have hdate : (⟨t.date.year, t.date.month, t.date.day⟩ : Date) = t.date := rfl
  -- the leap second is the sixty-first of its minute
  obtain ⟨second, hsecond⟩ :
      ∃ n, t.secondOfDay % 60 + (if t.nanos < 1000000000 then 0 else 1) = n := ⟨_, rfl⟩
  have hshown := h.nanos
  have hbound : second ≤ 60 := by split at hsecond <;> omega
  have hread : (if second = 60 then 59 else second) = t.secondOfDay % 60 := by
    split at hsecond <;> split <;> omega
  have hnanos : (if second = 60 then t.nanos % 1000000000 + 1000000000
      else t.nanos % 1000000000) = t.nanos := by
    split at hsecond <;> split <;> omega
  have hend : ∀ c ∈ ['Z'].head?, isDigit c = false ∧ c ≠ '.' := by
    intro c hc
    obtain rfl : 'Z' = c := Option.some.inj hc
    decide
  have hmark : ∀ (rest : List Char), ∀ c ∈ ('-' :: rest).head?, isDigit c = false := by
    intro rest c hc
    obtain rfl : '-' = c := Option.some.inj hc
    decide
  unfold parse?
  rw [text_toList, hsecond, year?_yearText _ (hmark _) (List.cons_ne_nil _ _)]
  dsimp only [Option.bind_eq_bind, Option.bind_some]
  rw [mark?_cons (by decide), Option.bind_some, field?_padded hmonth hmonth' (by omega),
    Option.bind_some]
  dsimp only
  rw [mark?_cons (by decide), Option.bind_some, field?_padded hday hday' (by omega),
    Option.bind_some]
  dsimp only [separator?]
  rw [if_pos (.inl rfl), Option.bind_some, field?_padded (by omega) (by omega) (by omega),
    Option.bind_some]
  dsimp only
  rw [mark?_cons (by decide), Option.bind_some, field?_padded (by omega) (by omega) (by omega),
    Option.bind_some]
  dsimp only
  rw [mark?_cons (by decide), Option.bind_some, field?_padded (by omega) hbound (by omega),
    Option.bind_some]
  dsimp only
  rw [fraction?_fractionText (by omega) hend, Option.bind_some]
  dsimp only
  have hzone : zone? (trimStart ['Z']) = some (0, []) := by decide
  rw [hzone, Option.bind_some]
  dsimp only
  rw [hread, hnanos, hdate, seconds_eq, Int.sub_zero]
  exact if_pos ⟨rfl, h.date, by decide, h.date⟩

/-! ## What is read -/

theorem digitsValue_lt {digits : List Char} (hd : ∀ c ∈ digits, isDigit c = true) :
    digitsValue digits < 10 ^ digits.length := by
  have hfold : ∀ (digits : List Char) (n : Nat), (∀ c ∈ digits, isDigit c = true) →
      digits.foldl (fun n c => 10 * n + (c.toNat - 0x30)) n < (n + 1) * 10 ^ digits.length := by
    intro digits
    induction digits with
    | nil =>
      intro n _
      rw [List.foldl_nil, List.length_nil, Nat.pow_zero]
      omega
    | cons c digits ih =>
      intro n hdigits
      have hc : 0x30 ≤ c.toNat ∧ c.toNat ≤ 0x39 := by
        simpa [isDigit, Char.le_def, UInt32.le_iff_toNat_le] using hdigits c (by simp)
      have hrest := ih (10 * n + (c.toNat - 0x30)) fun d hd => hdigits d (by simp [hd])
      have hstep : 10 * n + (c.toNat - 0x30) + 1 ≤ (n + 1) * 10 := by omega
      rw [List.foldl_cons, List.length_cons, Nat.pow_succ', ← Nat.mul_assoc]
      exact Nat.lt_of_lt_of_le hrest (Nat.mul_le_mul_right _ hstep)
  have h := hfold digits 0 hd
  rwa [Nat.zero_add, Nat.one_mul] at h

/-- At most nine digits of a fraction count, so it stays below a second. -/
theorem fraction?_lt {s rest : List Char} {nanos : Nat} (h : fraction? s = some (nanos, rest)) :
    nanos < 1000000000 := by
  unfold fraction? at h
  split at h
  · next s =>
    split at h
    · cases h
    · next hne =>
      generalize hdigits : (s.takeWhile isDigit).take 9 = digits at h hne
      have hd : ∀ c ∈ digits, isDigit c = true := by
        intro c hc
        rw [← hdigits] at hc
        exact List.all_eq_true.1 (List.all_takeWhile (p := isDigit) (l := s)) c
          (List.mem_of_mem_take hc)
      have hlen : digits.length ≤ 9 := by
        rw [← hdigits]
        exact List.length_take_le 9 _
      cases h
      have hpos : 0 < Nat.pow 10 (9 - digits.length) := Nat.pow_pos (by decide)
      have hlt := (Nat.mul_lt_mul_right hpos).2 (digitsValue_lt hd)
      have hpow : 10 ^ digits.length * Nat.pow 10 (9 - digits.length) = 1000000000 := by
        show 10 ^ digits.length * 10 ^ (9 - digits.length) = 1000000000
        rw [← Nat.pow_add, Nat.add_sub_cancel' hlen]
      omega
  · cases h
    decide

/-- Zones are whole minutes. -/
theorem zone?_emod {s rest : List Char} {ahead : Int} (h : zone? s = some (ahead, rest)) :
    ahead % 60 = 0 := by
  have hminutes : ∀ {s rest : List Char} {n : Nat}, zoneHours? s = some (n, rest) → n % 60 = 0 := by
    intro s rest n h
    simp only [zoneHours?, Option.bind_eq_bind, Option.bind_eq_some_iff] at h
    obtain ⟨⟨hours, s'⟩, -, ⟨minutes, s''⟩, -, h⟩ := h
    split at h
    · cases h
      omega
    · cases h
  unfold zone? at h
  split at h
  · split at h
    · cases h
      rfl
    split at h
    · cases h
      rfl
    split at h
    · obtain ⟨⟨n, rest'⟩, hn, heq⟩ := Option.map_eq_some_iff.1 h
      have := hminutes hn
      cases heq
      omega
    split at h
    · obtain ⟨⟨n, rest'⟩, hn, heq⟩ := Option.map_eq_some_iff.1 h
      have := hminutes hn
      cases heq
      omega
    · cases h
  · cases h

/-- Whatever is read, a clock can show it. -/
theorem isShown_of_parse? {s : String} {t : Instant} (h : parse? s = some t) : t.IsShown := by
  obtain ⟨⟨year, s₁⟩, -, h⟩ := Option.bind_eq_some_iff.1 h
  obtain ⟨s₂, -, h⟩ := Option.bind_eq_some_iff.1 h
  obtain ⟨⟨month, s₃⟩, -, h⟩ := Option.bind_eq_some_iff.1 h
  obtain ⟨s₄, -, h⟩ := Option.bind_eq_some_iff.1 h
  obtain ⟨⟨day, s₅⟩, -, h⟩ := Option.bind_eq_some_iff.1 h
  obtain ⟨s₆, -, h⟩ := Option.bind_eq_some_iff.1 h
  obtain ⟨⟨hour, s₇⟩, -, h⟩ := Option.bind_eq_some_iff.1 h
  obtain ⟨s₈, -, h⟩ := Option.bind_eq_some_iff.1 h
  obtain ⟨⟨minute, s₉⟩, -, h⟩ := Option.bind_eq_some_iff.1 h
  obtain ⟨s₁₀, -, h⟩ := Option.bind_eq_some_iff.1 h
  obtain ⟨⟨second, s₁₁⟩, -, h⟩ := Option.bind_eq_some_iff.1 h
  obtain ⟨⟨nanos, s₁₂⟩, hnanos, h⟩ := Option.bind_eq_some_iff.1 h
  obtain ⟨⟨ahead, s₁₃⟩, hahead, h⟩ := Option.bind_eq_some_iff.1 h
  obtain ⟨hvalid, heq⟩ := Option.ite_none_right_eq_some.1 h
  obtain rfl := Option.some.inj heq
  refine ⟨hvalid.2.2.2, ?_⟩
  have hn := fraction?_lt hnanos
  have ha := zone?_emod hahead
  dsimp only
  by_cases hleap : second = 60
  · rw [if_pos hleap, if_pos hleap]
    right
    omega
  · rw [if_neg hleap]
    exact .inl hn

end Rfc3339

end PullThrough
