import PullThrough.Proofs.Json.Scalars
import PullThrough.Text.Split
/-
  Reading undoes writing.

  Both ways of writing a document are one (`Json.laidOut`), which differ in the blanks they put
  between the parts. The reader passes over blanks, so it reads back what either of them writes
  (`Json.parse?_compact`, `Json.parse?_pretty`). Every document is read back, also one that holds
  the same key twice or a string that is no text.
-/
namespace PullThrough.Json

/-! ## Blanks -/

def AllBlank (s : Bytes) : Prop := ∀ x ∈ s, isBlank x = true

theorem allBlank_nil : AllBlank [] := fun _ h => by cases h

theorem skipBlanks_append {pad : Bytes} (h : AllBlank pad) (s : Bytes) :
    skipBlanks (pad ++ s) = skipBlanks s := by
  rw [skipBlanks, List.dropWhile_append_of_pos h]
  rfl

theorem skipBlanks_cons {x : UInt8} (h : isBlank x = false) (s : Bytes) :
    skipBlanks (x :: s) = x :: s := by
  rw [skipBlanks, List.dropWhile_cons_of_neg (by simp [h])]

theorem skipBlanks_pad {pad : Bytes} (h : AllBlank pad) {x : UInt8} (hx : isBlank x = false)
    (s : Bytes) : skipBlanks (pad ++ x :: s) = x :: s := by
  rw [skipBlanks_append h, skipBlanks_cons hx]

theorem ends_nil : Ends [] := fun _ h => by cases h

theorem ends_cons {x : UInt8} {s : Bytes} (h : isDigit x = false ∧ x ≠ 0x2E ∧ x ≠ 0x65 ∧ x ≠ 0x45) :
    Ends (x :: s) := fun y hy => by
  cases hy
  exact h

theorem ends_pad {pad : Bytes} (h : AllBlank pad) {s : Bytes} (hs : Ends s) : Ends (pad ++ s) := by
  cases pad with
  | nil => exact hs
  | cons x pad =>
    have hx := h x (by simp)
    simp only [isBlank, Bool.or_eq_true, beq_iff_eq] at hx
    refine ends_cons ?_
    rcases hx with ((rfl | rfl) | rfl) | rfl <;> decide

/-! ## Both ways of writing -/

section Layout

-- what stands before each part and before the closing bracket, and behind each colon
variable (lines : Nat → Bytes) (space : Bytes)

/-- Parts between brackets. -/
def enclosed (opening closing : UInt8) (level : Nat) (parts : List Bytes) : Bytes :=
  if parts.isEmpty then [opening, closing]
  else opening :: (joined (parts.map (lines (level + 1) ++ ·)) ++ lines level ++ [closing])

mutual

/-- A document with some blanks before its parts and behind its colons. -/
def laidOut (level : Nat) : Json → Bytes
  | .array items => enclosed lines 0x5B 0x5D level (itemsLaidOut (level + 1) items)
  | .object members => enclosed lines 0x7B 0x7D level (membersLaidOut (level + 1) members)
  | j => scalar j

def itemsLaidOut (level : Nat) : List Json → List Bytes
  | [] => []
  | j :: rest => laidOut level j :: itemsLaidOut level rest

def membersLaidOut (level : Nat) : List (Bytes × Json) → List Bytes
  | [] => []
  | (key, j) :: rest =>
    (quoted key ++ 0x3A :: (space ++ laidOut level j)) :: membersLaidOut level rest

end

end Layout

mutual

theorem indented_eq (level : Nat) (j : Json) :
    indented level j = laidOut newLine [0x20] level j := by
  cases j with
  | array items => rw [indented, laidOut, indentedItems_eq]; rfl
  | object members => rw [indented, laidOut, indentedMembers_eq]; rfl
  | _ => rfl

theorem indentedItems_eq (level : Nat) (items : List Json) :
    indentedItems level items = itemsLaidOut newLine [0x20] level items := by
  cases items with
  | nil => rfl
  | cons j rest => rw [indentedItems, itemsLaidOut, indented_eq, indentedItems_eq]

theorem indentedMembers_eq (level : Nat) (members : List (Bytes × Json)) :
    indentedMembers level members = membersLaidOut newLine [0x20] level members := by
  cases members with
  | nil => rfl
  | cons m rest =>
    obtain ⟨key, j⟩ := m
    rw [indentedMembers, membersLaidOut, indented_eq, indentedMembers_eq]
    rfl

end

theorem enclosed_none (opening closing : UInt8) (level : Nat) (parts : List Bytes) :
    enclosed (fun _ => []) opening closing level parts =
      opening :: (joined parts ++ [closing]) := by
  cases parts with
  | nil => rfl
  | cons part rest =>
    rw [enclosed, if_neg (by simp)]
    simp

mutual

theorem compact_eq (level : Nat) (j : Json) : compact j = laidOut (fun _ => []) [] level j := by
  cases j with
  | array items => rw [compact, laidOut, compactItems_eq (level + 1), enclosed_none]
  | object members => rw [compact, laidOut, compactMembers_eq (level + 1), enclosed_none]
  | _ => rfl

theorem compactItems_eq (level : Nat) (items : List Json) :
    compactItems items = itemsLaidOut (fun _ => []) [] level items := by
  cases items with
  | nil => rfl
  | cons j rest => rw [compactItems, itemsLaidOut, compact_eq level, compactItems_eq level]

theorem compactMembers_eq (level : Nat) (members : List (Bytes × Json)) :
    compactMembers members = membersLaidOut (fun _ => []) [] level members := by
  cases members with
  | nil => rfl
  | cons m rest =>
    obtain ⟨key, j⟩ := m
    rw [compactMembers, membersLaidOut, compact_eq level, compactMembers_eq level]
    rfl

end

/-! ## Reading -/

theorem joined_cons_cons (part next : Bytes) (rest : List Bytes) :
    joined (part :: next :: rest) = part ++ 0x2C :: joined (next :: rest) := by
  simp [joined]

theorem joined_singleton (part : Bytes) : joined [part] = part := by simp [joined]

section Layout

variable {lines : Nat → Bytes} {space : Bytes}

/-- What is written for a number begins with a sign or a digit. -/
def IsNumberHead (x : UInt8) : Prop := x = 0x2D ∨ isDigit x = true

theorem isNumberHead_bounds {x : UInt8} (h : IsNumberHead x) : 0x2D ≤ x.toNat ∧ x.toNat ≤ 0x39 := by
  rcases h with rfl | h
  · decide
  · simp only [isDigit, Bool.and_eq_true, decide_eq_true_eq, UInt8.le_iff_toNat_le] at h
    exact ⟨Nat.le_trans (by decide) h.1, h.2⟩

theorem ne_of_isNumberHead {x y : UInt8} (h : IsNumberHead x)
    (hy : y.toNat < 0x2D ∨ 0x39 < y.toNat) :
    x ≠ y := by
  rintro rfl
  have := isNumberHead_bounds h
  omega

theorem integerText_head (n : Int) : ∃ x s, integerText n = x :: s ∧ IsNumberHead x := by
  obtain ⟨x, s, hs, hx⟩ := decimalDigits_head n.natAbs
  unfold integerText
  split
  · exact ⟨_, _, rfl, .inl rfl⟩
  · exact ⟨x, s, hs, .inr hx⟩

theorem decimal_head (negative : Bool) (digits : Nat) (exponent : Int) :
    ∃ x s, scalar (.decimal negative digits exponent) = x :: s ∧ IsNumberHead x := by
  obtain ⟨x, s, hs, hx⟩ := decimalDigits_head digits
  cases negative with
  | true => exact ⟨0x2D, _, rfl, .inl rfl⟩
  | false =>
    refine ⟨x, s ++ 0x65 :: integerText exponent, ?_, .inr hx⟩
    show decimalDigits digits ++ 0x65 :: integerText exponent = _
    rw [hs]
    rfl

/-- What is written for a document begins with no blank and with no closing bracket. -/
def IsOpening (x : UInt8) : Prop := isBlank x = false ∧ x ≠ 0x5D ∧ x ≠ 0x7D

instance (x : UInt8) : Decidable (IsOpening x) := inferInstanceAs (Decidable (_ ∧ _))

theorem isOpening_of_isNumberHead {x : UInt8} (h : IsNumberHead x) : IsOpening x := by
  refine ⟨?_, ne_of_isNumberHead h (by decide), ne_of_isNumberHead h (by decide)⟩
  simp only [isBlank, Bool.or_eq_false_iff, beq_eq_false_iff_ne]
  exact ⟨⟨⟨ne_of_isNumberHead h (by decide), ne_of_isNumberHead h (by decide)⟩,
    ne_of_isNumberHead h (by decide)⟩, ne_of_isNumberHead h (by decide)⟩

theorem laidOut_head (lines : Nat → Bytes) (space : Bytes) (level : Nat) (j : Json) :
    ∃ x s, laidOut lines space level j = x :: s ∧ IsOpening x := by
  cases j with
  | null => exact ⟨_, _, (by decide +kernel : scalar .null = [0x6E, 0x75, 0x6C, 0x6C]), by decide⟩
  | bool b =>
    cases b
    · exact ⟨_, _, (by decide +kernel :
        scalar (.bool false) = [0x66, 0x61, 0x6C, 0x73, 0x65]), by decide⟩
    · exact ⟨_, _, (by decide +kernel : scalar (.bool true) = [0x74, 0x72, 0x75, 0x65]), by decide⟩
  | integer n =>
    obtain ⟨x, s, hs, hx⟩ := integerText_head n
    exact ⟨x, s, hs, isOpening_of_isNumberHead hx⟩
  | decimal negative digits exponent =>
    obtain ⟨x, s, hs, hx⟩ := decimal_head negative digits exponent
    exact ⟨x, s, hs, isOpening_of_isNumberHead hx⟩
  | string octets => exact ⟨_, _, rfl, by decide⟩
  | array items =>
    rw [laidOut, enclosed]
    split <;> exact ⟨_, _, rfl, by decide⟩
  | object members =>
    rw [laidOut, enclosed]
    split <;> exact ⟨_, _, rfl, by decide⟩

/-! ### Scalars -/

theorem value?_string {pad : Bytes} (hpad : AllBlank pad) (octets rest : Bytes) (n : Nat) :
    value? (n + 1) (pad ++ (quoted octets ++ rest)) = some (.string octets, rest) := by
  have h : skipBlanks (pad ++ (quoted octets ++ rest)) =
      0x22 :: (octets.flatMap escapeOctet ++ 0x22 :: rest) := by
    rw [quoted, List.cons_append, skipBlanks_pad hpad (by decide), List.append_assoc]
    rfl
  rw [value?, h]
  dsimp only
  rw [if_pos rfl, string?_quoted]
  rfl

theorem value?_number {pad : Bytes} (hpad : AllBlank pad) {x : UInt8} (hx : IsNumberHead x)
    (s : Bytes) (n : Nat) : value? (n + 1) (pad ++ x :: s) = number? (x :: s) := by
  rw [value?, skipBlanks_pad hpad (isOpening_of_isNumberHead hx).1]
  dsimp only
  rw [if_neg (ne_of_isNumberHead hx (by decide)), if_neg (ne_of_isNumberHead hx (by decide)),
    if_neg (ne_of_isNumberHead hx (by decide)), if_neg (ne_of_isNumberHead hx (by decide)),
    if_neg (ne_of_isNumberHead hx (by decide)), if_neg (ne_of_isNumberHead hx (by decide))]

theorem word?_append (word : String) (value : Json) (rest : Bytes) :
    word? word value (Bytes.ofText word ++ rest) = some (value, rest) := by
  rw [word?, Text.isPrefixOf?_append]
  rfl

/-- A word is read if what it begins with leads to it. -/
theorem value?_word {pad : Bytes} (hpad : AllBlank pad) {word : String} {j : Json} {x : UInt8}
    {letters : Bytes} (hword : Bytes.ofText word = x :: letters) (hx : isBlank x = false)
    (hlead : ∀ s n, value? (n + 1) (x :: s) = word? word j (x :: s)) (rest : Bytes) (n : Nat) :
    value? (n + 1) (pad ++ (Bytes.ofText word ++ rest)) = some (j, rest) := by
  have hskip : value? (n + 1) (pad ++ x :: (letters ++ rest)) =
      value? (n + 1) (x :: (letters ++ rest)) := by
    rw [value?, value?, skipBlanks_pad hpad hx, skipBlanks_cons hx]
  have h := word?_append word j rest
  rw [hword, List.cons_append] at h ⊢
  rw [hskip, hlead, h]

/-- Values that hold no others. -/
def IsScalar : Json → Prop
  | .array _ => False
  | .object _ => False
  | _ => True

theorem value?_scalar {pad : Bytes} (hpad : AllBlank pad) {j : Json} (hj : IsScalar j)
    {rest : Bytes}
    (hr : Ends rest) (n : Nat) : value? (n + 1) (pad ++ (scalar j ++ rest)) = some (j, rest) := by
  cases j with
  | null =>
    have hword : Bytes.ofText "null" = [0x6E, 0x75, 0x6C, 0x6C] := by decide +kernel
    refine value?_word hpad hword (by decide) (fun s n => ?_) rest n
    rw [value?, skipBlanks_cons (by decide)]
    rfl
  | bool b =>
    cases b with
    | true =>
      have hword : Bytes.ofText "true" = [0x74, 0x72, 0x75, 0x65] := by decide +kernel
      refine value?_word hpad hword (by decide) (fun s n => ?_) rest n
      rw [value?, skipBlanks_cons (by decide)]
      rfl
    | false =>
      have hword : Bytes.ofText "false" = [0x66, 0x61, 0x6C, 0x73, 0x65] := by decide +kernel
      refine value?_word hpad hword (by decide) (fun s n => ?_) rest n
      rw [value?, skipBlanks_cons (by decide)]
      rfl
  | integer m =>
    have h := number?_integerText m hr
    obtain ⟨x, s, hs, hx⟩ := integerText_head m
    rw [scalar, hs, List.cons_append, value?_number hpad hx, ← List.cons_append, ← hs]
    exact h
  | decimal negative digits exponent =>
    have h := number?_decimal negative digits exponent hr
    obtain ⟨x, s, hs, hx⟩ := decimal_head negative digits exponent
    rw [hs, List.cons_append, value?_number hpad hx, ← List.cons_append, ← hs]
    exact h
  | string octets => exact value?_string hpad octets rest n
  | array items => exact hj.elim
  | object members => exact hj.elim

/-! ### Arrays and objects -/

theorem skipBlanks_skipBlanks (s : Bytes) : skipBlanks (skipBlanks s) = skipBlanks s := by
  induction s with
  | nil => rfl
  | cons x s ih =>
    cases hx : isBlank x with
    | false => rw [skipBlanks_cons hx, skipBlanks_cons hx]
    | true =>
      have hskip : skipBlanks (x :: s) = skipBlanks s := List.dropWhile_cons_of_pos hx
      rw [hskip, ih]

theorem value?_skipBlanks (n : Nat) (s : Bytes) : value? n (skipBlanks s) = value? n s := by
  cases n with
  | zero => rfl
  | succ n => rw [value?, value?, skipBlanks_skipBlanks]

theorem items?_skipBlanks (n : Nat) (s : Bytes) : items? n (skipBlanks s) = items? n s := by
  cases n with
  | zero => rfl
  | succ n => rw [items?, items?, value?_skipBlanks]

theorem members?_skipBlanks (n : Nat) (s : Bytes) : members? n (skipBlanks s) = members? n s := by
  cases n with
  | zero => rfl
  | succ n => rw [members?, members?, skipBlanks_skipBlanks]

/-- The parts of a list, each behind its blanks. -/
def onLines (lines : Nat → Bytes) (level : Nat) (parts : List Bytes) : Bytes :=
  joined (parts.map (lines level ++ ·))

theorem enclosed_cons (opening closing : UInt8) (level : Nat) (part : Bytes) (parts : List Bytes) :
    enclosed lines opening closing level (part :: parts) =
      opening :: (onLines lines (level + 1) (part :: parts) ++ lines level ++ [closing]) := rfl

theorem onLines_cons_cons (level : Nat) (part next : Bytes) (parts : List Bytes) :
    onLines lines level (part :: next :: parts) =
      lines level ++ part ++ 0x2C :: onLines lines level (next :: parts) := by
  simp [onLines, joined_cons_cons]

theorem onLines_singleton (level : Nat) (part : Bytes) :
    onLines lines level [part] = lines level ++ part := by
  simp [onLines, joined_singleton]

/-- What stands on lines begins with blanks and then with its first part. -/
theorem onLines_cons (lines : Nat → Bytes) (level : Nat) (part : Bytes) (parts : List Bytes) :
    ∃ s, onLines lines level (part :: parts) = lines level ++ (part ++ s) := by
  cases parts with
  | nil => exact ⟨[], by rw [onLines_singleton, List.append_nil]⟩
  | cons next parts => exact ⟨_, by rw [onLines_cons_cons, List.append_assoc]⟩

theorem array_reads {pad : Bytes} (hpad : AllBlank pad) {s rest : Bytes} {x : UInt8} {t : Bytes}
    (hs : skipBlanks s = x :: t) (hx : x ≠ 0x5D) {n : Nat} {items : List Json}
    (h : items? n s = some (items, rest)) :
    value? (n + 1) (pad ++ 0x5B :: s) = some (.array items, rest) := by
  rw [value?, skipBlanks_pad hpad (by decide)]
  dsimp only
  rw [if_neg (by decide), if_pos rfl]
  split
  · next hh =>
    rw [hs] at hh
    exact absurd (List.cons.inj hh).1 hx
  · rw [items?_skipBlanks, h]
    rfl

theorem object_reads {pad : Bytes} (hpad : AllBlank pad) {s rest : Bytes} {x : UInt8} {t : Bytes}
    (hs : skipBlanks s = x :: t) (hx : x ≠ 0x7D) {n : Nat} {members : List (Bytes × Json)}
    (h : members? n s = some (members, rest)) :
    value? (n + 1) (pad ++ 0x7B :: s) = some (.object members, rest) := by
  rw [value?, skipBlanks_pad hpad (by decide)]
  dsimp only
  rw [if_neg (by decide), if_neg (by decide), if_pos rfl]
  split
  · next hh =>
    rw [hs] at hh
    exact absurd (List.cons.inj hh).1 hx
  · rw [members?_skipBlanks, h]
    rfl

/-- What follows the value of a member: the end of the object, or its next member. -/
def membersFrom? (n : Nat) (key : Bytes) (j : Json) (s : Bytes) :
    Option (List (Bytes × Json) × Bytes) :=
  match skipBlanks s with
  | 0x7D :: rest => some ([(key, j)], rest)
  | 0x2C :: rest => (members? n rest).map fun (members, rest) => ((key, j) :: members, rest)
  | _ => none

theorem member_reads {pad : Bytes} (hpad : AllBlank pad) (key : Bytes) {s rest : Bytes}
    {j : Json} {n : Nat} (h : value? n s = some (j, rest)) :
    members? (n + 1) (pad ++ (quoted key ++ 0x3A :: s)) = membersFrom? n key j rest := by
  have hq : skipBlanks (pad ++ (quoted key ++ 0x3A :: s)) =
      0x22 :: (key.flatMap escapeOctet ++ 0x22 :: 0x3A :: s) := by
    rw [quoted, List.cons_append, skipBlanks_pad hpad (by decide), List.append_assoc]
    rfl
  have hc : skipBlanks (0x3A :: s) = 0x3A :: s := skipBlanks_cons (by decide) s
  simp only [members?, hq, string?_quoted, hc, h]
  rfl

/-- What follows an item: the end of the array, or its next item. -/
def itemsFrom? (n : Nat) (j : Json) (s : Bytes) : Option (List Json × Bytes) :=
  match skipBlanks s with
  | 0x5D :: rest => some ([j], rest)
  | 0x2C :: rest => (items? n rest).map fun (items, rest) => (j :: items, rest)
  | _ => none

theorem item_reads {s rest : Bytes} {j : Json} {n : Nat} (h : value? n s = some (j, rest)) :
    items? (n + 1) s = itemsFrom? n j rest := by
  rw [items?, h]
  rfl

theorem itemsFrom?_end {gap : Bytes} (hgap : AllBlank gap) (n : Nat) (j : Json) (rest : Bytes) :
    itemsFrom? n j (gap ++ 0x5D :: rest) = some ([j], rest) := by
  rw [itemsFrom?, skipBlanks_pad hgap (by decide)]
  rfl

theorem itemsFrom?_next (n : Nat) (j : Json) (s : Bytes) :
    itemsFrom? n j (0x2C :: s) = (items? n s).map fun (items, rest) => (j :: items, rest) := by
  rw [itemsFrom?, skipBlanks_cons (by decide)]
  rfl

theorem membersFrom?_end {gap : Bytes} (hgap : AllBlank gap) (n : Nat) (key : Bytes) (j : Json)
    (rest : Bytes) : membersFrom? n key j (gap ++ 0x7D :: rest) = some ([(key, j)], rest) := by
  rw [membersFrom?, skipBlanks_pad hgap (by decide)]
  rfl

theorem membersFrom?_next (n : Nat) (key : Bytes) (j : Json) (s : Bytes) :
    membersFrom? n key j (0x2C :: s) =
      (members? n s).map fun (members, rest) => ((key, j) :: members, rest) := by
  rw [membersFrom?, skipBlanks_cons (by decide)]
  rfl

theorem ends_comma (s : Bytes) : Ends (0x2C :: s) := ends_cons (by decide)

theorem ends_close {gap : Bytes} (hgap : AllBlank gap) {x : UInt8} (hx : x = 0x5D ∨ x = 0x7D)
    (rest : Bytes) : Ends (gap ++ x :: rest) := by
  refine ends_pad hgap (ends_cons ?_)
  rcases hx with rfl | rfl <;> decide

/-- Behind the blanks in front of the first part stands what it begins with. -/
theorem skipBlanks_onLines (hl : ∀ level, AllBlank (lines level)) (level : Nat) {x : UInt8}
    {s : Bytes} (hx : isBlank x = false) (parts : List Bytes) (rest : Bytes) :
    ∃ t, skipBlanks (onLines lines level ((x :: s) :: parts) ++ rest) = x :: t := by
  obtain ⟨t, ht⟩ := onLines_cons lines level (x :: s) parts
  refine ⟨s ++ t ++ rest, ?_⟩
  rw [ht, List.append_assoc, List.cons_append, List.cons_append, skipBlanks_pad (hl level) hx]

mutual

/-- A value is read up to what cannot go on with it. -/
theorem value?_laidOut (hl : ∀ level, AllBlank (lines level)) (hs : AllBlank space) (level : Nat)
    (j : Json) {pad : Bytes} (hpad : AllBlank pad) {rest : Bytes} (hr : Ends rest) (n : Nat)
    (hn : 2 * (laidOut lines space level j).length ≤ n) :
    value? n (pad ++ (laidOut lines space level j ++ rest)) = some (j, rest) := by
  obtain ⟨x, s, hx, -⟩ := laidOut_head lines space level j
  obtain ⟨n, rfl⟩ : ∃ m, n = m + 1 := ⟨n - 1, by rw [hx] at hn; simp at hn; omega⟩
  cases j with
  | array items =>
    cases items with
    | nil =>
      show value? (n + 1) (pad ++ 0x5B :: 0x5D :: rest) = _
      rw [value?, skipBlanks_pad hpad (by decide)]
      rfl
    | cons j items =>
      rw [laidOut, itemsLaidOut, enclosed_cons, ← itemsLaidOut] at hn ⊢
      have hitems := items?_laidOut hl hs (level + 1) j items (hl level) rest n
        (by simp at hn; omega)
      obtain ⟨y, u, hy, hopen⟩ := laidOut_head lines space (level + 1) j
      obtain ⟨v, hv⟩ := skipBlanks_onLines hl (level + 1) (s := u) hopen.1
        (itemsLaidOut lines space (level + 1) items) (lines level ++ 0x5D :: rest)
      rw [← hy, ← itemsLaidOut] at hv
      simp only [List.append_assoc, List.cons_append, List.nil_append]
      exact array_reads hpad hv hopen.2.1 hitems
  | object members =>
    cases members with
    | nil =>
      show value? (n + 1) (pad ++ 0x7B :: 0x7D :: rest) = _
      rw [value?, skipBlanks_pad hpad (by decide)]
      rfl
    | cons m members =>
      obtain ⟨key, j⟩ := m
      rw [laidOut, membersLaidOut, enclosed_cons, ← membersLaidOut] at hn ⊢
      have hmembers := members?_laidOut hl hs (level + 1) key j members (hl level) rest n
        (by simp at hn; omega)
      obtain ⟨v, hv⟩ := skipBlanks_onLines hl (level + 1) (x := 0x22)
        (s := key.flatMap escapeOctet ++ [0x22] ++ 0x3A ::
          (space ++ laidOut lines space (level + 1) j))
        (by decide) (membersLaidOut lines space (level + 1) members) (lines level ++ 0x7D :: rest)
      simp only [List.append_assoc, List.cons_append, List.nil_append]
      exact object_reads hpad hv (by decide) hmembers
  | null => exact value?_scalar hpad (j := .null) trivial hr n
  | bool b => exact value?_scalar hpad (j := .bool b) trivial hr n
  | integer m => exact value?_scalar hpad (j := .integer m) trivial hr n
  | decimal negative digits exponent =>
    exact value?_scalar hpad (j := .decimal negative digits exponent) trivial hr n
  | string octets => exact value?_scalar hpad (j := .string octets) trivial hr n
termination_by n

/-- The items of an array are read up to its closing bracket. -/
theorem items?_laidOut (hl : ∀ level, AllBlank (lines level)) (hs : AllBlank space) (level : Nat)
    (j : Json) (items : List Json) {gap : Bytes} (hgap : AllBlank gap) (rest : Bytes) (n : Nat)
    (hn : 2 * (onLines lines level (itemsLaidOut lines space level (j :: items))).length < n) :
    items? n (onLines lines level (itemsLaidOut lines space level (j :: items)) ++
      (gap ++ 0x5D :: rest)) = some (j :: items, rest) := by
  obtain ⟨n, rfl⟩ : ∃ m, n = m + 1 := ⟨n - 1, by omega⟩
  cases items with
  | nil =>
    rw [itemsLaidOut, itemsLaidOut, onLines_singleton] at hn ⊢
    have hv := value?_laidOut hl hs level j (hl level) (ends_close hgap (.inl rfl) rest) n
      (by simp at hn; omega)
    simp only [List.append_assoc]
    rw [item_reads hv, itemsFrom?_end hgap]
  | cons next items =>
    rw [itemsLaidOut, itemsLaidOut, onLines_cons_cons, ← itemsLaidOut] at hn ⊢
    have hrest := items?_laidOut hl hs level next items hgap rest n (by simp at hn; omega)
    have hv := value?_laidOut hl hs level j (hl level) (ends_comma
      (onLines lines level (itemsLaidOut lines space level (next :: items)) ++
        (gap ++ 0x5D :: rest))) n (by simp at hn; omega)
    simp only [List.append_assoc, List.cons_append]
    rw [item_reads hv, itemsFrom?_next, hrest]
    rfl
termination_by n

/-- The members of an object are read up to its closing brace. -/
theorem members?_laidOut (hl : ∀ level, AllBlank (lines level)) (hs : AllBlank space) (level : Nat)
    (key : Bytes) (j : Json) (members : List (Bytes × Json)) {gap : Bytes} (hgap : AllBlank gap)
    (rest : Bytes) (n : Nat)
    (hn : 2 * (onLines lines level
      (membersLaidOut lines space level ((key, j) :: members))).length < n) :
    members? n (onLines lines level (membersLaidOut lines space level ((key, j) :: members)) ++
      (gap ++ 0x7D :: rest)) = some ((key, j) :: members, rest) := by
  obtain ⟨n, rfl⟩ : ∃ m, n = m + 1 := ⟨n - 1, by omega⟩
  cases members with
  | nil =>
    rw [membersLaidOut, membersLaidOut, onLines_singleton] at hn ⊢
    have hv := value?_laidOut hl hs level j hs (ends_close hgap (.inr rfl) rest) n
      (by simp at hn; omega)
    simp only [List.append_assoc, List.cons_append]
    rw [member_reads (hl level) key hv, membersFrom?_end hgap]
  | cons next members =>
    obtain ⟨key', j'⟩ := next
    rw [membersLaidOut, membersLaidOut, onLines_cons_cons, ← membersLaidOut] at hn ⊢
    have hrest := members?_laidOut hl hs level key' j' members hgap rest n (by simp at hn; omega)
    have hv := value?_laidOut hl hs level j hs (ends_comma
      (onLines lines level (membersLaidOut lines space level ((key', j') :: members)) ++
        (gap ++ 0x7D :: rest))) n (by simp at hn; omega)
    simp only [List.append_assoc, List.cons_append]
    rw [member_reads (hl level) key hv, membersFrom?_next, hrest]
    rfl
termination_by n

end

end Layout

/-! ## Documents -/

theorem parse?_laidOut {lines : Nat → Bytes} {space : Bytes} (hl : ∀ level, AllBlank (lines level))
    (hs : AllBlank space) (j : Json) : parse? (laidOut lines space 0 j) = some j := by
  have hv := value?_laidOut hl hs 0 j allBlank_nil ends_nil
    (2 * (laidOut lines space 0 j).length + 2) (by omega)
  rw [List.nil_append, List.append_nil] at hv
  rw [parse?, hv]
  rfl

/-- Reading undoes writing without blanks. -/
theorem parse?_compact (j : Json) : parse? j.compact = some j := by
  rw [compact_eq 0]
  exact parse?_laidOut (fun _ => allBlank_nil) allBlank_nil j

theorem allBlank_newLine (level : Nat) : AllBlank (newLine level) := by
  intro x hx
  rcases List.mem_cons.1 hx with rfl | hx
  · rfl
  · rw [(List.mem_replicate.1 hx).2]
    rfl

/-- Reading undoes writing on lines. -/
theorem parse?_pretty (j : Json) : parse? j.pretty = some j := by
  rw [pretty, indented_eq]
  refine parse?_laidOut allBlank_newLine (fun x hx => ?_) j
  rw [List.mem_singleton.1 hx]
  rfl

/-! ## Fields -/

theorem mapM_map_some {α β γ : Type} {f : β → Option γ} {g : α → β} {h : α → γ} {l : List α}
    (hf : ∀ x ∈ l, f (g x) = some (h x)) : (l.map g).mapM f = some (l.map h) := by
  induction l with
  | nil => rfl
  | cons x l ih =>
    rw [List.map_cons, List.mapM_cons, hf x (by simp), ih fun y hy => hf y (by simp [hy])]
    rfl

theorem ofText_inj {s t : String} : Bytes.ofText s = Bytes.ofText t ↔ s = t := by
  rw [← Bytes.text?_eq_some_iff (b := Bytes.ofText s), Bytes.text?_ofText, Option.some.injEq]

theorem valuesOf_record_none {members : List (String × Json)} {key : String}
    (h : key ∉ members.map (·.1)) :
    valuesOf (Bytes.ofText key) (members.map fun (k, v) => (Bytes.ofText k, v)) = [] := by
  rw [valuesOf, List.map_eq_nil_iff, List.filter_eq_nil_iff]
  intro m hm
  obtain ⟨m', hm', rfl⟩ := List.mem_map.1 hm
  simp only [beq_iff_eq, ofText_inj]
  rintro rfl
  exact h (List.mem_map_of_mem hm')

theorem valuesOf_record {members : List (String × Json)} (hn : (members.map (·.1)).Nodup)
    {key : String} {j : Json} (h : (key, j) ∈ members) :
    valuesOf (Bytes.ofText key) (members.map fun (k, v) => (Bytes.ofText k, v)) = [j] := by
  induction members with
  | nil => cases h
  | cons m members ih =>
    obtain ⟨k, v⟩ := m
    rw [List.map_cons, List.nodup_cons] at hn
    rcases List.mem_cons.1 h with heq | h
    · cases heq
      have := valuesOf_record_none hn.1
      simp only [valuesOf] at this ⊢
      simp [this]
    · have hne : k ≠ key := by
        rintro rfl
        exact hn.1 (List.mem_map.2 ⟨_, h, rfl⟩)
      have := ih hn.2 h
      simp only [valuesOf] at this ⊢
      rw [List.map_cons, List.filter_cons_of_neg (by simpa [ofText_inj] using hne)]
      exact this

/-- The fields of a record, asked for in their order. -/
theorem fields?_record {members : List (String × Json)} (hn : (members.map (·.1)).Nodup) :
    (record members).fields? (members.map (·.1)) = some (members.map fun m => some m.2) := by
  unfold record fields?
  dsimp only
  rw [if_pos]
  · refine mapM_map_some fun m hm => ?_
    rw [valuesOf_record hn hm]
  · simp

theorem fieldsOrItems?_record {members : List (String × Json)} (hn : (members.map (·.1)).Nodup) :
    (record members).fieldsOrItems? (members.map (·.1)) = some (members.map fun m => some m.2) :=
  fields?_record hn

end PullThrough.Json
