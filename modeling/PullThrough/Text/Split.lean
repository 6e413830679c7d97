/-!
Cutting texts at separators. `cutFirst?` and `cutLast?` lose nothing: the parts with the separator
between them are the text again.
-/
namespace PullThrough.Text

/-! ## What follows a mark -/

theorem isPrefixOf?_cons_nil [BEq α] (c : α) (l : List α) : (c :: l).isPrefixOf? [] = none := rfl

theorem isPrefixOf?_cons_cons [BEq α] (c d : α) (l s : List α) :
    (c :: l).isPrefixOf? (d :: s) = if c == d then l.isPrefixOf? s else none := rfl

theorem isPrefixOf?_append [BEq α] [LawfulBEq α] (l r : List α) :
    l.isPrefixOf? (l ++ r) = some r := by
  induction l with
  | nil => rfl
  | cons c l ih => rw [List.cons_append, isPrefixOf?_cons_cons, if_pos (beq_self_eq_true c), ih]

theorem eq_append_of_isPrefixOf? [BEq α] [LawfulBEq α] {l s r : List α}
    (h : l.isPrefixOf? s = some r) : s = l ++ r := by
  induction l generalizing s with
  | nil => exact Option.some.inj h
  | cons c l ih =>
    cases s with
    | nil => exact absurd h (by rw [isPrefixOf?_cons_nil]; simp)
    | cons d s =>
      rw [isPrefixOf?_cons_cons] at h
      split at h
      · next hcd => rw [ih h, eq_of_beq hcd, List.cons_append]
      · simp at h

/-! ## Cutting -/

/-- The parts before and after the first `c`. -/
def cutFirst? (c : Char) (s : List Char) : Option (List Char × List Char) :=
  match s.dropWhile (· != c) with
  | [] => none
  | _ :: b => some (s.takeWhile (· != c), b)

/-- The part before the first `mark`, backwards and behind what was `seen` already, and the part
after it. -/
def seek? (mark : List Char) (seen : List Char) : List Char → Option (List Char × List Char)
  | [] => none
  | d :: s =>
    match mark.isPrefixOf? (d :: s) with
    | some rest => some (seen, rest)
    | none => seek? mark (d :: seen) s

/-- The parts before and after the last place where `mark` stands. -/
def cutLast? (mark s : List Char) : Option (List Char × List Char) :=
  (seek? mark.reverse [] s.reverse).map fun (after, before) => (before.reverse, after)

/-- The text less every `c` at its end. -/
def trimEnd (c : Char) (s : List Char) : List Char :=
  (s.reverse.dropWhile (· == c)).reverse

theorem cutFirst?_eq_some {c : Char} {s a b : List Char} (h : cutFirst? c s = some (a, b)) :
    s = a ++ c :: b ∧ c ∉ a := by
  rw [cutFirst?] at h
  cases hd : s.dropWhile (· != c) with
  | nil => simp [hd] at h
  | cons d r =>
    simp only [hd, Option.some.injEq, Prod.mk.injEq] at h
    obtain ⟨rfl, rfl⟩ := h
    have hc : d = c := by
      have := List.head?_dropWhile_not (· != c) s
      simpa [hd] using this
    refine ⟨?_, fun hm => ?_⟩
    · rw [← hc, ← hd, hc, List.takeWhile_append_dropWhile]
    · simpa using List.all_eq_true.1 (List.all_takeWhile (p := (· != c)) (l := s)) c hm

theorem cutFirst?_append {c : Char} {a b : List Char} (h : c ∉ a) :
    cutFirst? c (a ++ c :: b) = some (a, b) := by
  have ha : ∀ x ∈ a, (x != c) = true := fun x hx => by simp; rintro rfl; exact h hx
  rw [cutFirst?, List.takeWhile_append_of_pos ha, List.dropWhile_append_of_pos ha]
  simp

theorem cutFirst?_eq_some_iff {c : Char} {s a b : List Char} :
    cutFirst? c s = some (a, b) ↔ s = a ++ c :: b ∧ c ∉ a :=
  ⟨cutFirst?_eq_some, fun ⟨h, hc⟩ => h ▸ cutFirst?_append hc⟩

end PullThrough.Text
