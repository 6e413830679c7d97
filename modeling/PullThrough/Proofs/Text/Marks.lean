import PullThrough.Disk.Path
import PullThrough.Text.Split
/-
  Marks inside texts, and the parts of a path.

  A mark that is sought from the end of a text is found where it stands last: right there, if it
  does not stand again in what begins inside it (`Text.cutLast?_mark`), and nowhere, if it does not
  stand in the text (`Text.cutLast?_eq_none`). A path is cut at the last of its inner parts with a
  name (`Path.cutLast?_text`).
-/
namespace PullThrough

/-! ## The last place of a mark -/

namespace Text

variable {mark : List Char}

theorem seek?_eq_none {s : List Char} (h : ¬ mark <:+: s) (seen : List Char) :
    seek? mark seen s = none := by
  induction s generalizing seen with
  | nil => rfl
  | cons d s ih =>
    rw [seek?]
    cases hp : mark.isPrefixOf? (d :: s) with
    | some rest =>
      rw [eq_append_of_isPrefixOf? hp] at h
      exact absurd (List.infix_append [] mark rest) h
    | none => exact ih (fun hi => h (List.infix_cons hi)) _

/-- The first place of a mark is where it stands, unless it stands already in what ends inside
it. -/
theorem seek?_mark (hne : mark ≠ []) {s : List Char} (h : ¬ mark <:+: s ++ mark.dropLast)
    (seen t : List Char) : seek? mark seen (s ++ mark ++ t) = some (s.reverse ++ seen, t) := by
  induction s generalizing seen with
  | nil =>
    obtain ⟨c, m, rfl⟩ := List.exists_cons_of_ne_nil hne
    rw [List.nil_append, List.cons_append, seek?, ← List.cons_append, isPrefixOf?_append]
    rfl
  | cons d s ih =>
    have hrest := ih (fun hi => h (List.infix_cons hi)) (d :: seen)
    rw [List.cons_append, List.cons_append, seek?]
    cases hp : mark.isPrefixOf? (d :: (s ++ mark ++ t)) with
    | none =>
      dsimp only
      rw [hrest]
      simp
    | some rest =>
      have hprefix : mark <+: d :: (s ++ mark ++ t) := ⟨rest, (eq_append_of_isPrefixOf? hp).symm⟩
      have hlonger : d :: s ++ mark.dropLast <+: d :: (s ++ mark ++ t) := by
        refine List.prefix_cons_iff.2 (.inr ⟨_, rfl, ?_⟩)
        rw [List.append_assoc]
        refine List.prefix_append_right_inj _ |>.2 ?_
        exact (List.dropLast_prefix mark).trans (List.prefix_append _ _)
      have hlength : mark.length ≤ (d :: s ++ mark.dropLast).length := by
        simp
        omega
      exact absurd (List.prefix_of_prefix_length_le hprefix hlonger hlength).isInfix h

theorem cutLast?_eq_none {s : List Char} (h : ¬ mark <:+: s) : cutLast? mark s = none := by
  rw [cutLast?, seek?_eq_none (fun hi => h (List.reverse_infix.1 hi))]
  rfl

theorem cutLast?_mark (hne : mark ≠ []) {b : List Char} (h : ¬ mark <:+: mark.tail ++ b)
    (a : List Char) : cutLast? mark (a ++ mark ++ b) = some (a, b) := by
  have hmark : ¬ mark.reverse <:+: b.reverse ++ mark.reverse.dropLast := by
    rw [List.dropLast_reverse, ← List.reverse_append]
    exact fun hi => h (List.reverse_infix.1 hi)
  have hrev : (a ++ mark ++ b).reverse = b.reverse ++ mark.reverse ++ a.reverse := by simp
  rw [cutLast?, hrev, seek?_mark (by simpa using hne) hmark]
  simp

end Text

/-! ## Paths of parts -/

namespace Path

/-- A part between two slashes. -/
def between (part : String) : List Char := '/' :: (part.toList ++ ['/'])

/-- No part has a slash. -/
def IsParted (p : Path) : Prop := ∀ part ∈ p, '/' ∉ part.toList

variable {p q front back : Path} {part : String}

theorem IsParted.subset (hp : p.IsParted) (hq : q ⊆ p) : q.IsParted :=
  fun part hpart => hp part (hq hpart)

@[simp] theorem text_singleton (part : String) : text [part] = part := String.intercalate_singleton

theorem text_append (hf : front ≠ []) (hb : back ≠ []) :
    (text (front ++ back)).toList = (text front).toList ++ '/' :: (text back).toList := by
  rw [text, String.intercalate_append_of_ne_nil hf hb]
  simp [text]

theorem text_cons (part : String) (hp : p ≠ []) :
    (text (part :: p)).toList = part.toList ++ '/' :: (text p).toList := by
  rw [text, String.intercalate_cons_of_ne_nil hp]
  simp [text]

theorem text_append_between (hf : front ≠ []) (hb : back ≠ []) :
    (text (front ++ part :: back)).toList =
      (text front).toList ++ between part ++ (text back).toList := by
  rw [text_append hf (List.cons_ne_nil _ _), text_cons part hb, between]
  simp

theorem text_ofText (s : String) : text (ofText s) = s := by
  apply String.toList_inj.1
  rw [text, ofText, String.toList_intercalate]
  simp [Function.comp_def]

theorem splitOn_text (hp : p.IsParted) (hne : p ≠ []) :
    (text p).toList.splitOn '/' = p.map String.toList := by
  rw [text, String.toList_intercalate]
  refine List.splitOn_intercalate '/' ?_ (by simpa using hne)
  intro l hl
  obtain ⟨part, hpart, rfl⟩ := List.mem_map.1 hl
  exact hp part hpart

/-- A part that stands between two slashes is neither the first nor the last. -/
theorem mem_of_between_isInfix (hp : p.IsParted) (hne : p ≠ []) (hpart : '/' ∉ part.toList)
    (h : between part <:+: (text p).toList) : part ∈ p.tail.dropLast := by
  obtain ⟨a, b, hab⟩ := h
  have hsplit : p.map String.toList = a.splitOn '/' ++ part.toList :: b.splitOn '/' := by
    rw [← splitOn_text hp hne, ← hab, between]
    simp only [List.append_assoc, List.cons_append, List.nil_append]
    rw [List.splitOn_append_cons_self, List.splitOn_append_cons_self_of_not_mem hpart]
  obtain ⟨first, front, hfront⟩ := List.exists_cons_of_ne_nil (List.splitOn_ne_nil '/' a)
  have hback := List.splitOn_ne_nil '/' b
  have hmem : part.toList ∈ (p.map String.toList).tail.dropLast := by
    rw [hsplit, hfront, List.cons_append, List.tail_cons,
      List.dropLast_append_of_ne_nil (List.cons_ne_nil _ _), List.dropLast_cons_of_ne_nil hback]
    simp
  rw [← List.map_tail, ← List.map_dropLast] at hmem
  obtain ⟨same, hsame, heq⟩ := List.mem_map.1 hmem
  rwa [String.toList_inj.1 heq] at hsame

theorem cutLast?_text_eq_none (hp : p.IsParted) (hne : p ≠ []) (hpart : '/' ∉ part.toList)
    (h : part ∉ p.tail.dropLast) : Text.cutLast? (between part) (text p).toList = none :=
  Text.cutLast?_eq_none fun hi => h (mem_of_between_isInfix hp hne hpart hi)

/-- A path is cut at the last of its inner parts with a name. -/
theorem cutLast?_text (hf : front ≠ []) (hb : back ≠ []) (hback : back.IsParted)
    (hpart : '/' ∉ part.toList) (h : part ∉ back.dropLast) :
    Text.cutLast? (between part) (text (front ++ part :: back)).toList =
      some ((text front).toList, (text back).toList) := by
  have hrest : (between part).tail ++ (text back).toList = (text (part :: back)).toList := by
    rw [text_cons part hb, between]
    simp
  have hparted : IsParted (part :: back) := by
    intro other hother
    rcases List.mem_cons.1 hother with rfl | hother
    · exact hpart
    · exact hback other hother
  have hmark : between part ≠ [] := List.cons_ne_nil _ _
  rw [text_append_between hf hb]
  refine Text.cutLast?_mark hmark ?_ _
  rw [hrest]
  exact fun hi => h (mem_of_between_isInfix hparted (List.cons_ne_nil _ _) hpart hi)

end Path

end PullThrough
