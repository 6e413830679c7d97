import PullThrough.Proofs.Store.Places
/-
  What checked names are made of.

  A checked group, each part of a checked image and of its repository, a checked tag and a written
  digest are tame (`Path.IsTame`): not empty, no folder relative to itself, and made of letters,
  digits, points, underscores, dashes and colons only. None of the characters that mean something in
  a path or in an address is among these (`Path.IsTame.isFree`).
-/
namespace PullThrough

/-- A character that checked names are made of. -/
def isNameChar (c : Char) : Bool := isAsciiAlnum c || isNameMark c || c == ':'

namespace Path

/-- A plain part without some characters. -/
structure IsFree (marks : List Char) (part : String) : Prop where
  isPlain : IsPlain part
  clear : ∀ c ∈ marks, c ∉ part.toList

/-- A plain part that is made like checked names. -/
structure IsTame (part : String) : Prop where
  isPlain : IsPlain part
  chars : part.toList.all isNameChar = true

variable {part part' : String}

instance : Decidable (IsTame part) :=
  decidable_of_iff (IsPlain part ∧ part.toList.all isNameChar = true)
    ⟨fun h => ⟨h.1, h.2⟩, fun h => ⟨h.isPlain, h.chars⟩⟩

theorem IsTame.isFree {marks : List Char} (h : IsTame part)
    (hmarks : marks.any isNameChar = false) : IsFree marks part := by
  refine ⟨h.isPlain, fun c hc hmem => ?_⟩
  exact List.any_eq_false.1 hmarks c hc (List.all_eq_true.1 h.chars c hmem)

/-- What is added to a name is made like names, if it is. -/
theorem chars_append (h : part.toList.all isNameChar = true)
    (h' : part'.toList.all isNameChar = true) : (part ++ part').toList.all isNameChar = true := by
  rw [String.toList_append, List.all_append, h, h']
  rfl

end Path

open PullThrough.Path (IsTame chars_append)

/-! ## Digests and tags -/

/-- A text without any other character is made of these. -/
theorem isNameChar_of_not_mem {s : List Char}
    (h : ∀ c, isNameChar c = false → c ∉ s) : s.all isNameChar = true := by
  refine List.all_eq_true.2 fun c hc => ?_
  cases hchar : isNameChar c with
  | true => rfl
  | false => exact absurd hc (h c hchar)

/-- Hexadecimal digits are letters and digits. -/
theorem isLower_eq_false {c : Char} (h : isNameChar c = false) : Hex.isLower c = false := by
  simp only [isNameChar, isAsciiAlnum, isAsciiDigit, isAsciiLower, Bool.or_eq_false_iff,
    Bool.and_eq_false_iff, decide_eq_false_iff_not] at h
  simp only [Hex.isLower, Bool.or_eq_false_iff, Bool.and_eq_false_iff, decide_eq_false_iff_not]
  obtain ⟨⟨⟨⟨hdigit, hletter⟩, -⟩, -⟩, -⟩ := h
  refine ⟨hdigit, hletter.imp id fun hz hf => hz ?_⟩
  exact Char.le_trans hf (by decide)

/-- Decimal digits are digits. -/
theorem isDigit_eq_false {c : Char} (h : isNameChar c = false) : c.isDigit = false := by
  simp only [isNameChar, isAsciiAlnum, isAsciiDigit, Bool.or_eq_false_iff] at h
  exact h.1.1.1.1

namespace Digest

theorem chars_hex (d : Digest) : d.hex.toList.all isNameChar = true :=
  isNameChar_of_not_mem fun c hc => d.not_mem_hex c (isLower_eq_false hc)

theorem isTame_text (d : Digest) : IsTame d.text := by
  refine ⟨Place.isPlain_of_length ?_, chars_append (by decide) d.chars_hex⟩
  rw [Name.text_toList, List.length_append, d.length_hex]
  omega

end Digest

namespace Name

variable {group image tag : String}

theorem isTame_of_isGroup (h : isGroup group = true) : IsTame group := by
  refine ⟨isPlain_of_isGroup h, isNameChar_of_not_mem fun c hc => not_mem_of_isGroup h ?_⟩
  exact (Bool.or_eq_false_iff.1 hc).1

theorem isTame_of_isImage (h : isImage image = true) : ∀ part ∈ Path.ofText image, IsTame part := by
  intro part hp
  refine ⟨isPlain_of_isImage h part hp, isNameChar_of_not_mem fun c hc =>
    not_mem_of_isImage h ?_ part hp⟩
  simp only [isNameChar, isAsciiAlnum, Bool.or_eq_false_iff] at hc ⊢
  exact ⟨⟨hc.1.1.1.2, hc.1.1.1.1⟩, hc.1.2⟩

/-- A checked tag is one part of an address. -/
theorem isTame_of_checkTag (h : checkTag tag = .ok ()) : IsTame tag := by
  rcases checkTag_ok_iff.1 h with ⟨d, rfl⟩ | hp
  · exact d.isTame_text
  · simp only [isPlainTag, Bool.and_eq_true, bne_iff_ne, List.all_eq_true] at hp
    obtain ⟨⟨⟨hne, -⟩, hhead⟩, hall⟩ := hp
    refine ⟨⟨?_, ?_, ?_⟩, List.all_eq_true.2 fun c hc => ?_⟩
    · rintro rfl
      exact hne rfl
    · rintro rfl
      exact absurd hhead (by decide)
    · rintro rfl
      exact absurd hhead (by decide)
    · rw [isNameChar, Bool.or_eq_true]
      exact .inl (hall c hc)

theorem chars_tagName (h : checkTag tag = .ok ()) :
    (Store.tagName tag).toList.all isNameChar = true := by
  refine isNameChar_of_not_mem fun c hc => ?_
  refine not_mem_tagName h (Bool.or_eq_false_iff.1 hc).1 (isLower_eq_false hc) fun hmem => ?_
  have hmark : "sha256_".toList.all isNameChar = true := by decide
  rw [List.all_eq_true.1 hmark c hmem] at hc
  cases hc

end Name

/-! ## Repositories -/

namespace Name

theorem isTame_of_repository (h : isImage image = true) :
    ∀ part ∈ Path.ofText (repository image), IsTame part := by
  unfold repository
  split
  · exact isTame_of_isImage h
  · next hslash =>
    have himage : Path.ofText image = [image] :=
      Path.ofText_of_slash_not_mem fun hs => hslash (List.contains_iff_mem.2 hs)
    have hlibrary : Path.ofText ("library/" ++ image) = "library" :: Path.ofText image := by
      have hsplit : ("library/" ++ image).toList =
          "library".toList ++ '/' :: image.toList := by simp
      rw [Path.ofText, hsplit, List.splitOn_append_cons_self_of_not_mem (by decide)]
      rfl
    rw [hlibrary]
    intro part hp
    rcases List.mem_cons.1 hp with rfl | hp
    · decide
    · exact isTame_of_isImage h part hp

end Name

end PullThrough
