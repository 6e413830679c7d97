import PullThrough.Name
import PullThrough.Proofs.Disk.Location
import PullThrough.Store.Layout
/-
  Checked names as parts of paths.

  A checked group is one plain part, a checked image a row of plain parts, and a checked tag has no
  slash. A checked tag is either written digest or plain (`Name.checkTag_ok_iff`), and the
  only plain tag that shares its file name with a digest is the digest with an underscore for its
  colon (`Name.tagName_eq_iff`).
-/
namespace PullThrough

open PullThrough.Path (IsPlain location)

instance (part : String) : Decidable (IsPlain part) :=
  inferInstanceAs (Decidable (_ ∧ _))

/-! ## Groups and images -/

namespace Name

theorem isGroup_of_check {s : String} (h : checkGroup s = .ok ()) : isGroup s = true := by
  unfold checkGroup at h
  split at h
  · assumption
  · cases h

theorem isImage_of_check {s : String} (h : checkImage s = .ok ()) : isImage s = true := by
  unfold checkImage at h
  split at h
  · assumption
  · cases h

/-- What is no name of a folder relative to itself and not empty is plain. -/
theorem plain_of_not_isDots {s : List Char} (hne : s ≠ []) (hd : isDots s = false) :
    IsPlain (String.ofList s) := by
  simp only [isDots, Bool.or_eq_false_iff, beq_eq_false_iff_ne] at hd
  refine ⟨fun h => hne ?_, fun h => hd.1 ?_, fun h => hd.2 ?_⟩
  · simpa using congrArg String.toList h
  · simpa using congrArg String.toList h
  · simpa using congrArg String.toList h

theorem not_mem_of_all {s : List Char} {p : Char → Bool} {c : Char} (h : s.all p = true)
    (hp : p c = false) : c ∉ s := by
  intro hm
  have := List.all_eq_true.1 h _ hm
  rw [hp] at this
  cases this

theorem isPlain_of_isGroup {s : String} (h : isGroup s = true) : IsPlain s := by
  simp only [isGroup, Bool.and_eq_true, Bool.not_eq_true', bne_iff_ne] at h
  have := plain_of_not_isDots h.1.1.1 h.1.2
  rwa [String.ofList_toList] at this

theorem not_mem_of_isGroup {s : String} {c : Char} (h : isGroup s = true)
    (hc : (isAsciiAlnum c || isNameMark c) = false) : c ∉ s.toList := by
  simp only [isGroup, Bool.and_eq_true] at h
  exact not_mem_of_all h.2 hc

theorem slash_not_mem_of_isGroup {s : String} (h : isGroup s = true) : '/' ∉ s.toList :=
  not_mem_of_isGroup h (by decide)

theorem isPlain_of_isComponent {s : List Char} (h : isComponent s = true) :
    IsPlain (String.ofList s) := by
  simp only [isComponent, Bool.and_eq_true, Bool.not_eq_true', bne_iff_ne] at h
  exact plain_of_not_isDots h.1.1.1 h.1.1.2

theorem isPlain_of_isImage {s : String} (h : isImage s = true) :
    ∀ part ∈ Path.ofText s, IsPlain part := by
  intro part hp
  simp only [isImage, Bool.and_eq_true] at h
  obtain ⟨c, hc, rfl⟩ := List.mem_map.1 hp
  exact isPlain_of_isComponent (List.all_eq_true.1 h.2 c hc)

theorem not_mem_of_isImage {s : String} {c : Char} (h : isImage s = true)
    (hc : (isAsciiLower c || isAsciiDigit c || isNameMark c) = false) :
    ∀ part ∈ Path.ofText s, c ∉ part.toList := by
  intro part hp
  simp only [isImage, Bool.and_eq_true] at h
  obtain ⟨component, hmem, rfl⟩ := List.mem_map.1 hp
  have hall := List.all_eq_true.1 h.2 component hmem
  simp only [isComponent, Bool.and_eq_true] at hall
  rw [String.toList_ofList]
  exact not_mem_of_all hall.1.2 hc

theorem head?_of_isImage {s : String} (h : isImage s = true) : s.toList.head? ≠ some '/' := by
  intro hs
  obtain ⟨rest, hr⟩ := List.head?_eq_some_iff.1 hs
  simp only [isImage, Bool.and_eq_true] at h
  have hm : [] ∈ s.toList.splitOn '/' := by
    rw [hr, List.splitOn_cons_eq_if_modifyHead]
    simp
  have := List.all_eq_true.1 h.2 _ hm
  simp [isComponent] at this

end Name

namespace Path

theorem ofText_of_slash_not_mem {s : String} (h : '/' ∉ s.toList) : ofText s = [s] := by
  rw [ofText, List.splitOn_eq_singleton h]
  simp

/-- A text is known by its parts. -/
theorem ofText_inj {s t : String} (h : ofText s = ofText t) : s = t := by
  have hinj : Function.Injective String.ofList := fun a b hab => by
    have := congrArg String.toList hab
    simpa using this
  have hs := (List.map_inj_right (fun a b hab => hinj hab)).1 h
  have hi := congrArg (List.intercalate ['/']) hs
  rw [List.intercalate_splitOn, List.intercalate_splitOn] at hi
  exact String.toList_inj.1 hi

theorem ofText_ne_nil (s : String) : ofText s ≠ [] := by
  simp [ofText]

/-- A text that does not begin at the root is put behind a base that ends in a name. -/
theorem join_of_ne {base : Path} {s : String} (hs : s.toList.head? ≠ some '/')
    (hb : base.getLast? ≠ some "") : base.join s = base ++ ofText s := by
  rw [join, if_neg hs, if_neg hb]

theorem join_name {base : Path} {s : String} (hs : '/' ∉ s.toList) (hb : base.getLast? ≠ some "") :
    base.join s = base ++ [s] := by
  rw [join_of_ne _ hb, ofText_of_slash_not_mem hs]
  intro h
  obtain ⟨rest, hr⟩ := List.head?_eq_some_iff.1 h
  exact hs (by rw [hr]; simp)

theorem trimEnd_append_plain {p : Path} {part : String} (h : IsPlain part) :
    trimEnd (p ++ [part]) = p ++ [part] := by
  simp [trimEnd, h.1, h.2.1]

/-- The folder of a file below a folder. -/
theorem parent_append {p : Path} {folder file : String} (hd : IsPlain folder) (hf : IsPlain file) :
    parent (p ++ [folder, file]) = p ++ [folder] := by
  have h : p ++ [folder, file] = p ++ [folder] ++ [file] := by simp
  rw [parent, h, trimEnd_append_plain hf, List.dropLast_concat, trimEnd_append_plain hd]

theorem ofText_getLast?_ne {s : String} (h : ∀ part ∈ ofText s, IsPlain part) :
    (ofText s).getLast? ≠ some "" := by
  intro hs
  exact (h "" (List.mem_of_getLast? hs)).1 rfl

end Path

/-! ## Tags -/

namespace Digest

@[ext] theorem ext {d e : Digest} (h : d.hex = e.hex) : d = e := by
  cases d
  cases e
  cases h
  rfl

theorem not_mem_hex (c : Char) (d : Digest) (h : Hex.isLower c = false) : c ∉ d.hex.toList :=
  Name.not_mem_of_all d.isLower_hex h

end Digest

namespace Name

theorem text_toList (d : Digest) : d.text.toList = Digest.mark.toList ++ d.hex.toList := by
  simp [Digest.text]

theorem colon_not_mem_of_isPlainTag {tag : String} (h : isPlainTag tag = true) :
    ':' ∉ tag.toList := by
  simp only [isPlainTag, Bool.and_eq_true] at h
  exact not_mem_of_all h.2 (by decide)

theorem checkTag_text (d : Digest) : checkTag d.text = .ok () := by
  have hp : Digest.mark.toList.isPrefixOf d.text.toList = true := by
    rw [text_toList]
    simp
  rw [checkTag, if_pos hp, Digest.parse_text]
  rfl

theorem checkTag_of_isPlainTag {tag : String} (h : isPlainTag tag = true) :
    checkTag tag = .ok () := by
  have hp : ¬ Digest.mark.toList.isPrefixOf tag.toList = true := by
    intro hp
    obtain ⟨rest, hr⟩ := List.isPrefixOf_iff_prefix.1 hp
    refine colon_not_mem_of_isPlainTag h ?_
    rw [← hr]
    exact List.mem_append_left _ (by decide)
  rw [checkTag, if_neg hp, if_pos h]

/-- A tag is a written digest or a plain tag. -/
theorem checkTag_ok_iff {tag : String} :
    checkTag tag = .ok () ↔ (∃ d : Digest, tag = d.text) ∨ isPlainTag tag = true := by
  constructor
  · intro h
    unfold checkTag at h
    split at h
    · cases hd : Digest.parse tag with
      | ok d => exact .inl ⟨d, Digest.parse_eq_ok_iff.1 hd⟩
      | error e => rw [hd] at h; cases h
    · split at h
      · next hp => exact .inr hp
      · cases h
  · rintro (⟨d, rfl⟩ | h)
    · exact checkTag_text d
    · exact checkTag_of_isPlainTag h

theorem map_underscore {s : List Char} (h : ':' ∉ s) :
    s.map (fun c => if c = ':' then '_' else c) = s := by
  have hid : ∀ c ∈ s, (if c = ':' then '_' else c) = id c := by
    intro c hc
    refine if_neg ?_
    rintro rfl
    exact h hc
  rw [List.map_congr_left hid, List.map_id]

/-- The name of a tag's file without its ending is the tag, unless the tag has a colon. -/
theorem tagName_of_colon_not_mem {tag : String} (h : ':' ∉ tag.toList) :
    Store.tagName tag = tag := by
  apply String.toList_inj.1
  rw [Store.tagName, String.toList_ofList, map_underscore h]

/-- The name of a digest as a plain tag. -/
def underscored (d : Digest) : String := "sha256_" ++ d.hex

theorem ne_underscored {tag : String} (h : tag.toList.length ≠ 71) (d : Digest) :
    tag ≠ underscored d := by
  rintro rfl
  exact h (by simp [underscored, d.length_hex])

theorem tagName_text (d : Digest) : Store.tagName d.text = underscored d := by
  apply String.toList_inj.1
  rw [Store.tagName, String.toList_ofList, text_toList, List.map_append, underscored,
    String.toList_append, map_underscore (Digest.not_mem_hex ':' d (by decide))]
  rfl

theorem tagName_underscored (d : Digest) :
    Store.tagName (underscored d) = Store.tagName d.text := by
  have hh := Digest.not_mem_hex ':' d (by decide)
  rw [tagName_text, tagName_of_colon_not_mem]
  simpa [underscored] using hh

/-- Of the checked tags only two share the name that a digest has as a file. -/
theorem tagName_eq_iff {tag : String} (h : checkTag tag = .ok ()) (d : Digest) :
    Store.tagName tag = Store.tagName d.text ↔ tag = d.text ∨ tag = underscored d := by
  constructor
  · intro he
    rcases checkTag_ok_iff.1 h with ⟨e, rfl⟩ | hp
    · rw [tagName_text, tagName_text] at he
      have hh : e.hex = d.hex := by
        apply String.toList_inj.1
        have := congrArg String.toList he
        simpa [underscored] using this
      rw [Digest.ext hh]
      exact .inl rfl
    · rw [tagName_of_colon_not_mem (colon_not_mem_of_isPlainTag hp), tagName_text] at he
      exact .inr he
  · rintro (rfl | rfl)
    · rfl
    · exact tagName_underscored d

/-- Tags of one file: the same tag, or a digest and its name as a plain tag. -/
theorem tagName_inj {tag tag' : String} (h : checkTag tag = .ok ()) (h' : checkTag tag' = .ok ())
    (he : Store.tagName tag = Store.tagName tag') :
    tag = tag' ∨ ∃ d : Digest, tag = d.text ∧ tag' = underscored d ∨
      tag = underscored d ∧ tag' = d.text := by
  rcases checkTag_ok_iff.1 h with ⟨d, rfl⟩ | hp
  · rcases (tagName_eq_iff h' d).1 he.symm with rfl | rfl
    · exact .inl rfl
    · exact .inr ⟨d, .inl ⟨rfl, rfl⟩⟩
  · rcases checkTag_ok_iff.1 h' with ⟨d, rfl⟩ | hp'
    · rcases (tagName_eq_iff h d).1 he with rfl | rfl
      · exact .inl rfl
      · exact .inr ⟨d, .inr ⟨rfl, rfl⟩⟩
    · rw [tagName_of_colon_not_mem (colon_not_mem_of_isPlainTag hp),
        tagName_of_colon_not_mem (colon_not_mem_of_isPlainTag hp')] at he
      exact .inl he

theorem not_mem_tagName {tag : String} {c : Char} (h : checkTag tag = .ok ())
    (hc : (isAsciiAlnum c || isNameMark c) = false) (hhex : Hex.isLower c = false)
    (hmark : c ∉ "sha256_".toList) : c ∉ (Store.tagName tag).toList := by
  rcases checkTag_ok_iff.1 h with ⟨d, rfl⟩ | hp
  · rw [tagName_text, underscored, String.toList_append, List.mem_append, not_or]
    exact ⟨hmark, Digest.not_mem_hex c d hhex⟩
  · rw [tagName_of_colon_not_mem (colon_not_mem_of_isPlainTag hp)]
    simp only [isPlainTag, Bool.and_eq_true] at hp
    exact not_mem_of_all hp.2 hc

theorem slash_not_mem_tagName {tag : String} (h : checkTag tag = .ok ()) :
    '/' ∉ (Store.tagName tag).toList :=
  not_mem_tagName h (by decide) (by decide) (by decide)

end Name

/-! ## Sizes -/

/-- The parts of a text, each with a slash. -/
theorem Path.pathSize_ofText (s : String) : Disk.pathSize (Path.ofText s) = s.utf8ByteSize + 1 := by
  have hparts : ∀ parts : List (List Char), parts ≠ [] → Disk.pathSize (parts.map String.ofList) =
      (String.ofList (['/'].intercalate parts)).utf8ByteSize + 1 := by
    intro parts
    induction parts with
    | nil => exact fun h => absurd rfl h
    | cons p parts ih =>
      intro _
      cases parts with
      | nil =>
        rw [List.intercalate_singleton]
        rfl
      | cons q parts =>
        have hslash : (String.ofList ['/']).utf8ByteSize = 1 := rfl
        have hrest := ih (List.cons_ne_nil _ _)
        rw [List.intercalate_cons_cons, String.ofList_append, String.ofList_append,
          String.utf8ByteSize_append, String.utf8ByteSize_append, hslash, List.map_cons]
        show (String.ofList p).utf8ByteSize + 1 + Disk.pathSize ((q :: parts).map String.ofList) = _
        omega
  have h := hparts (s.toList.splitOn '/') (by simp)
  rwa [List.intercalate_splitOn, String.ofList_toList] at h

theorem Path.size_le_of_mem {s part : String} (h : part ∈ Path.ofText s) :
    part.utf8ByteSize ≤ s.utf8ByteSize := by
  have hlt := Disk.size_lt_pathSize h
  rw [Path.pathSize_ofText] at hlt
  exact Nat.le_of_lt_succ hlt

/-- Each character of ASCII is one octet. -/
theorem size_of_ascii {s : List Char} (h : ∀ c ∈ s, c.toNat < 0x80) :
    (String.ofList s).utf8ByteSize = s.length := by
  induction s with
  | nil => rfl
  | cons c s ih =>
    have hc : c.utf8Size = 1 := by
      refine if_pos ?_
      rw [UInt32.le_iff_toNat_le]
      exact Nat.le_of_lt_succ (h c (by simp))
    rw [String.ofList_cons, String.utf8ByteSize_append, String.utf8ByteSize_singleton, hc,
      ih fun d hd => h d (by simp [hd]), List.length_cons, Nat.add_comm]

theorem Digest.size_hex (d : Digest) : d.hex.utf8ByteSize = 64 := by
  have hascii : ∀ c ∈ d.hex.toList, c.toNat < 0x80 := by
    intro c hc
    have hlower := List.all_eq_true.1 d.isLower_hex c hc
    simp only [Hex.isLower, Bool.or_eq_true, Bool.and_eq_true, decide_eq_true_eq, Char.le_def,
      UInt32.le_iff_toNat_le] at hlower
    have hval : c.val.toNat = c.toNat := rfl
    rw [hval] at hlower
    have h9 : ('9' : Char).val.toNat = 57 := rfl
    have hf : ('f' : Char).val.toNat = 102 := rfl
    omega
  have h := size_of_ascii hascii
  rwa [String.ofList_toList, d.length_hex] at h

namespace Name

theorem size_of_isGroup {s : String} (h : isGroup s = true) : s.utf8ByteSize ≤ 255 := by
  simp only [isGroup, Bool.and_eq_true, decide_eq_true_eq] at h
  exact h.1.1.2

theorem size_of_isImage {s : String} (h : isImage s = true) : s.utf8ByteSize ≤ 255 := by
  simp only [isImage, Bool.and_eq_true, decide_eq_true_eq] at h
  exact h.1

theorem size_tagName {tag : String} (h : checkTag tag = .ok ()) :
    (Store.tagName tag).utf8ByteSize ≤ 128 := by
  rcases checkTag_ok_iff.1 h with ⟨d, rfl⟩ | hp
  · rw [tagName_text, underscored, String.utf8ByteSize_append, d.size_hex]
    decide
  · rw [tagName_of_colon_not_mem (colon_not_mem_of_isPlainTag hp)]
    simp only [isPlainTag, Bool.and_eq_true, decide_eq_true_eq] at hp
    exact hp.1.1.2

end Name

end PullThrough
