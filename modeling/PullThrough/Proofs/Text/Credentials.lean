import PullThrough.Gateway.Scope
/-
  The credentials in a header.

  `Presents` says which header presents which credential in which scheme, without an order of
  reading. Headers are read so that just these credentials are found (`credentialsOf_eq_some_iff`).
-/
namespace PullThrough

namespace Text

/-! ## Trimmed texts -/

def AllBlank (s : List Char) : Prop := ∀ c ∈ s, isBlank c = true

theorem allBlank_nil : AllBlank [] := fun _ h => by cases h

/-- There is no blank at either end. -/
def IsTrimmed (s : List Char) : Prop :=
  (∀ c ∈ s.head?, isBlank c = false) ∧ ∀ c ∈ s.getLast?, isBlank c = false

theorem trimStart_append {pad : List Char} (h : AllBlank pad) (s : List Char) :
    trimStart (pad ++ s) = trimStart s := by
  rw [trimStart, List.dropWhile_append_of_pos h]
  rfl

theorem trimStart_eq_self {s : List Char} (h : ∀ c ∈ s.head?, isBlank c = false) :
    trimStart s = s := by
  cases s with
  | nil => rfl
  | cons c s => exact List.dropWhile_cons_of_neg (by simp [h c rfl])

/-- Trimming takes blanks off the front, and none is left there. -/
theorem trimStart_spec (s : List Char) :
    ∃ pad, s = pad ++ trimStart s ∧ AllBlank pad ∧
      ∀ c ∈ (trimStart s).head?, isBlank c = false := by
  refine ⟨s.takeWhile isBlank, List.takeWhile_append_dropWhile.symm, ?_, ?_⟩
  · exact List.all_eq_true.1 List.all_takeWhile
  · intro c hc
    have := List.head?_dropWhile_not isBlank s
    rw [trimStart] at hc
    rw [hc] at this
    simpa using this

theorem trim_append {pad s pad' : List Char} (hpad : AllBlank pad) (hs : IsTrimmed s)
    (hpad' : AllBlank pad') : trim (pad ++ s ++ pad') = s := by
  have hend : trimStart (pad ++ s ++ pad') = trimStart (s ++ pad') := by
    rw [List.append_assoc, trimStart_append hpad]
  cases s with
  | nil =>
    have hblank := trimStart_append hpad' []
    rw [List.append_nil] at hblank
    rw [trim, hend, List.nil_append, hblank]
    rfl
  | cons c s =>
    have hpad'' : AllBlank pad'.reverse := fun d hd => hpad' d (List.mem_reverse.1 hd)
    have hfront : trimStart (c :: s ++ pad') = c :: s ++ pad' := trimStart_eq_self hs.1
    rw [trim, hend, hfront, List.reverse_append, trimStart_append hpad'',
      trimStart_eq_self, List.reverse_reverse]
    rw [List.head?_reverse]
    exact hs.2

/-- A text is what trimming leaves of it between blanks. -/
theorem trim_spec (s : List Char) :
    ∃ pad pad', s = pad ++ trim s ++ pad' ∧ AllBlank pad ∧ AllBlank pad' ∧ IsTrimmed (trim s) := by
  obtain ⟨pad, hs, hpad, hhead⟩ := trimStart_spec s
  obtain ⟨pad', hr, hpad', hlast⟩ := trimStart_spec (trimStart s).reverse
  have ht : trimStart s = trim s ++ pad'.reverse := by
    have := congrArg List.reverse hr
    rwa [List.reverse_reverse, List.reverse_append] at this
  refine ⟨pad, pad'.reverse, ?_, hpad, fun d hd => hpad' d (List.mem_reverse.1 hd), ?_, ?_⟩
  · rw [List.append_assoc, ← ht]
    exact hs
  · intro c hc
    rw [ht, List.head?_append, hc] at hhead
    exact hhead c rfl
  · intro c hc
    rw [trim, List.getLast?_reverse] at hc
    exact hlast c hc

end Text

/-! ## Credentials -/

/-- A header presents a credential in a scheme: blanks, the name of the scheme in any case, a space,
the credential between blanks. -/
def Presents (header : List Char) (scheme : String) (credential : List Char) : Prop :=
  ∃ pad name gap pad', header = pad ++ name ++ ' ' :: gap ++ credential ++ pad' ∧
    Text.AllBlank pad ∧ name.map Char.toLower = scheme.toList.map Char.toLower ∧
    Text.AllBlank gap ∧ credential ≠ [] ∧ Text.IsTrimmed credential ∧ Text.AllBlank pad'

theorem isLower_bounds {c : Char} (h : c.isLower = true) : 0x61 ≤ c.toNat ∧ c.toNat ≤ 0x7A := by
  change (decide (c.val ≥ 'a'.val) && decide (c.val ≤ 'z'.val)) = true at h
  simpa [UInt32.le_iff_toNat_le] using h

theorem isUpper_bounds {c : Char} (h : c.isUpper = true) : 0x41 ≤ c.toNat ∧ c.toNat ≤ 0x5A := by
  change decide (c.val ≥ 'A'.val ∧ c.val ≤ 'Z'.val) = true at h
  simpa [UInt32.le_iff_toNat_le] using h

theorem toLower_of_not_isUpper {c : Char} (h : ¬ c.isUpper = true) : c.toLower = c :=
  dif_neg fun hc => h (decide_eq_true hc)

/-- What is a lower-case letter in the one case or the other is no blank. -/
theorem isBlank_of_letter {c d : Char} (hd : d.isLower = true) (h : c.toLower = d.toLower) :
    Text.isBlank c = false := by
  have hbounds : 0x41 ≤ c.toNat ∧ c.toNat ≤ 0x7A := by
    have hd' := isLower_bounds hd
    by_cases hc : c.isUpper = true
    · have := isUpper_bounds hc
      omega
    · have hdu : ¬ d.isUpper = true := fun hu => by
        have := isUpper_bounds hu
        omega
      rw [toLower_of_not_isUpper hc, toLower_of_not_isUpper hdu] at h
      rw [h]
      omega
  simp only [Text.isBlank, Bool.or_eq_false_iff, Bool.and_eq_false_iff, decide_eq_false_iff_not,
    beq_eq_false_iff_ne]
  omega

theorem isTrimmed_of_presented {name gap credential : List Char}
    (hname : ∀ c ∈ name, Text.isBlank c = false) (hne : name ≠ []) (hc : credential ≠ [])
    (ht : Text.IsTrimmed credential) : Text.IsTrimmed (name ++ ' ' :: gap ++ credential) := by
  constructor
  · intro c h
    cases name with
    | nil => exact absurd rfl hne
    | cons d name =>
      cases h
      exact hname c (by simp)
  · intro c h
    refine ht.2 c ?_
    rw [List.getLast?_append, List.getLast?_eq_some_getLast hc] at h
    rw [List.getLast?_eq_some_getLast hc]
    exact h

/-- What is left of a trimmed text behind a blank is not all blank. -/
theorem trim_ne_nil {name rest : List Char} (h : Text.IsTrimmed (name ++ ' ' :: rest)) :
    Text.trim rest ≠ [] := by
  intro hnil
  obtain ⟨gap, gap', hrest, hgap, hgap', -⟩ := Text.trim_spec rest
  rw [hnil, List.append_nil] at hrest
  have hblank : Text.AllBlank (' ' :: rest) := by
    intro c hc
    rcases List.mem_cons.1 hc with rfl | hc
    · rfl
    · rw [hrest] at hc
      exact (List.mem_append.1 hc).elim (hgap c) (hgap' c)
  have hlast := h.2 ((' ' :: rest).getLast (by simp))
    (by rw [List.getLast?_append, List.getLast?_eq_some_getLast (by simp)]; rfl)
  rw [hblank _ (List.getLast_mem _)] at hlast
  cases hlast

theorem presents_of_credentialsOf {header credential : List Char} {scheme : String}
    (h : credentialsOf header scheme = some credential) : Presents header scheme credential := by
  simp only [credentialsOf, Option.bind_eq_bind, Option.bind_eq_some_iff, Prod.exists] at h
  obtain ⟨name, rest, hcut, h⟩ := h
  split at h
  case isFalse => cases h
  next hname =>
  cases h
  obtain ⟨htrim, -⟩ := Text.cutFirst?_eq_some hcut
  obtain ⟨pad, pad', hheader, hpad, hpad', htrimmed⟩ := Text.trim_spec header
  obtain ⟨gap, gap', hrest, hgap, hgap', hcred⟩ := Text.trim_spec rest
  rw [htrim] at hheader htrimmed
  refine ⟨pad, name, gap, gap' ++ pad', ?_, hpad, eq_of_beq hname, hgap,
    trim_ne_nil htrimmed, hcred, fun c hc => (List.mem_append.1 hc).elim (hgap' c) (hpad' c)⟩
  rw [hrest] at hheader
  simpa using hheader

theorem credentialsOf_of_presents {header credential : List Char} {scheme : String}
    (hs : scheme.toList.all Char.isLower = true) (hne : scheme ≠ "")
    (h : Presents header scheme credential) : credentialsOf header scheme = some credential := by
  obtain ⟨pad, name, gap, pad', rfl, hpad, hname, hgap, hc, htrimmed, hpad'⟩ := h
  have hletters : ∀ c ∈ name, Text.isBlank c = false := by
    intro c hc
    have hm := List.mem_map_of_mem (f := Char.toLower) hc
    rw [hname] at hm
    obtain ⟨d, hd, heq⟩ := List.mem_map.1 hm
    exact isBlank_of_letter (List.all_eq_true.1 hs d hd) heq.symm
  have hnil : name ≠ [] := by
    rintro rfl
    refine hne (String.toList_inj.1 ?_)
    simpa using hname.symm
  have hspace : ' ' ∉ name := by
    intro hm
    exact absurd (hletters ' ' hm) (by decide)
  have hmid : pad ++ name ++ ' ' :: gap ++ credential ++ pad' =
      pad ++ (name ++ ' ' :: gap ++ credential) ++ pad' := by simp
  have hcut : Text.cutFirst? ' ' (name ++ ' ' :: gap ++ credential) =
      some (name, gap ++ credential) := by
    rw [List.append_assoc, List.cons_append]
    exact Text.cutFirst?_append hspace
  have hrest := Text.trim_append hgap htrimmed Text.allBlank_nil
  rw [List.append_nil] at hrest
  rw [credentialsOf, hmid,
    Text.trim_append hpad (isTrimmed_of_presented hletters hnil hc htrimmed) hpad', hcut,
    Option.bind_eq_bind, Option.bind_some]
  dsimp only
  rw [if_pos, hrest]
  rw [sameLetters, hname]
  exact beq_self_eq_true _

/-- The credentials of a scheme that is written in lower case are those that a header presents. -/
theorem credentialsOf_eq_some_iff {header credential : List Char} {scheme : String}
    (hs : scheme.toList.all Char.isLower = true) (hne : scheme ≠ "") :
    credentialsOf header scheme = some credential ↔ Presents header scheme credential :=
  ⟨presents_of_credentialsOf, credentialsOf_of_presents hs hne⟩

/-- A header of the name of a scheme, a space and a credential without blanks
presents the credential. -/
theorem presents_of_unblank {name credential : List Char} {scheme : String}
    (hname : name.map Char.toLower = scheme.toList.map Char.toLower) (hne : credential ≠ [])
    (h : ∀ c ∈ credential, Text.isBlank c = false) :
    Presents (name ++ ' ' :: credential) scheme credential := by
  refine ⟨[], name, [], [], ?_, Text.allBlank_nil, hname, Text.allBlank_nil, hne, ⟨?_, ?_⟩,
    Text.allBlank_nil⟩
  · simp
  · exact fun c hc => h c (List.mem_of_mem_head? hc)
  · exact fun c hc => h c (List.mem_of_getLast? hc)

/-- A header presents one credential in one scheme. -/
theorem Presents.unique {header credential credential' : List Char} {scheme scheme' : String}
    (hs : scheme.toList.all Char.isLower = true) (hne : scheme ≠ "")
    (hs' : scheme'.toList.all Char.isLower = true) (hne' : scheme' ≠ "")
    (h : Presents header scheme credential) (h' : Presents header scheme' credential') :
    scheme.toList.map Char.toLower = scheme'.toList.map Char.toLower ∧
      credential = credential' := by
  have hread := credentialsOf_of_presents hs hne h
  have hread' := credentialsOf_of_presents hs' hne' h'
  unfold credentialsOf at hread hread'
  obtain ⟨⟨given, rest⟩, hcut, hletters⟩ := Option.bind_eq_some_iff.1 hread
  obtain ⟨⟨given', rest'⟩, hcut', hletters'⟩ := Option.bind_eq_some_iff.1 hread'
  obtain ⟨rfl, rfl⟩ := Prod.mk.inj (Option.some.inj (hcut.symm.trans hcut'))
  obtain ⟨hsame, heq⟩ := Option.ite_none_right_eq_some.1 hletters
  obtain ⟨hsame', heq'⟩ := Option.ite_none_right_eq_some.1 hletters'
  exact ⟨(beq_iff_eq.1 hsame).symm.trans (beq_iff_eq.1 hsame'),
    Option.some.inj (heq.symm.trans heq')⟩

end PullThrough
