import PullThrough.Disk.Basic
/-
  Where paths lead, apart from any disk.

  `Path.location p` is read off the parts of `p` alone. A disk decides whether the way there can be
  gone (`Disk.locate`), but not where it ends (`Disk.location_of_locate`), so two paths can be
  told apart without looking at a disk. The operations of a disk are stated at locations here:
  what they need, and which entry they change.
-/
namespace PullThrough

/-- A part of a path that names something: not empty, and not one of the dots. -/
def Path.IsPlain (part : String) : Prop := part ≠ "" ∧ part ≠ "." ∧ part ≠ ".."

namespace Path

/-- One part further on, whether it is there or not. -/
def follow (here : Location) (part : String) : Location :=
  if part = "" ∨ part = "." then here else if part = ".." then here.dropLast else here ++ [part]

/-- Where a path leads from the root. -/
def location (p : Path) : Location := p.foldl follow []

theorem follow_plain {part : String} (h : IsPlain part) (here : Location) :
    follow here part = here ++ [part] := by
  rw [follow, if_neg (by simp [h.1, h.2.1]), if_neg h.2.2]

theorem location_append (p q : Path) : location (p ++ q) = q.foldl follow (location p) :=
  List.foldl_append

theorem foldl_follow_plain {q : Path} (h : ∀ part ∈ q, IsPlain part) (here : Location) :
    q.foldl follow here = here ++ q := by
  induction q generalizing here with
  | nil => simp
  | cons part q ih =>
    rw [List.foldl_cons, follow_plain (h part (by simp)), ih fun x hx => h x (by simp [hx])]
    simp

/-- Without going up, a path leads on from where any part of it leads. -/
theorem location_prefix {p q : Path} (hdown : ".." ∉ p) (hq : q <+: p) :
    location q <+: location p := by
  have hfollow : ∀ (rest : Path) (here : Location), ".." ∉ rest →
      here <+: rest.foldl follow here := by
    intro rest
    induction rest with
    | nil => exact fun here _ => List.prefix_refl here
    | cons part rest ih =>
      intro here hrest
      simp only [List.mem_cons, not_or] at hrest
      have hone : here <+: follow here part := by
        unfold follow
        split
        · exact List.prefix_refl here
        · rw [if_neg (fun h => hrest.1 h.symm)]
          exact List.prefix_append here [part]
      exact hone.trans (ih _ hrest.2)
  obtain ⟨rest, rfl⟩ := hq
  rw [location_append]
  exact hfollow rest _ fun h => hdown (List.mem_append_right _ h)

/-- Plain parts are appended to the location as they are. -/
theorem location_append_plain (p : Path) {q : Path} (h : ∀ part ∈ q, IsPlain part) :
    location (p ++ q) = location p ++ q := by
  rw [location_append, foldl_follow_plain h]

end Path

namespace Disk

open PullThrough.Path (follow location IsPlain)

variable {d d' : Disk} {p : Path} {l m : Location}

/-! ## Following a path -/

theorem enter_ok {part : String} (h : d.enter l part = .ok m) :
    m = follow l part ∧ d.get? l = some .folder := by
  unfold enter at h
  unfold follow
  split at h
  · simp at h
  · simp at h
  · next hl =>
    refine ⟨?_, hl⟩
    split at h
    · next hp => rw [if_pos hp]; exact (Except.ok.inj h).symm
    · next hp =>
      rw [if_neg hp]
      split at h
      · next hpp => rw [if_pos hpp]; exact (Except.ok.inj h).symm
      · next hpp =>
        rw [if_neg hpp]
        split at h
        · simp at h
        · exact (Except.ok.inj h).symm

/-- A part can be entered wherever there is a folder, if it can be entered from any. -/
theorem enter_mono {part : String} (h : d.enter l part = .ok m) (hl : d'.get? l = some .folder) :
    d'.enter l part = .ok m := by
  have hd := (enter_ok h).2
  unfold enter at h ⊢
  rw [hd] at h
  rw [hl]
  exact h

theorem foldlM_enter_cons {part : String} {q : Path} :
    (part :: q).foldlM d.enter l = d.enter l part >>= fun m => q.foldlM d.enter m := rfl

theorem foldlM_enter_ok {q : Path} (h : q.foldlM d.enter l = .ok m) : m = q.foldl follow l := by
  induction q generalizing l with
  | nil => exact (Except.ok.inj h).symm
  | cons part q ih =>
    rw [foldlM_enter_cons] at h
    cases he : d.enter l part with
    | error e => rw [he] at h; cases h
    | ok n =>
      rw [he] at h
      rw [ih h, (enter_ok he).1]
      rfl

theorem foldlM_enter_mono {q : Path} (hd : ∀ n, d.get? n = some .folder → d'.get? n = some .folder)
    (h : q.foldlM d.enter l = .ok m) : q.foldlM d'.enter l = .ok m := by
  induction q generalizing l with
  | nil => exact h
  | cons part q ih =>
    rw [foldlM_enter_cons] at h ⊢
    cases he : d.enter l part with
    | error e => rw [he] at h; cases h
    | ok n =>
      rw [he] at h
      rw [enter_mono he (hd l (enter_ok he).2)]
      exact ih h

/-- Every folder on a way that can be gone is there. -/
theorem foldlM_enter_folder {q r : Path} {part : String}
    (h : (q ++ part :: r).foldlM d.enter l = .ok m) : d.get? (q.foldl follow l) = some .folder := by
  induction q generalizing l with
  | nil =>
    rw [List.nil_append, foldlM_enter_cons] at h
    cases he : d.enter l part with
    | error e => rw [he] at h; cases h
    | ok n => exact (enter_ok he).2
  | cons first q ih =>
    rw [List.cons_append, foldlM_enter_cons] at h
    cases he : d.enter l first with
    | error e => rw [he] at h; cases h
    | ok n =>
      rw [he] at h
      have hn := (enter_ok he).1
      subst hn
      exact ih h

/-- A way can be gone wherever all of its folders are. -/
theorem foldlM_enter_of_folders {q : Path} (h : q.foldlM d.enter l = .ok m)
    (hd : ∀ r part, r ++ [part] <+: q → d'.get? (r.foldl follow l) = some .folder) :
    q.foldlM d'.enter l = .ok m := by
  induction q generalizing l with
  | nil => exact h
  | cons part q ih =>
    rw [foldlM_enter_cons] at h ⊢
    cases he : d.enter l part with
    | error e => rw [he] at h; cases h
    | ok n =>
      rw [he] at h
      have hl := hd [] part (by simp)
      rw [enter_mono he hl]
      have hn := (enter_ok he).1
      refine ih h fun r last hr => ?_
      rw [hn]
      exact hd (part :: r) last (List.cons_prefix_cons.2 ⟨rfl, hr⟩)

theorem locate_ok (h : d.locate p = .ok l) :
    checkPath p = .ok () ∧ p.foldlM d.enter [] = .ok l := by
  unfold locate at h
  cases hc : checkPath p with
  | error e => rw [hc] at h; cases h
  | ok u => rw [hc] at h; exact ⟨rfl, h⟩

theorem locate_of_check (h : checkPath p = .ok ()) : d.locate p = p.foldlM d.enter [] := by
  unfold locate
  rw [h]
  rfl

/-- A disk decides whether a path can be followed, not where it leads. -/
theorem location_of_locate (h : d.locate p = .ok l) : l = location p :=
  foldlM_enter_ok (locate_ok h).2

theorem locate_mono (hd : ∀ n, d.get? n = some .folder → d'.get? n = some .folder)
    (h : d.locate p = .ok l) : d'.locate p = .ok l := by
  rw [locate_of_check (locate_ok h).1]
  exact foldlM_enter_mono hd (locate_ok h).2

theorem locate_of_folders (h : d.locate p = .ok l)
    (hd : ∀ r part, r ++ [part] <+: p → d'.get? (location r) = some .folder) :
    d'.locate p = .ok l := by
  rw [locate_of_check (locate_ok h).1]
  exact foldlM_enter_of_folders (locate_ok h).2 hd

/-- Any part can be entered from a folder, unless it is too long. -/
theorem enter_of_folder (hl : d.get? l = some .folder) (part : String) :
    d.enter l part = .ok (follow l part) ∨
      d.enter l part = .error .tooLong ∧ maxName < part.utf8ByteSize := by
  unfold enter follow
  rw [hl]
  dsimp only
  split
  · exact .inl rfl
  · split
    · exact .inl rfl
    · split
      · next h => exact .inr ⟨rfl, h⟩
      · exact .inl rfl

/-- A way whose folders are all there can be gone, unless a part is too long. -/
theorem foldlM_enter_of_present {q : Path}
    (hd : ∀ r part, r ++ [part] <+: q → d.get? (r.foldl follow l) = some .folder) :
    q.foldlM d.enter l = .ok (q.foldl follow l) ∨ q.foldlM d.enter l = .error .tooLong := by
  induction q generalizing l with
  | nil => exact .inl rfl
  | cons part q ih =>
    have hl : d.get? l = some .folder := hd [] part (by simp)
    rw [foldlM_enter_cons]
    rcases enter_of_folder hl part with he | ⟨he, -⟩
    · rw [he]
      exact ih fun r last hr => hd (part :: r) last (List.cons_prefix_cons.2 ⟨rfl, hr⟩)
    · exact .inr (by rw [he]; rfl)

/-- A way on which no file stands can be gone, unless something on it is missing. -/
theorem foldlM_enter_of_free {q : Path} (hplain : ∀ part ∈ q, IsPlain part)
    (hshort : ∀ part ∈ q, part.utf8ByteSize ≤ maxName)
    (hfree : ∀ r part, r ++ [part] <+: q → ∀ content, d.get? (l ++ r) ≠ some (.file content)) :
    q.foldlM d.enter l = .ok (l ++ q) ∨
      q.foldlM d.enter l = .error .missing ∧ ∃ r part, r ++ [part] <+: q ∧
        d.get? (l ++ r) = none := by
  induction q generalizing l with
  | nil => exact .inl (by rw [List.append_nil]; rfl)
  | cons part q ih =>
    have hhere := hfree [] part (by simp)
    rw [List.append_nil] at hhere
    rw [foldlM_enter_cons]
    cases hl : d.get? l with
    | none =>
      refine .inr ⟨?_, [], part, by simp, by rwa [List.append_nil]⟩
      rw [enter, hl]
      rfl
    | some e =>
      cases e with
      | file content => exact absurd hl (hhere content)
      | folder =>
        rcases enter_of_folder hl part with he | ⟨-, hlong⟩
        case inr => exact absurd (hshort part (by simp)) (Nat.not_le_of_lt hlong)
        rw [Path.follow_plain (hplain part (by simp))] at he
        have hrest := ih (fun n hn => hplain n (by simp [hn])) (fun n hn => hshort n (by simp [hn]))
          fun r last hr => by
            have := hfree (part :: r) last (List.cons_prefix_cons.2 ⟨rfl, hr⟩)
            rwa [← List.append_cons]
        rw [he]
        rw [← List.append_cons] at hrest
        refine hrest.imp_right ?_
        rintro ⟨hm, r, last, hr, hn⟩
        exact ⟨hm, part :: r, last,
          List.cons_prefix_cons.2 ⟨rfl, hr⟩, by rwa [← List.append_cons] at hn⟩

theorem locate_of_check_error {e : DiskFault} (h : checkPath p = .error e) :
    d.locate p = .error e := by
  unfold locate
  rw [h]
  rfl

/-- A path that cannot be followed on any disk is too long or holds the null character. -/
theorem checkPath_eq_error {e : DiskFault} (h : checkPath p = .error e) :
    e = .tooLong ∨ e = .badName := by
  unfold checkPath at h
  split at h
  · exact .inr (Except.error.inj h).symm
  · split at h
    · exact .inl (Except.error.inj h).symm
    · cases h

theorem pathSize_append (p q : Path) : pathSize (p ++ q) = pathSize p + pathSize q := by
  induction p with
  | nil => exact (Nat.zero_add _).symm
  | cons part p ih =>
    show part.utf8ByteSize + 1 + pathSize (p ++ q) = part.utf8ByteSize + 1 + pathSize p + pathSize q
    omega

theorem size_lt_pathSize {part : String} (h : part ∈ p) : part.utf8ByteSize < pathSize p := by
  induction p with
  | nil => cases h
  | cons first p ih =>
    show part.utf8ByteSize < first.utf8ByteSize + 1 + pathSize p
    rcases List.mem_cons.1 h with rfl | h
    · omega
    · have := ih h
      omega

theorem checkPath_of_size (hclear : ∀ part ∈ p, '\x00' ∉ part.toList)
    (hsize : pathSize p ≤ maxPath + 1) : checkPath p = .ok () := by
  have hnull : (p.any fun part => part.toList.contains '\x00') = false := by
    simpa using hclear
  rw [checkPath, hnull, if_neg (by decide), if_neg (Nat.not_lt.2 hsize)]

theorem checkPath_eq_ok (h : checkPath p = .ok ()) :
    (∀ part ∈ p, '\x00' ∉ part.toList) ∧ pathSize p ≤ maxPath + 1 := by
  unfold checkPath at h
  split at h
  · cases h
  · next hclear =>
    split at h
    · cases h
    · next hsize => exact ⟨by simpa using hclear, Nat.le_of_not_lt hsize⟩

/-- Where one part can be gone last, another can, if it is short. -/
theorem locate_sibling {q : Path} {part part' : String} (h : d.locate (q ++ [part]) = .ok l)
    (hcheck : checkPath (q ++ [part']) = .ok ()) (hshort : part'.utf8ByteSize ≤ maxName) :
    d.locate (q ++ [part']) = .ok (location (q ++ [part'])) := by
  have hq : d.get? (location q) = some .folder := foldlM_enter_folder (locate_ok h).2
  have hway := (locate_ok h).2
  rw [List.foldlM_append] at hway
  rw [locate_of_check hcheck, List.foldlM_append, Path.location_append]
  cases hstart : q.foldlM d.enter [] with
  | error e =>
    rw [hstart] at hway
    cases hway
  | ok m =>
    obtain rfl := foldlM_enter_ok hstart
    rcases enter_of_folder hq part' with he | ⟨-, hlong⟩
    · show (d.enter (location q) part' >>= fun m => [].foldlM d.enter m) = _
      rw [he]
      rfl
    · exact absurd hshort (Nat.not_le_of_lt hlong)

/-- A path whose folders are all there can be followed, unless it is no path of this disk. -/
theorem locate_of_present
    (hd : ∀ r part, r ++ [part] <+: p → d.get? (location r) = some .folder) :
    d.locate p = .ok (location p) ∨ d.locate p = .error .tooLong ∨
      d.locate p = .error .badName := by
  cases hc : checkPath p with
  | ok _ =>
    rw [locate_of_check hc]
    exact (foldlM_enter_of_present hd).imp_right .inl
  | error e =>
    rw [locate_of_check_error hc]
    rcases checkPath_eq_error hc with rfl | rfl
    · exact .inr (.inl rfl)
    · exact .inr (.inr rfl)

theorem folder_of_locate {q r : Path} {part : String} (h : d.locate (q ++ part :: r) = .ok l) :
    d.get? (location q) = some .folder :=
  foldlM_enter_folder (locate_ok h).2

/-- An operation on a path that works has found its location first. -/
theorem locate_bind_ok {f : Location → Except DiskFault α} {a : α} (h : d.locate p >>= f = .ok a) :
    d.locate p = .ok (location p) ∧ f (location p) = .ok a := by
  cases hl : d.locate p with
  | error e => rw [hl] at h; cases h
  | ok l =>
    rw [hl] at h
    obtain rfl := location_of_locate hl
    exact ⟨rfl, h⟩

/-! ## Looking -/

theorem find_eq_ok {e : Entry} (h : d.find p = .ok e) :
    d.locate p = .ok (location p) ∧ d.get? (location p) = some e := by
  obtain ⟨hl, h⟩ := locate_bind_ok h
  refine ⟨hl, ?_⟩
  cases hg : d.get? (location p) with
  | none => simp [hg] at h
  | some x => simpa [hg] using h

theorem find_of_locate {e : Entry} (hl : d.locate p = .ok (location p))
    (hg : d.get? (location p) = some e) : d.find p = .ok e := by
  unfold find
  rw [hl]
  simp [bind, Except.bind, hg]

/-- On the way to what is found there are folders that can be found. -/
theorem find_folder_of_find {q r : Path} {part : String} {e : Entry}
    (h : d.find (q ++ part :: r) = .ok e) : d.find q = .ok .folder := by
  have hl := (find_eq_ok h).1
  obtain ⟨hcheck, hway⟩ := locate_ok hl
  obtain ⟨hclear, hsize⟩ := checkPath_eq_ok hcheck
  rw [pathSize_append] at hsize
  have hcheck' : checkPath q = .ok () :=
    checkPath_of_size (fun part' hp => hclear part' (List.mem_append_left _ hp)) (by omega)
  refine find_of_locate ?_ (folder_of_locate hl)
  rw [List.foldlM_append] at hway
  rw [locate_of_check hcheck']
  cases hstart : q.foldlM d.enter [] with
  | error e' =>
    rw [hstart] at hway
    cases hway
  | ok m => rw [foldlM_enter_ok hstart, location]

/-- Where a path leads to nothing, nothing is found. -/
theorem find_missing (hl : d.locate p = .ok l) (hg : d.get? l = none) :
    d.find p = .error .missing := by
  unfold find
  rw [hl]
  simp [bind, Except.bind, hg]

/-- A folder stays where it was found as long as no folder is taken away. -/
theorem find_folder_mono (hd : ∀ n, d.get? n = some .folder → d'.get? n = some .folder)
    (h : d.find p = .ok .folder) : d'.find p = .ok .folder :=
  have ⟨hl, hg⟩ := find_eq_ok h
  find_of_locate (locate_mono hd hl) (hd _ hg)

theorem read_eq_ok {content : Bytes} (h : d.read p = .ok content) :
    d.find p = .ok (.file content) := by
  unfold read at h
  cases hf : d.find p with
  | error x => rw [hf] at h; cases h
  | ok e =>
    rw [hf] at h
    cases e with
    | folder => cases h
    | file c => rw [Except.ok.inj h]

theorem read_of_find {content : Bytes} (h : d.find p = .ok (.file content)) :
    d.read p = .ok content := by
  unfold read
  rw [h]
  rfl

/-! ## Changing -/

theorem get?_set_of_folder {e : Entry} {m : Location} (hm : d.get? m ≠ some .folder)
    (hl : d.get? l = some .folder) : (d.set m e).get? l = some .folder := by
  rw [get?_set_of_ne]
  · exact hl
  · rintro rfl
    exact hm hl

theorem get?_erase_of_folder {m : Location} (hm : d.get? m ≠ some .folder)
    (hl : d.get? l = some .folder) : (d.erase m).get? l = some .folder := by
  rw [get?_erase_of_ne]
  · exact hl
  · rintro rfl
    exact hm hl

theorem get?_erase_ne_folder {m : Location} (hm : m ≠ []) (hl : d.get? l ≠ some .folder) :
    (d.erase m).get? l ≠ some .folder := by
  by_cases h : l = m
  · rw [h, get?_erase_self hm]
    simp
  · rwa [get?_erase_of_ne h]

theorem create_eq_ok (h : d.create p = .ok d') :
    d.locate p = .ok (location p) ∧ d.get? (location p) ≠ some .folder ∧
      d' = d.set (location p) (.file []) := by
  obtain ⟨hl, h⟩ := locate_bind_ok h
  cases hg : d.get? (location p) with
  | none => simp only [hg] at h; exact ⟨hl, by simp, (Except.ok.inj h).symm⟩
  | some e =>
    cases e with
    | folder => simp [hg] at h
    | file c => simp only [hg] at h; exact ⟨hl, by simp, (Except.ok.inj h).symm⟩

theorem append_eq_ok {data : Bytes} (h : d.append p data = .ok d') :
    d.locate p = .ok (location p) ∧ ∃ content, d.get? (location p) = some (.file content) ∧
      d' = d.set (location p) (.file (content ++ data)) := by
  obtain ⟨hl, h⟩ := locate_bind_ok h
  cases hg : d.get? (location p) with
  | none => simp [hg] at h
  | some e =>
    cases e with
    | folder => simp [hg] at h
    | file c => simp only [hg] at h; exact ⟨hl, c, rfl, (Except.ok.inj h).symm⟩

theorem remove_eq_ok (h : d.remove p = .ok d') :
    d.locate p = .ok (location p) ∧ ∃ content, d.get? (location p) = some (.file content) ∧
      d' = d.erase (location p) := by
  obtain ⟨hl, h⟩ := locate_bind_ok h
  cases hg : d.get? (location p) with
  | none => simp [hg] at h
  | some e =>
    cases e with
    | folder => simp [hg] at h
    | file c => simp only [hg] at h; exact ⟨hl, c, rfl, (Except.ok.inj h).symm⟩

theorem remove_of_file {content : Bytes} (hl : d.locate p = .ok l)
    (hf : d.get? l = some (.file content)) : d.remove p = .ok (d.erase l) := by
  unfold remove
  rw [hl]
  simp [bind, Except.bind, hf]

theorem rename_eq_ok {q : Path} (h : d.rename p q = .ok d') :
    d.locate p = .ok (location p) ∧ d.locate q = .ok (location q) ∧
      ∃ content, d.get? (location p) = some (.file content) ∧
        d.get? (location q) ≠ some .folder ∧
        d' = (d.erase (location p)).set (location q) (.file content) := by
  obtain ⟨hl, h⟩ := locate_bind_ok h
  obtain ⟨hm, h⟩ := locate_bind_ok h
  refine ⟨hl, hm, ?_⟩
  cases hg : d.get? (location p) with
  | none => simp [hg] at h
  | some e =>
    cases e with
    | folder => simp [hg] at h
    | file c =>
      refine ⟨c, rfl, ?_⟩
      cases ht : d.get? (location q) with
      | none => simp only [hg, ht] at h; exact ⟨by simp, (Except.ok.inj h).symm⟩
      | some e =>
        cases e with
        | folder => simp [hg, ht] at h
        | file c' => simp only [hg, ht] at h; exact ⟨by simp, (Except.ok.inj h).symm⟩

/-! ## Making folders -/

/-- What making the folders of `p` one after the other, from `here` on, does to a disk: a location
without an entry may become a folder, if it is on the way and the one before it is a folder. -/
def FoldersMade (d d' : Disk) (here : Location) (p : Path) : Prop :=
  ∀ l, d'.get? l = d.get? l ∨
    d.get? l = none ∧ d'.get? l = some .folder ∧
      ∃ q part, q ++ [part] <+: p ∧ l = (q ++ [part]).foldl follow here ∧
        d'.get? (q.foldl follow here) = some .folder

theorem FoldersMade.folder {here : Location} (h : FoldersMade d d' here p)
    (hl : d.get? l = some .folder) : d'.get? l = some .folder := by
  rcases h l with hd | ⟨hn, -⟩
  · rw [hd]; exact hl
  · rw [hn] at hl; cases hl

theorem FoldersMade.file {here : Location} (h : FoldersMade d d' here p) {content : Bytes} :
    d'.get? l = some (.file content) ↔ d.get? l = some (.file content) := by
  rcases h l with hd | ⟨hn, hf, -⟩
  · rw [hd]
  · simp [hn, hf]

theorem FoldersMade.cons {here : Location} {part : String}
    (h : FoldersMade d d' (follow here part) p) : FoldersMade d d' here (part :: p) := by
  intro l
  rcases h l with hd | ⟨hn, hf, q, last, hq, hl, hprev⟩
  · exact .inl hd
  · exact .inr ⟨hn, hf, part :: q, last, List.cons_prefix_cons.2 ⟨rfl, hq⟩, hl, hprev⟩

theorem foldersMade_from (p : Path) (here : Location) (d : Disk) :
    FoldersMade d (makeFoldersFrom p here d).2 here p := by
  induction p generalizing here d with
  | nil => intro l; exact .inl rfl
  | cons part p ih =>
    unfold makeFoldersFrom
    cases he : d.enter here part with
    | error e => intro l; exact .inl rfl
    | ok m =>
      obtain ⟨rfl, hhere⟩ := enter_ok he
      dsimp only
      cases hm : d.get? (follow here part) with
      | some e =>
        cases e with
        | folder => exact (ih _ _).cons
        | file c => intro l; exact .inl rfl
      | none =>
        have hroot : follow here part ≠ [] := ne_root (d := d) (by simp [hm])
        have h := ih (follow here part) (d.set (follow here part) .folder)
        have hnew := h.folder (get?_set_self hroot)
        have hold : here ≠ follow here part := by
          intro h
          rw [← h, hhere] at hm
          cases hm
        intro l
        by_cases hl : l = follow here part
        · subst hl
          refine .inr ⟨hm, hnew, [], part, ⟨p, rfl⟩, rfl, ?_⟩
          exact h.folder (by rw [List.foldl_nil, get?_set_of_ne hold]; exact hhere)
        · rcases h.cons l with hd | ⟨hn, hf, hq⟩
          · exact .inl (by rw [hd, get?_set_of_ne hl])
          · exact .inr ⟨by rwa [get?_set_of_ne hl] at hn, hf, hq⟩

/-- Folders that were made are there. -/
theorem makeFoldersFrom_ok {here : Location} (hhere : d.get? here = some .folder)
    (h : (makeFoldersFrom p here d).1 = .ok ()) :
    ∀ q, q <+: p → (makeFoldersFrom p here d).2.get? (q.foldl follow here) = some .folder := by
  induction p generalizing here d with
  | nil =>
    intro q hq
    rw [List.prefix_nil.1 hq]
    exact hhere
  | cons part p ih =>
    intro q hq
    rcases List.prefix_cons_iff.1 hq with rfl | ⟨q, rfl, hrest⟩
    · exact (foldersMade_from _ _ _).folder hhere
    unfold makeFoldersFrom at h ⊢
    cases he : d.enter here part with
    | error e => rw [he] at h; cases h
    | ok m =>
      obtain ⟨rfl, -⟩ := enter_ok he
      rw [he] at h
      dsimp only at h ⊢
      cases hm : d.get? (follow here part) with
      | none =>
        rw [hm] at h
        exact ih (get?_set_self (ne_root (d := d) (by simp [hm]))) h q hrest
      | some e =>
        rw [hm] at h
        cases e with
        | folder => exact ih hm h q hrest
        | file content => cases h

theorem makeFolders_ok (h : (d.makeFolders p).1 = .ok ()) {q : Path} (hq : q <+: p) :
    (d.makeFolders p).2.get? (location q) = some .folder := by
  unfold makeFolders at h ⊢
  cases hc : checkPath p with
  | error e => rw [hc] at h; cases h
  | ok _ =>
    rw [hc] at h
    exact makeFoldersFrom_ok d.get?_root h q hq

theorem foldersMade (d : Disk) (p : Path) : FoldersMade d (d.makeFolders p).2 [] p := by
  unfold makeFolders
  split
  · exact foldersMade_from p [] d
  · intro l; exact .inl rfl

/-- Where folders can be made, the way can be gone before, unless something on it is missing. -/
theorem foldlM_enter_of_makeFoldersFrom {here : Location}
    (h : (makeFoldersFrom p here d).1 = .ok ()) :
    p.foldlM d.enter here = .ok (p.foldl follow here) ∨
      p.foldlM d.enter here = .error .missing := by
  induction p generalizing here with
  | nil => exact .inl rfl
  | cons part p ih =>
    unfold makeFoldersFrom at h
    rw [foldlM_enter_cons]
    cases he : d.enter here part with
    | error e =>
      rw [he] at h
      cases h
    | ok m =>
      obtain ⟨rfl, -⟩ := enter_ok he
      rw [he] at h
      dsimp only at h
      cases hm : d.get? (follow here part) with
      | some e =>
        rw [hm] at h
        cases e with
        | folder => exact ih h
        | file content => cases h
      | none =>
        cases p with
        | nil => exact .inl rfl
        | cons next p =>
          refine .inr ?_
          show (d.enter (follow here part) next >>= fun m => p.foldlM d.enter m) = _
          unfold enter
          rw [hm]
          rfl

/-- Where the folders on the way to a free location can be made, nothing is found before. -/
theorem find_of_makeFolders {q : Path} {part : String} (hmade : (d.makeFolders q).1 = .ok ())
    (hcheck : checkPath (q ++ [part]) = .ok ()) (hshort : part.utf8ByteSize ≤ maxName)
    (hnone : d.get? (location (q ++ [part])) = none) : d.find (q ++ [part]) = .error .missing := by
  have hway : q.foldlM d.enter [] = .ok (location q) ∨ q.foldlM d.enter [] = .error .missing := by
    unfold makeFolders at hmade
    cases hc : checkPath q with
    | error e =>
      rw [hc] at hmade
      cases hmade
    | ok _ =>
      rw [hc] at hmade
      exact foldlM_enter_of_makeFoldersFrom hmade
  have hlocate : d.locate (q ++ [part]) = q.foldlM d.enter [] >>= fun m => d.enter m part := by
    rw [locate_of_check hcheck, List.foldlM_append]
    congr 1
    funext m
    show (d.enter m part >>= fun l => pure l) = _
    rw [bind_pure]
  have hmissing : ∀ {e}, d.locate (q ++ [part]) = .error e → d.find (q ++ [part]) = .error e := by
    intro e he
    unfold find
    rw [he]
    rfl
  rcases hway with hway | hway
  · rw [hway] at hlocate
    change d.locate (q ++ [part]) = d.enter (location q) part at hlocate
    cases hq : d.get? (location q) with
    | none =>
      refine hmissing (hlocate.trans ?_)
      unfold enter
      rw [hq]
    | some e =>
      cases e with
      | folder =>
        rcases enter_of_folder hq part with he | ⟨-, hlong⟩
        · refine find_missing (hlocate.trans he) ?_
          rwa [Path.location_append] at hnone
        · exact absurd hshort (Nat.not_le_of_lt hlong)
      | file content =>
        have hfolder := makeFolders_ok hmade (List.prefix_refl q)
        rw [(foldersMade d q).file.2 hq] at hfolder
        cases hfolder
  · rw [hway] at hlocate
    exact hmissing hlocate

end Disk

end PullThrough
