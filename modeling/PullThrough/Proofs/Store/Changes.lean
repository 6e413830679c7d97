import Mathlib.Data.List.Induction
import PullThrough.Proofs.Job.Does
import PullThrough.Proofs.Store.Places
/-
  What writing to a cache does to a disk, one change at a time.

  A file gets to its place by four kinds of change (`Store.Change`): folders are made, a scratch
  file is filled, a scratch file is discarded, or it takes its place. This is all that the
  operations of a store do to a disk (`Proofs.Store.Writing`), so an invariant of caches is a
  property that these four keep. Three are stated here:

  * `Store.IsTidy`: the folder of all groups can be reached, what lies below it lies in folders,
    and a file that is named like a digest has that digest.
  * `Store.HasPlainFolders`: no folder lies where only the file of a digest may lie, as long as no
    image has a part `sha256`.
  * `Change.sameFile`: files at other locations stay as they are.
-/
namespace PullThrough.Store

/-- The changes of a disk that writing to some allowed places consists of. -/
inductive Change (s : Store) (allowed : Place → Prop) (d : Disk) : Disk → Prop where
  /-- Folders on the way to a place are made, as far as that works. -/
  | folders (x : Place) (hx : allowed x) :
      Change s allowed d (d.makeFolders (s.groupsFolder ++ x.names.dropLast)).2
  /-- A scratch file gets some content. -/
  | fill (x : Place) (hx : allowed x) (label : String) (content : Bytes)
      (hparent : d.get? (s.root ++ x.names.dropLast) = some .folder)
      (hfile : d.get? (s.locationOf (x.scratch label)) ≠ some .folder) :
      Change s allowed d (d.set (s.locationOf (x.scratch label)) (.file content))
  /-- A scratch file is removed. -/
  | discard (x : Place) (hx : allowed x) (label : String) (content : Bytes)
      (hscratch : d.get? (s.locationOf (x.scratch label)) = some (.file content)) :
      Change s allowed d (d.erase (s.locationOf (x.scratch label)))
  /-- A scratch file whose content fits takes its place. -/
  | place (x : Place) (hx : allowed x) (label : String) (content : Bytes) (hfit : x.fits content)
      (hscratch : d.get? (s.locationOf (x.scratch label)) = some (.file content))
      (hparent : d.get? (s.root ++ x.names.dropLast) = some .folder)
      (hfile : d.get? (s.locationOf x) ≠ some .folder) :
      Change s allowed d
        ((d.erase (s.locationOf (x.scratch label))).set (s.locationOf x) (.file content))

variable {s : Store} {allowed allowed' : Place → Prop} {d d' : Disk} {l : Location}

theorem Change.mono (h : Change s allowed d d') (hsub : ∀ x, allowed x → allowed' x) :
    Change s allowed' d d' := by
  cases h with
  | folders x hx => exact .folders x (hsub x hx)
  | fill x hx label content hp hf => exact .fill x (hsub x hx) label content hp hf
  | discard x hx label content hs => exact .discard x (hsub x hx) label content hs
  | place x hx label content hfit hs hp hf => exact .place x (hsub x hx) label content hfit hs hp hf

/-! ## Locations of places -/

theorem locationOf_eq (s : Store) (x : Place) :
    s.locationOf x = s.root ++ x.names.dropLast ++ [x.file] := by
  rw [locationOf, Place.dropLast_names]
  simp [Place.names]

theorem locationOf_ne_nil (s : Store) (x : Place) : s.locationOf x ≠ [] := by
  rw [locationOf_eq]
  simp

theorem locationOf_inj {x y : Place} (h : s.locationOf x = s.locationOf y) : x.names = y.names :=
  List.append_cancel_left h

theorem scratch_ne (s : Store) (x : Place) (label : String) :
    s.locationOf (x.scratch label) ≠ s.locationOf x :=
  fun h => x.scratch_names_ne label (locationOf_inj h)

/-! ## Folders stay, files elsewhere stay -/

/-- No change takes a folder away. -/
theorem Change.folder (h : Change s allowed d d') (hl : d.get? l = some .folder) :
    d'.get? l = some .folder := by
  cases h with
  | folders x hx => exact (Disk.foldersMade d _).folder hl
  | fill x hx label content hp hf => exact Disk.get?_set_of_folder hf hl
  | discard x hx label content hs => exact Disk.get?_erase_of_folder (by simp [hs]) hl
  | place x hx label content hfit hs hp hf =>
    have hsc : d.get? (s.locationOf (x.scratch label)) ≠ some .folder := by simp [hs]
    exact Disk.get?_set_of_folder (Disk.get?_erase_ne_folder (s.locationOf_ne_nil _) hf)
      (Disk.get?_erase_of_folder hsc hl)

/-- A location holds the same file on two disks, if it holds a file on one of them. -/
def SameFile (l : Location) (d d' : Disk) : Prop :=
  ∀ content, d'.get? l = some (.file content) ↔ d.get? l = some (.file content)

theorem SameFile.refl (l : Location) (d : Disk) : SameFile l d d := fun _ => Iff.rfl

theorem SameFile.trans {l : Location} {d₁ d₂ d₃ : Disk} (h : SameFile l d₁ d₂)
    (h' : SameFile l d₂ d₃) : SameFile l d₁ d₃ := fun content => (h' content).trans (h content)

theorem SameFile.set {l m : Location} {e : Entry} (h : l ≠ m) : SameFile l d (d.set m e) :=
  fun content => by rw [Disk.get?_set_of_ne h]

theorem SameFile.erase {l m : Location} (h : l ≠ m) : SameFile l d (d.erase m) :=
  fun content => by rw [Disk.get?_erase_of_ne h]

theorem SameFile.makeFolders (l : Location) (p : Path) : SameFile l d (d.makeFolders p).2 :=
  fun _ => (Disk.foldersMade d p).file

/-- A file that is neither at an allowed place nor beside one stays as it is. -/
theorem Change.sameFile (h : Change s allowed d d') (hplace : ∀ x, allowed x → l ≠ s.locationOf x)
    (hscratch : ∀ x label, allowed x → l ≠ s.locationOf (x.scratch label)) : SameFile l d d' := by
  cases h with
  | folders x hx => exact SameFile.makeFolders _ _
  | fill x hx label c hp hf => exact SameFile.set (hscratch x label hx)
  | discard x hx label c hs => exact SameFile.erase (hscratch x label hx)
  | place x hx label c hfit hs hp hf =>
    exact (SameFile.erase (hscratch x label hx)).trans (SameFile.set (hplace x hx))

/-- A file that is no scratch file may be replaced, but is not taken away. -/
theorem Change.present (h : Change s allowed d d') {x : Place} (hx : x.IsOwn) {content : Bytes}
    (hf : d.get? (s.locationOf x) = some (.file content)) :
    ∃ content', d'.get? (s.locationOf x) = some (.file content') := by
  have hscratch : ∀ (y : Place) (label : String), s.locationOf x ≠ s.locationOf (y.scratch label) :=
    fun y label hl => hx y label (locationOf_inj hl)
  cases h with
  | folders y hy => exact ⟨content, (SameFile.makeFolders _ _ _).2 hf⟩
  | fill y hy label c hp hfile => exact ⟨content, by rwa [Disk.get?_set_of_ne (hscratch y label)]⟩
  | discard y hy label c hs => exact ⟨content, by rwa [Disk.get?_erase_of_ne (hscratch y label)]⟩
  | place y hy label c hfit hs hp hfile =>
    by_cases hl : s.locationOf x = s.locationOf y
    · exact ⟨c, by rw [hl, Disk.get?_set_self (s.locationOf_ne_nil y)]⟩
    · exact ⟨content, by rwa [Disk.get?_set_of_ne hl, Disk.get?_erase_of_ne (hscratch y label)]⟩

/-- What writing to some places leaves alone: all folders, and the files at all other places but
those of scratch files. At its own places it leaves some file. -/
structure Leaves (s : Store) (allowed : Place → Prop) (d d' : Disk) : Prop where
  folder : ∀ l, d.get? l = some .folder → d'.get? l = some .folder
  present : ∀ x : Place, x.IsOwn → ∀ content, d.get? (s.locationOf x) = some (.file content) →
    ∃ content', d'.get? (s.locationOf x) = some (.file content')
  file : ∀ x : Place, x.IsOwn → (∀ y, allowed y → x.names ≠ y.names) →
    SameFile (s.locationOf x) d d'

theorem Leaves.refl (s : Store) (allowed : Place → Prop) (d : Disk) : s.Leaves allowed d d :=
  ⟨fun _ hl => hl, fun _ _ content hf => ⟨content, hf⟩, fun _ _ _ => SameFile.refl _ _⟩

theorem Leaves.trans {d₁ d₂ d₃ : Disk} (h : s.Leaves allowed d₁ d₂) (h' : s.Leaves allowed d₂ d₃) :
    s.Leaves allowed d₁ d₃ where
  folder l hl := h'.folder l (h.folder l hl)
  present x hx content hf := by
    obtain ⟨content', hf'⟩ := h.present x hx content hf
    exact h'.present x hx content' hf'
  file x hx hy := (h.file x hx hy).trans (h'.file x hx hy)

theorem Leaves.other {x y : Place} (h : s.Leaves (Eq y) d d') (hx : x.IsOwn)
    (hn : x.names ≠ y.names) : SameFile (s.locationOf x) d d' := by
  refine h.file x hx ?_
  rintro _ rfl
  exact hn

theorem Change.leaves (h : Change s allowed d d') : s.Leaves allowed d d' where
  folder _ hl := h.folder hl
  present _ hx _ hf := h.present hx hf
  file _ hx hy := h.sameFile (fun y ha hl => hy y ha (locationOf_inj hl))
    fun y label _ hl => hx y label (locationOf_inj hl)

/-- What writing to some places leaves alone over a whole run. -/
theorem leaves_of_does {α : Type} {j : Job α} {w : World} {Q : α → World → Prop}
    (h : j.Does (s.Change allowed) w Q) : s.Leaves allowed w.disk (j.run w).2.disk :=
  (h.keeps (I := s.Leaves allowed w.disk) (fun _ _ hd hc => hd.trans hc.leaves)
    (Leaves.refl s allowed w.disk)).run.2

/-! ## The folder of all groups -/

theorem root_of_ready (h : d.find s.groupsFolder = .ok .folder) : d.get? s.root = some .folder :=
  (Disk.find_eq_ok h).2

/-- If the folder of all groups can be reached, every folder on the way to it is there. -/
theorem onWay_of_ready (h : d.find s.groupsFolder = .ok .folder) {q : Path}
    (hq : q <+: s.groupsFolder) : d.get? (Path.location q) = some .folder := by
  obtain ⟨r, hr⟩ := hq
  cases r with
  | nil =>
    rw [List.append_nil] at hr
    rw [hr]
    exact root_of_ready h
  | cons part r =>
    have hl := (Disk.find_eq_ok h).1
    rw [← hr] at hl
    exact Disk.folder_of_locate hl

/-- Below the folder of all groups, if that can be reached, and nowhere else folders are made. -/
theorem folders_of_ready (h : d.find s.groupsFolder = .ok .folder) {names : Location}
    (hplain : ∀ n ∈ names, Path.IsPlain n) (l : Location) :
    (d.makeFolders (s.groupsFolder ++ names)).2.get? l = d.get? l ∨
      d.get? l = none ∧ (d.makeFolders (s.groupsFolder ++ names)).2.get? l = some .folder ∧
        ∃ q part, q ++ [part] <+: names ∧ l = s.root ++ q ++ [part] ∧
          (d.makeFolders (s.groupsFolder ++ names)).2.get? (s.root ++ q) = some .folder := by
  rcases Disk.foldersMade d (s.groupsFolder ++ names) l with hd | ⟨hn, hf, q, part, hq, hl, hprev⟩
  · exact .inl hd
  · refine .inr ⟨hn, hf, ?_⟩
    rcases List.prefix_or_prefix_of_prefix hq (List.prefix_append s.groupsFolder names) with
      hw | ⟨r, hr⟩
    · -- such a folder was there already
      have hold := onWay_of_ready h hw
      rw [Path.location, ← hl, hn] at hold
      cases hold
    · rcases List.eq_nil_or_concat r with rfl | ⟨q', part', rfl⟩
      · have hold := root_of_ready h
        rw [List.append_nil] at hr
        rw [Store.root, hr, Path.location, ← hl, hn] at hold
        cases hold
      · rw [List.concat_eq_append, ← List.append_assoc] at hr
        obtain ⟨rfl, hp⟩ := List.append_inj' hr rfl
        obtain rfl := List.singleton_inj.1 hp
        have hsub : q' ++ [part'] <+: names := by
          rw [List.append_assoc] at hq
          exact (List.prefix_append_right_inj _).1 hq
        have hq' : ∀ n ∈ q', Path.IsPlain n := fun n hm =>
          hplain n (hsub.subset (by simp [hm]))
        have hloc : (s.groupsFolder ++ q').foldl Path.follow [] = s.root ++ q' :=
          Path.location_append_plain _ hq'
        refine ⟨q', part', hsub, ?_, by rw [← hloc]; exact hprev⟩
        rw [hl, List.foldl_append, hloc]
        exact Path.follow_plain (hplain part' (hsub.subset (by simp))) _

/-! ## Tidy caches -/

/-- A cache that is in order, whatever it holds. -/
structure IsTidy (s : Store) (d : Disk) : Prop where
  /-- The folder of all groups can be reached. -/
  ready : d.find s.groupsFolder = .ok .folder
  /-- What lies below that folder lies in a folder. -/
  tree : ∀ names name, d.get? (s.root ++ names ++ [name]) ≠ none →
    d.get? (s.root ++ names) = some .folder
  /-- A file that is named like a digest has that digest. -/
  hashed : ∀ names (digest : Digest) content,
    d.get? (s.root ++ names ++ [digest.hex]) = some (.file content) → Digest.of content = digest

theorem IsTidy.root (h : IsTidy s d) : d.get? s.root = some .folder := root_of_ready h.ready

/-- Every folder on the way to that of all groups is there. -/
theorem IsTidy.onWay (h : IsTidy s d) {q : Path} (hq : q <+: s.groupsFolder) :
    d.get? (Path.location q) = some .folder :=
  onWay_of_ready h.ready hq

/-- Every folder on the way to what lies below that of all groups is there. -/
theorem IsTidy.below (h : IsTidy s d) {q names : Location} {part : String}
    (hn : d.get? (s.root ++ names) ≠ none) (hq : q ++ [part] <+: names) :
    d.get? (s.root ++ q) = some .folder := by
  obtain ⟨rest, rfl⟩ := hq
  induction rest using List.reverseRecOn with
  | nil =>
    rw [List.append_nil, ← List.append_assoc] at hn
    exact h.tree q part hn
  | append_singleton rest last ih =>
    have hf := h.tree (q ++ [part] ++ rest) last (by simpa using hn)
    exact ih (by rw [hf]; simp)

/-- Every folder on the way to what is there can be passed. -/
theorem IsTidy.way (h : IsTidy s d) {names : Location} (hplain : ∀ n ∈ names, Path.IsPlain n)
    (hn : d.get? (s.root ++ names) ≠ none) {r : Path} {part : String}
    (hr : r ++ [part] <+: s.groupsFolder ++ names) : d.get? (Path.location r) = some .folder := by
  rcases List.prefix_or_prefix_of_prefix hr (List.prefix_append s.groupsFolder names) with
    hw | ⟨q, hq⟩
  · exact h.onWay ((List.prefix_append r [part]).trans hw)
  · rcases List.eq_nil_or_concat q with rfl | ⟨q', part', rfl⟩
    · exact h.onWay ⟨[part], by rw [← hq, List.append_nil]⟩
    · rw [List.concat_eq_append, ← List.append_assoc] at hq
      obtain ⟨rfl, hp⟩ := List.append_inj' hq rfl
      obtain rfl := List.singleton_inj.1 hp
      rw [List.append_assoc] at hr
      have hsub := (List.prefix_append_right_inj _).1 hr
      rw [Path.location_append_plain _ fun n hm => hplain n (hsub.subset (by simp [hm]))]
      exact h.below hn hsub

/-- A file that is there can be found, if there is a disk where something is found at its place. -/
theorem IsTidy.find (h : IsTidy s d) {x : Place} (hx : x.IsPlain) {e e' : Entry}
    (hd : d'.find (s.pathOf x) = .ok e') (hl : d.get? (s.locationOf x) = some e) :
    d.find (s.pathOf x) = .ok e := by
  have hway : ∀ r part, r ++ [part] <+: s.pathOf x → d.get? (Path.location r) = some .folder :=
    fun r part hr => h.way hx (by rw [← locationOf, hl]; simp) hr
  rw [← location_pathOf s hx] at hl
  exact Disk.find_of_locate (Disk.locate_of_folders (Disk.find_eq_ok hd).1 hway) hl

theorem IsTidy.setFile (h : IsTidy s d) {names : Location} {name : String} {content : Bytes}
    (hparent : d.get? (s.root ++ names) = some .folder)
    (hfile : d.get? (s.root ++ names ++ [name]) ≠ some .folder)
    (hfits : ∀ digest : Digest, name = digest.hex → Digest.of content = digest) :
    IsTidy s (d.set (s.root ++ names ++ [name]) (.file content)) where
  ready := Disk.find_folder_mono (fun _ => Disk.get?_set_of_folder hfile) h.ready
  tree m n hmn := by
    by_cases hl : s.root ++ m ++ [n] = s.root ++ names ++ [name]
    · rw [(List.append_inj' hl rfl).1]
      exact Disk.get?_set_of_folder hfile hparent
    · rw [Disk.get?_set_of_ne hl] at hmn
      exact Disk.get?_set_of_folder hfile (h.tree m n hmn)
  hashed m digest c hc := by
    by_cases hl : s.root ++ m ++ [digest.hex] = s.root ++ names ++ [name]
    · rw [hl, Disk.get?_set_self (by simp)] at hc
      obtain rfl : content = c := by simpa using hc
      exact hfits digest (List.singleton_inj.1 (List.append_inj' hl rfl).2).symm
    · rw [Disk.get?_set_of_ne hl] at hc
      exact h.hashed m digest c hc

theorem IsTidy.eraseFile (h : IsTidy s d) {names : Location} {name : String} {content : Bytes}
    (hfile : d.get? (s.root ++ names ++ [name]) = some (.file content)) :
    IsTidy s (d.erase (s.root ++ names ++ [name])) where
  ready := Disk.find_folder_mono (fun _ => Disk.get?_erase_of_folder (by rw [hfile]; simp)) h.ready
  tree m n hmn := by
    by_cases hl : s.root ++ m ++ [n] = s.root ++ names ++ [name]
    · rw [hl, Disk.get?_erase_self (by simp)] at hmn
      exact absurd rfl hmn
    · rw [Disk.get?_erase_of_ne hl] at hmn
      exact Disk.get?_erase_of_folder (by rw [hfile]; simp) (h.tree m n hmn)
  hashed m digest c hc := by
    by_cases hl : s.root ++ m ++ [digest.hex] = s.root ++ names ++ [name]
    · rw [hl, Disk.get?_erase_self (by simp)] at hc
      cases hc
    · rw [Disk.get?_erase_of_ne hl] at hc
      exact h.hashed m digest c hc

theorem IsTidy.makeFolders (h : IsTidy s d) {names : Location}
    (hplain : ∀ n ∈ names, Path.IsPlain n) :
    IsTidy s (d.makeFolders (s.groupsFolder ++ names)).2 where
  ready := Disk.find_folder_mono (fun _ => (Disk.foldersMade d _).folder) h.ready
  tree m n hmn := by
    rcases folders_of_ready h.ready hplain (s.root ++ m ++ [n]) with
      hd | ⟨-, -, q, part, -, hl, hprev⟩
    · rw [hd] at hmn
      exact (Disk.foldersMade d _).folder (h.tree m n hmn)
    · rw [(List.append_inj' hl rfl).1]
      exact hprev
  hashed m digest c hc := h.hashed m digest c ((Disk.foldersMade d _).file.1 hc)

/-- A cache stays in order when it is written to. -/
theorem IsTidy.change (h : IsTidy s d) (hplain : ∀ x, allowed x → x.IsPlain)
    (hsound : ∀ x, allowed x → x.IsSound) (hc : Change s allowed d d') : IsTidy s d' := by
  have hscratch : ∀ (x : Place) (label : String), s.locationOf (x.scratch label) =
      s.root ++ x.names.dropLast ++ [(x.scratch label).file] := fun x label => by
    rw [locationOf_eq, Place.dropLast_scratch]
  cases hc with
  | folders x hx =>
    exact h.makeFolders fun n hn => hplain x hx n (List.dropLast_subset _ hn)
  | fill x hx label content hp hf =>
    rw [hscratch] at hf ⊢
    exact h.setFile hp hf fun digest hd => absurd hd (x.scratch_file_ne_hex label digest)
  | discard x hx label content hs =>
    rw [hscratch] at hs ⊢
    exact h.eraseFile hs
  | place x hx label content hfit hs hp hf =>
    have hf' := Disk.get?_erase_ne_folder (s.locationOf_ne_nil (x.scratch label)) hf
    have hp' := Disk.get?_erase_of_folder (m := s.locationOf (x.scratch label)) (by simp [hs]) hp
    rw [hscratch] at hs hf' hp' ⊢
    rw [locationOf_eq] at hf' ⊢
    exact (h.eraseFile hs).setFile hp' hf' fun digest hd => hsound x hx digest hd content hfit

/-! ## Caches whose folders are plain -/

/-- No folder lies where the file of a digest belongs. -/
def HasPlainFolders (s : Store) (d : Disk) : Prop :=
  ∀ names, d.get? (s.root ++ names) = some .folder → "sha256" ∉ (names.drop 2).dropLast

theorem HasPlainFolders.blob (h : HasPlainFolders s d) (group image : String) (digest : Digest) :
    d.get? (s.locationOf (.blob group image digest)) ≠ some .folder := by
  intro hf
  refine h _ hf ?_
  simp [Place.blob, Place.names, List.dropLast_append_of_ne_nil]

theorem HasPlainFolders.payload (h : HasPlainFolders s d) (group image : String) (digest : Digest) :
    d.get? (s.locationOf (.payload group image digest)) ≠ some .folder := by
  intro hf
  refine h _ hf ?_
  simp [Place.payload, Place.names, List.dropLast_append_of_ne_nil]

/-- Of the folders on the way to a place only the last may have a name that the image does not
have. -/
theorem not_mem_of_prefix {x : Place} {name : String} (hx : name ∉ Path.ofText x.image)
    {q : Location} (hq : q <+: x.names.dropLast) : name ∉ (q.drop 2).dropLast := by
  rw [Place.dropLast_names] at hq
  obtain ⟨rest, hrest⟩ := hq
  have hd : q.drop 2 <+: Path.ofText x.image ++ [x.folder] :=
    ⟨rest.drop (2 - q.length), by rw [← List.drop_append, hrest]; rfl⟩
  intro hm
  rcases List.prefix_concat_iff.1 hd with he | hp
  · rw [he, List.dropLast_concat] at hm
    exact hx hm
  · exact hx (hp.subset (List.dropLast_subset _ hm))

/-- Where a file changes, no folder comes about. -/
theorem folder_of_set {names : Location} {content : Bytes} (hl : l ≠ [])
    (hf : (d.set l (.file content)).get? (s.root ++ names) = some .folder) :
    d.get? (s.root ++ names) = some .folder := by
  by_cases he : s.root ++ names = l
  · rw [he, Disk.get?_set_self hl] at hf
    cases hf
  · rwa [Disk.get?_set_of_ne he] at hf

theorem folder_of_erase {names : Location} (hl : l ≠ [])
    (hf : (d.erase l).get? (s.root ++ names) = some .folder) :
    d.get? (s.root ++ names) = some .folder := by
  by_cases he : s.root ++ names = l
  · rw [he, Disk.get?_erase_self hl] at hf
    cases hf
  · rwa [Disk.get?_erase_of_ne he] at hf

/-- The folders after a change: those from before, and some on the way to a place that is
allowed. -/
theorem Change.folder_cases (h : Change s allowed d d') (ht : IsTidy s d)
    (hplain : ∀ x, allowed x → x.IsPlain) {names : Location}
    (hf : d'.get? (s.root ++ names) = some .folder) :
    d.get? (s.root ++ names) = some .folder ∨ ∃ x, allowed x ∧ names <+: x.names.dropLast := by
  cases h with
  | folders x hx =>
    rcases folders_of_ready ht.ready (fun n hn => hplain x hx n (List.dropLast_subset _ hn))
      (s.root ++ names) with hd | ⟨-, -, q, part, hq, hl, -⟩
    · rw [hd] at hf
      exact .inl hf
    · rw [List.append_assoc] at hl
      rw [List.append_cancel_left hl]
      exact .inr ⟨x, hx, hq⟩
  | fill x hx label content hp hfile => exact .inl (folder_of_set (s.locationOf_ne_nil _) hf)
  | discard x hx label content hs => exact .inl (folder_of_erase (s.locationOf_ne_nil _) hf)
  | place x hx label content hfit hs hp hfile =>
    exact .inl (folder_of_erase (s.locationOf_ne_nil _) (folder_of_set (s.locationOf_ne_nil _) hf))

/-- The files after a change: those from before, and some at or beside a place that is allowed. -/
theorem Change.file_cases (h : Change s allowed d d') {content : Bytes}
    (hf : d'.get? l = some (.file content)) :
    d.get? l = some (.file content) ∨
      ∃ x, allowed x ∧ (l = s.locationOf x ∨ ∃ label, l = s.locationOf (x.scratch label)) := by
  by_cases hplace : ∃ x, allowed x ∧
    (l = s.locationOf x ∨ ∃ label, l = s.locationOf (x.scratch label))
  · exact .inr hplace
  · refine .inl ((h.sameFile (fun x hx hl => hplace ⟨x, hx, .inl hl⟩) (fun x label hx hl =>
      hplace ⟨x, hx, .inr ⟨label, hl⟩⟩) content).1 hf)

theorem HasPlainFolders.change (h : HasPlainFolders s d) (ht : IsTidy s d)
    (hplain : ∀ x, allowed x → x.IsPlain) (himage : ∀ x, allowed x → "sha256" ∉ Path.ofText x.image)
    (hc : Change s allowed d d') : HasPlainFolders s d' := by
  intro names hf
  rcases hc.folder_cases ht hplain hf with hold | ⟨x, hx, hq⟩
  · exact h names hold
  · exact not_mem_of_prefix (himage x hx) hq

/-! ## Caches in use -/

/-- What requests may write to. -/
def IsFair (x : Place) : Prop := x.IsPlain ∧ x.IsSound ∧ "sha256" ∉ Path.ofText x.image

/-- A cache that only requests have written to. -/
structure IsKept (s : Store) (d : Disk) : Prop where
  isTidy : s.IsTidy d
  hasPlainFolders : s.HasPlainFolders d

theorem IsKept.change (h : s.IsKept d) (hc : s.Change IsFair d d') : s.IsKept d' where
  isTidy := h.isTidy.change (fun _ hx => hx.1) (fun _ hx => hx.2.1) hc
  hasPlainFolders := h.hasPlainFolders.change h.isTidy (fun _ hx => hx.1) (fun _ hx => hx.2.2) hc

/-! ## Empty caches -/

/-- A cache that is ready and holds nothing. -/
structure IsEmpty (s : Store) (d : Disk) : Prop where
  ready : d.find s.groupsFolder = .ok .folder
  nothing : ∀ names, names ≠ [] → d.get? (s.root ++ names) = none

theorem IsEmpty.place (h : IsEmpty s d) (x : Place) : d.get? (s.locationOf x) = none :=
  h.nothing x.names (by simp [Place.names])

theorem IsEmpty.isTidy (h : IsEmpty s d) : IsTidy s d where
  ready := h.ready
  tree names name hn := by
    rw [List.append_assoc] at hn
    exact absurd (h.nothing _ (by simp)) hn
  hashed names digest content hc := by
    rw [List.append_assoc, h.nothing _ (by simp)] at hc
    cases hc

theorem IsEmpty.hasPlainFolders (h : IsEmpty s d) : HasPlainFolders s d := by
  intro names hf
  cases names with
  | nil => simp
  | cons name names =>
    rw [h.nothing _ (by simp)] at hf
    cases hf

theorem IsEmpty.isKept (h : IsEmpty s d) : s.IsKept d := ⟨h.isTidy, h.hasPlainFolders⟩

/-- A disk that has only the folder of all groups. -/
theorem isEmpty_of_root (hroot : s.root = ["groups"])
    (hready : (⟨[(Slot.of ["groups"], .folder)]⟩ : Disk).find s.groupsFolder = .ok .folder) :
    s.IsEmpty ⟨[(Slot.of ["groups"], .folder)]⟩ where
  ready := hready
  nothing names hne := by
    rw [hroot]
    cases names with
    | nil => exact absurd rfl hne
    | cons name names => rfl

theorem isEmpty_of_new : IsEmpty { base := [""] } ⟨[(Slot.of ["groups"], .folder)]⟩ :=
  isEmpty_of_root rfl rfl

end PullThrough.Store
