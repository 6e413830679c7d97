import PullThrough.Proofs.Store.Places
/-
  Which files of a cache get in each other's way, over all checked names and all digests.

  Two files share a path only if they are the records of a digest and of its name as a plain tag
  (`FileKey.path_eq_iff`). A file lies on the way to another one only if the image of that one goes
  on, behind its own image, with the names of its folder and its file (`FileKey.path_prefix_iff`).
  So images that have no part `tags` and no part `sha256` are never in the way of each other, but
  those that have one may be.
-/
namespace PullThrough

/-- A file of a cache, by what it is for. -/
inductive FileKey where
  | record (group image tag : String)
  | payload (group image : String) (digest : Digest)
  | blob (group image : String) (digest : Digest)
  deriving DecidableEq

namespace FileKey

def path (s : Store) : FileKey → Path
  | record group image tag => s.recordPath group image tag
  | payload group image digest => s.payloadPath group image digest
  | blob group image digest => s.blobPath group image digest

def place : FileKey → Place
  | record group image tag => .record group image tag
  | payload group image digest => .payload group image digest
  | blob group image digest => .blob group image digest

/-- All names are checked ones. -/
def IsValid : FileKey → Prop
  | record group image tag => Name.checkGroup group = .ok () ∧ Name.checkImage image = .ok () ∧
      Name.checkTag tag = .ok ()
  | payload group image _ => Name.checkGroup group = .ok () ∧ Name.checkImage image = .ok ()
  | blob group image _ => Name.checkGroup group = .ok () ∧ Name.checkImage image = .ok ()

/-- The record of a digest, and that of its name as a plain tag. -/
inductive IsTwin : FileKey → FileKey → Prop
  | plain (group image : String) (d : Digest) :
      IsTwin (record group image d.text) (record group image (Name.underscored d))
  | digest (group image : String) (d : Digest) :
      IsTwin (record group image (Name.underscored d)) (record group image d.text)

/-- The image of the second file goes on with the folder and the file of the first. -/
structure IsAbove (k k' : FileKey) : Prop where
  group : k.place.group = k'.place.group
  kind : k.place.kind = k'.place.kind
  image : Path.ofText k.place.image ++ [k.place.folder, k.place.file] <+: Path.ofText k'.place.image

variable {s : Store} {k k' : FileKey}

theorem path_eq (s : Store) (h : k.IsValid) : k.path s = s.pathOf k.place := by
  cases k with
  | record group image tag =>
    obtain ⟨hg, hi, ht⟩ := h
    exact s.recordPath_eq (Name.isGroup_of_check hg) (Name.isImage_of_check hi) ht
  | payload group image digest =>
    exact s.payloadPath_eq (Name.isGroup_of_check h.1) (Name.isImage_of_check h.2) digest
  | blob group image digest =>
    exact s.blobPath_eq (Name.isGroup_of_check h.1) (Name.isImage_of_check h.2) digest

theorem path_eq_iff_names (h : k.IsValid) (h' : k'.IsValid) :
    k.path s = k'.path s ↔ k.place.names = k'.place.names := by
  rw [path_eq s h, path_eq s h', Store.pathOf, Store.pathOf, List.append_right_inj]

theorem path_prefix_iff_names (h : k.IsValid) (h' : k'.IsValid) :
    k.path s <+: k'.path s ↔ k.place.names <+: k'.place.names := by
  rw [path_eq s h, path_eq s h', Store.pathOf, Store.pathOf, List.prefix_append_right_inj]

/-! ## Shared paths -/

/-- Kind and folder tell records, payloads and blobs apart. -/
theorem names_eq_iff (h : k.IsValid) (h' : k'.IsValid) :
    k.place.names = k'.place.names ↔ k = k' ∨ k.IsTwin k' := by
  constructor
  · intro hn
    obtain ⟨hg, hk, hi, hd, hf⟩ := Place.names_inj hn
    cases k with
    | record group image tag =>
      cases k' with
      | record group' image' tag' =>
        obtain ⟨rfl, rfl, ht⟩ := Place.names_record_iff.1 hn
        rcases Name.tagName_inj h.2.2 h'.2.2 ht with rfl | ⟨d, ⟨rfl, rfl⟩ | ⟨rfl, rfl⟩⟩
        · exact .inl rfl
        · exact .inr (.plain group image d)
        · exact .inr (.digest group image d)
      | payload group' image' digest' => simp [place, Place.record, Place.payload] at hd
      | blob group' image' digest' => simp [place, Place.record, Place.blob] at hd
    | payload group image digest =>
      cases k' with
      | record group' image' tag' => simp [place, Place.record, Place.payload] at hd
      | payload group' image' digest' =>
        obtain ⟨rfl, rfl, rfl⟩ := Place.names_payload_iff.1 hn
        exact .inl rfl
      | blob group' image' digest' => simp [place, Place.payload, Place.blob] at hk
    | blob group image digest =>
      cases k' with
      | record group' image' tag' => simp [place, Place.record, Place.blob] at hd
      | payload group' image' digest' => simp [place, Place.payload, Place.blob] at hk
      | blob group' image' digest' =>
        obtain rfl : group = group' := hg
        obtain rfl : image = image' := hi
        obtain rfl : digest = digest' := Digest.ext hf
        exact .inl rfl
  · rintro (rfl | hk)
    · rfl
    · cases hk with
      | plain group image d =>
        exact Place.names_record_iff.2 ⟨rfl, rfl, (Name.tagName_underscored d).symm⟩
      | digest group image d =>
        exact Place.names_record_iff.2 ⟨rfl, rfl, Name.tagName_underscored d⟩

theorem path_eq_iff (s : Store) (h : k.IsValid) (h' : k'.IsValid) :
    k.path s = k'.path s ↔ k = k' ∨ k.IsTwin k' :=
  (path_eq_iff_names h h').trans (names_eq_iff h h')

/-! ## Files on the way -/

/-- No file is named as a folder that files lie in. -/
theorem file_ne_folder (k k' : FileKey) : k.place.file ≠ k'.place.folder := by
  have hfolder : k'.place.folder = "tags" ∨ k'.place.folder = "sha256" := by
    cases k' with
    | record => exact .inl rfl
    | payload => exact .inr rfl
    | blob => exact .inr rfl
  have hhex : ∀ digest : Digest, digest.hex ≠ k'.place.folder := by
    intro digest he
    have hlength := digest.length_hex
    rcases hfolder with hf | hf
    · rw [he, hf] at hlength
      exact absurd hlength (by decide)
    · rw [he, hf] at hlength
      exact absurd hlength (by decide)
  cases k with
  | record group image tag =>
    intro he
    have hdot : '.' ∈ (k'.place.folder).toList := by
      rw [← he]
      simp [place, Place.record]
    rcases hfolder with hf | hf
    · rw [hf] at hdot
      exact absurd hdot (by decide)
    · rw [hf] at hdot
      exact absurd hdot (by decide)
  | payload group image digest => exact hhex digest
  | blob group image digest => exact hhex digest

theorem names_prefix_iff : k.place.names <+: k'.place.names ∧ k.place.names ≠ k'.place.names ↔
    k.IsAbove k' := by
  have hsplit : ∀ x : Place, Path.ofText x.image ++ [x.folder, x.file] =
      Path.ofText x.image ++ [x.folder] ++ [x.file] := fun x => by simp
  constructor
  · rintro ⟨hp, hne⟩
    obtain ⟨hg, hp⟩ := List.cons_prefix_cons.1 hp
    obtain ⟨hk, hp⟩ := List.cons_prefix_cons.1 hp
    refine ⟨hg, hk, ?_⟩
    -- the shorter way may end at the file of the longer one, at its folder, or within its image
    rw [hsplit k'.place] at hp
    rcases List.prefix_concat_iff.1 hp with he | hp
    · refine absurd ?_ hne
      rw [Place.names, Place.names, hg, hk, he, hsplit k'.place]
    rcases List.prefix_concat_iff.1 hp with he | hp
    · rw [hsplit k.place] at he
      exact absurd (List.singleton_inj.1 (List.append_inj' he rfl).2) (file_ne_folder k k')
    · exact hp
  · rintro ⟨hg, hk, hp⟩
    obtain ⟨rest, hrest⟩ := hp
    have hnames : k'.place.names = k.place.names ++ rest ++ [k'.place.folder, k'.place.file] := by
      rw [Place.names, Place.names, ← hrest, hg, hk]
      simp
    rw [hnames, List.append_assoc]
    refine ⟨List.prefix_append _ _, fun he => ?_⟩
    have hlength := congrArg List.length he
    simp at hlength

/-- Which paths are proper beginnings of others. -/
theorem path_prefix_iff (s : Store) (h : k.IsValid) (h' : k'.IsValid) :
    k.path s <+: k'.path s ∧ k.path s ≠ k'.path s ↔ k.IsAbove k' := by
  rw [path_prefix_iff_names h h', ne_eq, path_eq_iff_names h h']
  exact names_prefix_iff

end FileKey

end PullThrough
