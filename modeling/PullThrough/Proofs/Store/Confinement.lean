import PullThrough.Proofs.Disk.Steps
import PullThrough.Proofs.Name.Chars
import PullThrough.Proofs.Store.Keys
import PullThrough.Proofs.Store.Writing
/-
  How far checked names reach in a cache.

  Behind the folder of all groups the path of a file has the name of the group, then `manifests` or
  `blobs`, then names in which no character means anything to a disk (`Store.IsWithin`). This holds
  of records, payloads and blobs, of the scratch files beside them and of the folders they lie in,
  and of all paths that reading and writing ask a disk for, whatever the disk answers
  (`Store.ReachesWithin`): the record that is read may hold anything at all. So a path leads into
  the folder of its group on every disk, if it leads anywhere (`Store.IsWithin.locate`), and a job
  of such steps leaves alone all that is not in it (`Job.Only.leaves_outside`).
-/
namespace PullThrough

open PullThrough.Path (IsFree location)

/-! ## Tame places -/

namespace Place

/-- All names of the place are tame. -/
def IsTame (x : Place) : Prop := ∀ n ∈ x.names, Path.IsTame n

variable {x : Place}

theorem isTame_names (hg : Name.isGroup x.group = true) (hi : Name.isImage x.image = true)
    (hk : Path.IsTame x.kind) (hd : Path.IsTame x.folder) (hf : Path.IsTame x.file) : x.IsTame := by
  intro n hn
  simp only [names, List.mem_cons, List.mem_append, List.not_mem_nil, or_false] at hn
  rcases hn with rfl | rfl | hn | rfl | rfl
  · exact Name.isTame_of_isGroup hg
  · exact hk
  · exact Name.isTame_of_isImage hi n hn
  · exact hd
  · exact hf

theorem IsTame.isPlain (h : x.IsTame) : x.IsPlain := fun n hn => (h n hn).isPlain

/-- A scratch file beside a tame place has a tame name. -/
theorem IsTame.scratch (h : x.IsTame) (s : Store) (n : Nat) :
    (x.scratch (s.scratchLabel n)).IsTame := by
  have hlabel : (s.scratchLabel n).toList.all isNameChar = true := by
    refine isNameChar_of_not_mem fun c hc => s.not_mem_scratchLabel ?_ ?_ n
    · exact isDigit_eq_false hc
    · rintro rfl
      exact absurd hc (by decide)
  have hfile : Path.IsTame (x.scratch (s.scratchLabel n)).file := by
    refine ⟨isPlain_tmp _, ?_⟩
    have hold := (h x.file (by simp [names])).chars
    exact Path.chars_append (Path.chars_append (Path.chars_append hold (by decide)) hlabel)
      (by decide)
  intro m hm
  simp only [names, Place.scratch, List.mem_cons, List.mem_append, List.not_mem_nil, or_false] at hm
  rcases hm with rfl | rfl | hm | rfl | rfl
  · exact h _ (by simp [names])
  · exact h _ (by simp [names])
  · exact h m (by simp [names, hm])
  · exact h _ (by simp [names])
  · exact hfile

end Place

/-- The file of a valid key has a tame place. -/
theorem FileKey.isTame {k : FileKey} (h : k.IsValid) : k.place.IsTame := by
  have hhex (digest : Digest) : Path.IsTame digest.hex :=
    ⟨Place.isPlain_hex digest, digest.chars_hex⟩
  cases k with
  | record group image tag =>
    exact Place.isTame_names (Name.isGroup_of_check h.1) (Name.isImage_of_check h.2.1)
      (show Path.IsTame "manifests" by decide) (show Path.IsTame "tags" by decide)
      ⟨Place.isPlain_json _, Path.chars_append (Name.chars_tagName h.2.2) (by decide)⟩
  | payload group image digest =>
    exact Place.isTame_names (Name.isGroup_of_check h.1) (Name.isImage_of_check h.2)
      (show Path.IsTame "manifests" by decide) (show Path.IsTame "sha256" by decide) (hhex digest)
  | blob group image digest =>
    exact Place.isTame_names (Name.isGroup_of_check h.1) (Name.isImage_of_check h.2)
      (show Path.IsTame "blobs" by decide) (show Path.IsTame "sha256" by decide) (hhex digest)

/-! ## Paths of a group -/

namespace Store

/-- A path behind the folder of all groups, a group and a kind, of names that are not empty, no
dots, and in which no character separates or ends names. -/
def IsWithin (s : Store) (group kind : String) (p : Path) : Prop :=
  ∃ names, names ≠ [] ∧ p = s.groupsFolder ++ group :: kind :: names ∧
    ∀ part ∈ group :: kind :: names, IsFree ['/', '\\', '\x00'] part

variable {s : Store} {group kind image : String} {p : Path} {d : Disk} {l : Location} {x : Place}

theorem isWithin_pathOf (h : x.IsTame) : s.IsWithin x.group x.kind (s.pathOf x) :=
  ⟨_, by simp, rfl, fun n hn => (h n hn).isFree (by decide)⟩

theorem isWithin_parent (h : x.IsTame) : s.IsWithin x.group x.kind (s.pathOf x).parent := by
  rw [parent_pathOf s h.isPlain, Place.dropLast_names]
  refine ⟨_, by simp, rfl, fun n hn => (h n ?_).isFree (by decide)⟩
  rw [← Place.dropLast_names] at hn
  exact List.dropLast_subset _ hn

theorem isWithin_scratch (h : x.IsTame) (n : Nat) :
    s.IsWithin x.group x.kind (scratchBeside (s.pathOf x) (s.scratchLabel n)) := by
  rw [scratchBeside_pathOf s h.isPlain]
  exact isWithin_pathOf (h.scratch s n)

theorem IsWithin.leads (h : s.IsWithin group kind p) :
    ∃ names, names ≠ [] ∧ location p = s.root ++ group :: kind :: names := by
  obtain ⟨names, hne, rfl, hfree⟩ := h
  exact ⟨names, hne, Path.location_append_plain _ fun n hn => (hfree n hn).isPlain⟩

/-- On every disk such a path leads into the folder of the group, if it leads anywhere. -/
theorem IsWithin.locate (h : s.IsWithin group kind p) (hl : d.locate p = .ok l) :
    ∃ names, names ≠ [] ∧ l = s.root ++ group :: kind :: names := by
  rw [Disk.location_of_locate hl]
  exact h.leads

end Store

/-! ## Steps of a group -/

namespace Store

/-- A step asks for paths of a group only. -/
def ReachesWithin (s : Store) (group kind : String) (step : Step) : Prop :=
  ∀ p ∈ step.paths, s.IsWithin group kind p

variable {s : Store} {group image tag : String} {x : Place}

theorem writesBy_reachesWithin (h : x.IsTame) :
    s.WritesBy (s.ReachesWithin x.group x.kind) (s.pathOf x) := by
  have hone {p : Path} (hp : s.IsWithin x.group x.kind p) :
      ∀ q ∈ [p], s.IsWithin x.group x.kind q := fun q hq => List.mem_singleton.1 hq ▸ hp
  have hscratch (n : Nat) := hone (isWithin_scratch h n)
  exact {
    find := hone (isWithin_pathOf h)
    folders := hone (isWithin_parent h)
    serial := fun _ hp => absurd hp List.not_mem_nil
    create := hscratch
    append := fun n _ => hscratch n
    sync := hscratch
    rename := fun n => List.forall_mem_cons.2 ⟨isWithin_scratch h n, hone (isWithin_pathOf h)⟩
    remove := hscratch }

end Store

/-! ## Files by their keys -/

namespace FileKey.IsValid

open PullThrough.Store (isWithin_pathOf isWithin_scratch writesBy_reachesWithin)

variable {k : FileKey} (h : k.IsValid) (s : Store)
include h

theorem isWithin : s.IsWithin k.place.group k.place.kind (k.path s) := by
  rw [FileKey.path_eq s h]
  exact isWithin_pathOf (FileKey.isTame h)

theorem isWithin_beside (n : Nat) :
    s.IsWithin k.place.group k.place.kind (Store.scratchBeside (k.path s) (s.scratchLabel n)) := by
  rw [FileKey.path_eq s h]
  exact isWithin_scratch (FileKey.isTame h) n

theorem writesBy : s.WritesBy (s.ReachesWithin k.place.group k.place.kind) (k.path s) := by
  rw [FileKey.path_eq s h]
  exact writesBy_reachesWithin (FileKey.isTame h)

/-- Looking for the file asks for its path. -/
theorem reaches : ∀ p ∈ [k.path s], s.IsWithin k.place.group k.place.kind p :=
  fun _ hp => List.mem_singleton.1 hp ▸ h.isWithin s

end FileKey.IsValid

/-! ## Reading and writing -/

namespace Store

variable {group image tag : String}

section Attempts

variable (s : Store) (hg : Name.checkGroup group = .ok ()) (hi : Name.checkImage image = .ok ())
include hg hi

/-- Whatever the record of a tag holds, reading the manifest stays in the folder of the group. -/
theorem readManifest_reachesWithin (ht : Name.checkTag tag = .ok ()) :
    (s.readManifest group image tag).run.Only (s.ReachesWithin group "manifests") := by
  have hrecord : (FileKey.record group image tag).IsValid := ⟨hg, hi, ht⟩
  -- the digest that is read is a written one, whatever else the record holds
  have hpayload (digest : Digest) : (FileKey.payload group image digest).IsValid := ⟨hg, hi⟩
  exact readManifest_only (hrecord.reaches s) fun digest => (hpayload digest).reaches s

theorem writeManifest_reachesWithin (ht : Name.checkTag tag = .ok ()) (digest : Digest)
    (contentType : String) (data : Bytes) :
    (s.writeManifest group image tag digest contentType data).run.Only
      (s.ReachesWithin group "manifests") := by
  have hrecord : (FileKey.record group image tag).IsValid := ⟨hg, hi, ht⟩
  have hpayload : (FileKey.payload group image digest).IsValid := ⟨hg, hi⟩
  exact (hrecord.writesBy s).writeManifest_only (hpayload.writesBy s)
    (fun _ hp => absurd hp List.not_mem_nil) (hrecord.reaches s) contentType data

theorem blob_reachesWithin (digest : Digest) :
    (s.blob group image digest).run.Only (s.ReachesWithin group "blobs") := by
  have hblob : (FileKey.blob group image digest).IsValid := ⟨hg, hi⟩
  exact blob_only (hblob.reaches s)

theorem writeBlobStream_reachesWithin (digest : Digest) (stream : List (Except Failure Bytes)) :
    (s.writeBlobStream group image digest stream).run.Only (s.ReachesWithin group "blobs") := by
  have hblob : (FileKey.blob group image digest).IsValid := ⟨hg, hi⟩
  exact (hblob.writesBy s).writeBlobStream_only stream

end Attempts

end Store

/-! ## What is left alone -/

/-- What is at a location stays, but where nothing is a folder may come about. -/
def Disk.StaysBut (l : Location) (d d' : Disk) : Prop :=
  d'.get? l = d.get? l ∨ d.get? l = none ∧ d'.get? l = some .folder

theorem Disk.StaysBut.trans {l : Location} {d₁ d₂ d₃ : Disk} (h : StaysBut l d₁ d₂)
    (h' : StaysBut l d₂ d₃) : StaysBut l d₁ d₃ := by
  rcases h with h | ⟨hnone, hfolder⟩
  · rcases h' with h' | ⟨hnone, hfolder⟩
    · exact .inl (h'.trans h)
    · exact .inr ⟨h ▸ hnone, hfolder⟩
  · rcases h' with h' | ⟨hsome, -⟩
    · exact .inr ⟨hnone, h'.trans hfolder⟩
    · rw [hfolder] at hsome
      cases hsome

namespace Store

variable {s : Store} {group kind : String} {l : Location}

/-- A path of a group leads elsewhere than to a location outside of the folder of the group. -/
theorem IsWithin.ne (h : s.IsWithin group kind p) (hl : ¬ s.root ++ [group] <+: l) :
    l ≠ location p := by
  rintro rfl
  obtain ⟨names, -, hlocation⟩ := h.leads
  refine hl ⟨kind :: names, ?_⟩
  rw [hlocation]
  simp

/-- One step of a group leaves alone what is not in its folder. -/
theorem ReachesWithin.perform {step : Step} (h : s.ReachesWithin group kind step)
    (hl : ¬ s.root ++ [group] <+: l) (w : World) :
    Disk.StaysBut l w.disk (w.perform step).2.disk := by
  have hne (p : Path) (hp : p ∈ step.paths) : l ≠ location p := (h p hp).ne hl
  generalize (w.perform step).2.disk = d', w.perform_touched step = htouched
  cases htouched with
  | not => exact .inl rfl
  | folders p hp =>
    exact (Disk.foldersMade w.disk p l).imp id fun hmade => ⟨hmade.1, hmade.2.1⟩
  | put p hp content => exact .inl (Disk.get?_set_of_ne (hne p hp))
  | drop p hp => exact .inl (Disk.get?_erase_of_ne (hne p hp))
  | move p q hp hq content =>
    exact .inl (by rw [Disk.get?_set_of_ne (hne q hq), Disk.get?_erase_of_ne (hne p hp)])

end Store

/-- A job of such steps leaves alone what is not in the folder of the group. -/
theorem Job.Only.leaves_outside {s : Store} {group kind : String} {j : Job α}
    (h : j.Only (s.ReachesWithin group kind)) {l : Location} (hl : ¬ s.root ++ [group] <+: l)
    (w : World) : Disk.StaysBut l w.disk (j.run w).2.disk := by
  induction j generalizing w with
  | done a => exact .inl rfl
  | step step next ih => exact (h.1.perform hl w).trans (ih _ (h.2 _) _)

end PullThrough
