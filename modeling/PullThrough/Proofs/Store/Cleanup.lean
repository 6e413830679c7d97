import PullThrough.Proofs.Job.Holding
import PullThrough.Proofs.Store.Keys
import PullThrough.Proofs.Store.Writing
/-
  What files are left in a cache.

  A store owns the locations of records, payloads and blobs. A cache is clean if all of its files
  are there (`Store.IsClean`), so that no scratch file is among them. Whatever the disk answers, the
  operations on manifests move files to such locations only and hold no scratch file at their end
  (`Store.writeManifest_tends`, `Store.readManifest_tends`), alone or in turns.

  Of a stream that ends in a failure nothing is left but folders: the other files are as they
  were, and so is the place of the scratch file (`Store.writeBlobStream_ends`). This holds for any
  names, checked or not, as long as no file was there that is named like a scratch file.
-/
namespace PullThrough

open PullThrough.Path (location)

namespace FileKey

variable {key : FileKey}

theorem isPlain (h : key.IsValid) : key.place.IsPlain := by
  cases key with
  | record group image tag =>
    exact Place.isPlain_record (Name.isGroup_of_check h.1) (Name.isImage_of_check h.2.1) tag
  | payload group image digest =>
    exact Place.isPlain_payload (Name.isGroup_of_check h.1) (Name.isImage_of_check h.2) digest
  | blob group image digest =>
    exact Place.isPlain_blob (Name.isGroup_of_check h.1) (Name.isImage_of_check h.2) digest

theorem isOwn (key : FileKey) : key.place.IsOwn := by
  cases key with
  | record group image tag => exact Place.isOwn_record group image tag
  | payload group image digest => exact Place.isOwn_payload group image digest
  | blob group image digest => exact Place.isOwn_blob group image digest

end FileKey

namespace Store

open Attempt (ask)

variable {s : Store} {d d₀ d' : Disk} {w : World} {target p : Path} {l : Location}

/-! ## Where files belong -/

/-- The location of a record, a payload or a blob. -/
def Owns (s : Store) (l : Location) : Prop :=
  ∃ key : FileKey, key.IsValid ∧ l = location (key.path s)

/-- All files below the base folder are records, payloads and blobs. -/
def IsClean (s : Store) (d : Disk) : Prop :=
  ∀ l content, location s.base <+: l → d.get? l = some (.file content) → s.Owns l

theorem location_scratchBeside (target : Path) (label : String) :
    location (scratchBeside target label) =
      location target.parent ++ [target.lastPart ++ "." ++ label ++ ".tmp"] := by
  refine Path.location_append_plain _ fun part hp => ?_
  rw [List.mem_singleton.1 hp]
  exact Place.isPlain_tmp _

/-- A scratch file is no record, payload or blob. -/
theorem not_owns_scratch (s : Store) (target : Path) (label : String) :
    ¬ s.Owns (location (scratchBeside target label)) := by
  rintro ⟨key, hk, hl⟩
  rw [location_scratchBeside, key.path_eq s hk, location_pathOf s (FileKey.isPlain hk),
    locationOf_eq]
    at hl
  have hfile := List.singleton_inj.1 (List.append_inj' hl rfl).2
  refine key.isOwn { key.place with file := target.lastPart } label ?_
  rw [Place.names, Place.names, ← hfile]
  rfl

/-- There are no scratch files in a clean cache. -/
theorem IsClean.scratch (h : s.IsClean d) (target : Path) (label : String) (content : Bytes)
    (hbase : location s.base <+: location (scratchBeside target label)) :
    d.get? (location (scratchBeside target label)) ≠ some (.file content) :=
  fun hf => s.not_owns_scratch target label (h _ content hbase hf)

/-! ## Scratch files end -/

section Tends

variable {kept : Location → Prop} {α : Type}

/-- Nothing is held any more, and a failure is one of the cache. -/
def Settles (r : Except Failure α) (held : List Path) : Prop :=
  held = [] ∧ ∀ failure, r = .error failure → ∃ fault, failure = .cache fault

theorem settles_ok (a : α) : Settles (.ok a) [] := ⟨rfl, fun _ h => by cases h⟩

theorem settles_fault (fault : CacheFault) :
    Settles (.error (.cache fault) : Except Failure α) [] :=
  ⟨rfl, fun _ h => by cases h; exact ⟨fault, rfl⟩⟩

theorem discard_tends (p : Path) (fault : CacheFault) :
    (Job.step (.remove p) fun _ => .done (.error (.cache fault) : Except Failure α)).Tends kept [p]
      Settles := by
  refine ⟨trivial, fun _ => ?_⟩
  show Settles (.error (.cache fault)) ([p].erase p)
  rw [List.erase_cons_head]
  exact settles_fault fault

/-- After a step that did not work the scratch file is given back. -/
theorem orDiscard_tends {fault : CacheFault} {f : Unit → Attempt α} (r : Except DiskFault Unit)
    (hok : (f ()).run.Tends kept [p] Settles) :
    (orDiscard p (.cache fault) r >>= f).run.Tends kept [p] Settles := by
  cases r with
  | ok _ => exact hok
  | error e => exact discard_tends p fault

theorem writeWhole_tends (s : Store) (hk : kept (location target)) (data : Bytes) :
    (s.writeWhole target data).run.Tends kept [] Settles := by
  refine ⟨trivial, fun r => ?_⟩
  cases r with
  | error e => exact settles_fault _
  | ok _ =>
    refine ⟨trivial, fun n => ⟨trivial, fun r => ?_⟩⟩
    cases r with
    | error e => exact settles_fault _
    | ok _ =>
      refine ⟨trivial, fun r => orDiscard_tends r ?_⟩
      refine ⟨trivial, fun r => orDiscard_tends r ⟨hk, fun r => ?_⟩⟩
      cases r with
      | error e => exact discard_tends _ _
      | ok _ =>
        show Settles (.ok ()) ([_].erase _)
        rw [List.erase_cons_head]
        exact settles_ok ()

theorem writeManifest_tends (s : Store) {group image tag : String} {digest : Digest}
    (hrecord : kept (location (s.recordPath group image tag)))
    (hpayload : kept (location (s.payloadPath group image digest))) (contentType : String)
    (data : Bytes) :
    (s.writeManifest group image tag digest contentType data).run.Tends kept [] fun r held =>
      held = [] ∧ (Digest.of data = digest →
        ∀ failure, r = .error failure → ∃ fault, failure = .cache fault) := by
  unfold writeManifest
  dsimp only
  by_cases hd : Digest.of data = digest
  case neg =>
    rw [if_pos hd]
    exact ⟨rfl, fun h => absurd h hd⟩
  rw [if_neg (by simpa using hd)]
  have hend : ∀ {r : Except Failure ManifestRecord} {held}, Settles r held → held = [] ∧
      (Digest.of data = digest → ∀ failure, r = .error failure → ∃ fault, failure = .cache fault) :=
    fun h => ⟨h.1, fun _ => h.2⟩
  -- the record comes second, whether the payload was there or has just been written
  have hsecond : (s.writeRecord group image tag digest contentType data).run.Tends kept []
      Settles := by
    refine ⟨trivial, fun now => ⟨trivial, fun content => ?_⟩⟩
    refine Job.Tends.andThen ((s.writeWhole_tends hrecord _).post ?_)
    rintro (failure | _) held ⟨rfl, hfault⟩
    · exact ⟨rfl, fun _ h => hfault _ (by cases h; rfl)⟩
    · exact settles_ok _
  refine ⟨trivial, fun r => ?_⟩
  cases r with
  | ok e => exact hsecond.post fun _ _ => hend
  | error e =>
    refine Job.Tends.andThen ((s.writeWhole_tends hpayload data).post ?_)
    rintro (failure | _) held ⟨rfl, hfault⟩
    · exact hend ⟨rfl, fun _ h => hfault _ (by cases h; rfl)⟩
    · exact hsecond.post fun _ _ => hend

theorem writePieces_tends (stream : List (Except Failure Bytes)) (seen : Bytes) :
    (writePieces p seen stream).run.Tends kept [p] fun r held =>
      held = if r.isOk then [p] else [] := by
  induction stream generalizing seen with
  | nil => exact rfl
  | cons piece rest ih =>
    cases piece with
    | error failure => exact ⟨trivial, fun _ => List.erase_cons_head p []⟩
    | ok piece =>
      refine ⟨trivial, fun r => ?_⟩
      cases r with
      | ok _ => exact ih _
      | error e => exact ⟨trivial, fun _ => List.erase_cons_head p []⟩

/-- A stream leaves no scratch file, whatever it comes to. -/
theorem writeBlobStream_tends (s : Store) {group image : String} {digest : Digest}
    (hk : kept (location (s.blobPath group image digest))) (stream : List (Except Failure Bytes)) :
    (s.writeBlobStream group image digest stream).run.Tends kept [] fun _ held => held = [] := by
  refine ⟨trivial, fun r => ?_⟩
  cases r with
  | error e => exact rfl
  | ok _ =>
    refine ⟨trivial, fun n => ⟨trivial, fun r => ?_⟩⟩
    cases r with
    | error e => exact rfl
    | ok _ =>
      show Job.Tends _ (ExceptT.run (writePieces _ [] stream >>= _)) _ _
      refine Job.Tends.andThen ((writePieces_tends stream []).post ?_)
      rintro (failure | data) held rfl
      · exact rfl
      refine ⟨trivial, fun r => ?_⟩
      cases r with
      | error e => exact ⟨trivial, fun _ => List.erase_cons_head _ []⟩
      | ok _ =>
        dsimp only
        split
        · exact ⟨trivial, fun _ => List.erase_cons_head _ []⟩
        · refine ⟨trivial, fun r => ?_⟩
          cases r with
          | ok e => exact ⟨trivial, fun _ => List.erase_cons_head _ []⟩
          | error e =>
            refine ⟨hk, fun r => ?_⟩
            cases r with
            | ok _ => exact List.erase_cons_head _ []
            | error e => exact ⟨trivial, fun _ => List.erase_cons_head _ []⟩

theorem readIfThere_tends {f : Option Bytes → Attempt α} (fault : CacheFault) (p : Path)
    (hf : ∀ content, (f content).run.Tends kept [] fun _ held => held = []) :
    (readIfThere fault p >>= f).run.Tends kept [] fun _ held => held = [] := by
  refine ⟨trivial, fun r => ?_⟩
  cases r with
  | ok content => exact hf (some content)
  | error e =>
    cases e with
    | missing => exact hf none
    | _ => exact rfl

theorem readManifest_tends (s : Store) (group image tag : String) :
    (s.readManifest group image tag).run.Tends kept [] fun _ held => held = [] := by
  refine readIfThere_tends _ _ fun content => ?_
  cases content with
  | none => exact rfl
  | some content =>
    dsimp only
    cases ManifestRecord.decode? content with
    | none => exact rfl
    | some record =>
      refine readIfThere_tends _ _ fun payload => ?_
      cases payload with
      | none => exact rfl
      | some payload =>
        dsimp only
        split
        · exact rfl
        · exact rfl

end Tends

/-! ## A stream that fails -/

/-- Below the base folder all is as it was, but there may be folders where nothing was. -/
def AddsFolders (s : Store) (d d' : Disk) : Prop :=
  ∀ l, location s.base <+: l → d'.get? l = d.get? l ∨ d.get? l = none ∧ d'.get? l = some .folder

theorem AddsFolders.refl (s : Store) (d : Disk) : s.AddsFolders d d := fun _ _ => .inl rfl

theorem AddsFolders.sameFile (h : s.AddsFolders d d') (hl : location s.base <+: l) :
    SameFile l d d' := by
  intro content
  rcases h l hl with hd | ⟨hn, hf⟩
  · rw [hd]
  · simp [hn, hf]

/-- New folders make no cache unclean. -/
theorem AddsFolders.isClean (h : s.AddsFolders d d') (hd : s.IsClean d) : s.IsClean d' :=
  fun l content hl hf => hd l content hl ((h.sameFile hl content).1 hf)

theorem addsFolders_makeFolders (s : Store) (p : Path) (d : Disk) :
    s.AddsFolders d (d.makeFolders p).2 := by
  intro l _
  rcases d.foldersMade p l with hd | ⟨hn, hf, -⟩
  · exact .inl hd
  · exact .inr ⟨hn, hf⟩

/-- A scratch file is in work, where nothing was at the start. All else below the base folder is as
it was, but for new folders. -/
structure IsInWork (s : Store) (p : Path) (d₀ d : Disk) : Prop where
  way : d.locate p = .ok (location p)
  file : ∃ content, d.get? (location p) = some (.file content)
  new : location s.base <+: location p → d₀.get? (location p) = none
  rest : ∀ l, location s.base <+: l → l ≠ location p →
    d.get? l = d₀.get? l ∨ d₀.get? l = none ∧ d.get? l = some .folder

namespace IsInWork

theorem of_create (h : s.AddsFolders d₀ d) (hd : d.create p = .ok d')
    (hnew : location s.base <+: location p →
      ∀ content, d₀.get? (location p) ≠ some (.file content)) :
    s.IsInWork p d₀ d' := by
  obtain ⟨hp, hfolder, rfl⟩ := Disk.create_eq_ok hd
  refine ⟨Disk.locate_mono (fun _ => Disk.get?_set_of_folder hfolder) hp,
    ⟨[], Disk.get?_set_self (Disk.ne_root hfolder)⟩, fun hl => ?_, fun l hl hne => ?_⟩
  · rcases h _ hl with hd | ⟨hn, -⟩
    · rw [hd] at hfolder
      cases hg : d₀.get? (location p) with
      | none => rfl
      | some e =>
        cases e with
        | folder => exact absurd hg hfolder
        | file content => exact absurd hg (hnew hl content)
    · exact hn
  · rw [Disk.get?_set_of_ne hne]
    exact h l hl

theorem root (h : s.IsInWork p d₀ d) : location p ≠ [] := by
  obtain ⟨content, hf⟩ := h.file
  exact Disk.ne_root (d := d) (by simp [hf])

theorem append {data : Bytes} (h : s.IsInWork p d₀ d) (hd : d.append p data = .ok d') :
    s.IsInWork p d₀ d' := by
  obtain ⟨-, content, hf, rfl⟩ := Disk.append_eq_ok hd
  refine ⟨Disk.locate_mono (fun _ => Disk.get?_set_of_folder (by simp [hf])) h.way,
    ⟨_, Disk.get?_set_self h.root⟩, h.new, fun l hl hne => ?_⟩
  rw [Disk.get?_set_of_ne hne]
  exact h.rest l hl hne

/-- When the scratch file is removed all is as it was at the start, but for new folders. -/
theorem remove (h : s.IsInWork p d₀ w.disk) : s.AddsFolders d₀ (w.perform (.remove p)).2.disk := by
  obtain ⟨content, hf⟩ := h.file
  have hd : (w.perform (.remove p)).2.disk = w.disk.erase (location p) := by
    dsimp only [World.perform, World.change]
    rw [Disk.remove_of_file h.way hf]
  rw [hd]
  intro l hl
  by_cases hlp : l = location p
  · rw [hlp, Disk.get?_erase_self h.root]
    exact .inl (h.new (hlp ▸ hl)).symm
  · rw [Disk.get?_erase_of_ne hlp]
    exact h.rest l hl hlp

end IsInWork

section Ends

variable {α : Type} {failure : Failure} {Q : Except Failure α → World → Prop}

theorem discard_ends (h : s.IsInWork p d₀ w.disk)
    (herror : ∀ w', s.AddsFolders d₀ w'.disk → Q (.error failure) w') :
    (Job.step (.remove p) fun _ => .done (.error failure)).Ends w Q :=
  herror _ h.remove

theorem append_ends {data : Bytes} {f : Attempt α} (h : s.IsInWork p d₀ w.disk)
    (herror : ∀ w', s.AddsFolders d₀ w'.disk → Q (.error failure) w')
    (hnext : ∀ w', s.IsInWork p d₀ w'.disk → f.run.Ends w' Q) :
    (do
      orDiscard p failure (← ask (.append p data))
      f : Attempt α).run.Ends w Q := by
  refine Job.ends_step.2 ?_
  dsimp only [World.perform]
  rcases w.write_change_cases fun d => d.append p data with ⟨e, hr, hd⟩ | ⟨hr, hd⟩
  · rw [hr]
    exact discard_ends (hd ▸ h) herror
  · rw [hr]
    exact hnext _ (h.append hd)

theorem sync_ends {f : Attempt α} (h : s.IsInWork p d₀ w.disk)
    (herror : ∀ w', s.AddsFolders d₀ w'.disk → Q (.error failure) w')
    (hnext : ∀ w', s.IsInWork p d₀ w'.disk → f.run.Ends w' Q) :
    (do
      orDiscard p failure (← ask (.sync p))
      f : Attempt α).run.Ends w Q := by
  refine Job.ends_step.2 ?_
  rw [← w.sync_disk p] at h
  generalize w.perform (.sync p) = out at h
  obtain ⟨e | _, w'⟩ := out
  · exact discard_ends h herror
  · exact hnext w' h

/-- A stream breaks off, a piece of it cannot be written, or all of it is in the scratch file. -/
theorem writePieces_ends (stream : List (Except Failure Bytes)) (seen : Bytes)
    (h : s.IsInWork p d₀ w.disk) :
    (writePieces p seen stream).run.Ends w fun r w' =>
      match r with
      | .ok _ => s.IsInWork p d₀ w'.disk
      | .error _ => s.AddsFolders d₀ w'.disk := by
  induction stream generalizing seen w with
  | nil => exact h
  | cons piece rest ih =>
    cases piece with
    | error failure => exact discard_ends h fun _ hd => hd
    | ok piece => exact append_ends h (fun _ hd => hd) fun w' h' => ih _ h'

/-- Folders are made and a scratch file is created in them. -/
theorem begin_ends {fault fault' : CacheFault} {f : Path → Attempt α} (hclean : s.IsClean w.disk)
    (herror : ∀ fault w', s.AddsFolders w.disk w'.disk → Q (.error (.cache fault)) w')
    (hnext : ∀ p w', s.IsInWork p w.disk w'.disk → (f p).run.Ends w' Q) :
    (do
      orFail fault (← ask (.makeFolders target.parent))
      let scratch ← s.newScratch target
      orFail fault' (← ask (.create scratch))
      f scratch : Attempt α).run.Ends w Q := by
  refine Job.ends_step.2 ?_
  have hmade : s.AddsFolders w.disk (w.perform (.makeFolders target.parent)).2.disk := by
    rcases w.makeFolders_disk target.parent with hd | hd
    · exact hd ▸ .refl s _
    · exact hd ▸ s.addsFolders_makeFolders _ _
  generalize w.perform (.makeFolders target.parent) = made at hmade
  obtain ⟨e | _, w₁⟩ := made
  · exact herror _ w₁ hmade
  refine Job.ends_step.2 (Job.ends_step.2 ?_)
  dsimp only [World.perform]
  generalize hw₂ : ({ w₁ with serial := w₁.serial + 1 } : World) = w₂
  have hmade₂ : s.AddsFolders w.disk w₂.disk := by
    rw [← hw₂]
    exact hmade
  generalize s.scratchLabel w₁.serial = label
  rcases w₂.write_change_cases fun d => d.create (scratchBeside target label) with
    ⟨e, hr, hd⟩ | ⟨hr, hd⟩
  · rw [hr]
    exact herror _ _ (hd ▸ hmade₂)
  · rw [hr]
    refine hnext _ _ (.of_create hmade₂ hd fun hl content => ?_)
    exact hclean.scratch target label content hl

/-- A scratch file that gets to its place, or not. -/
theorem rename_ends {a : α} (h : s.IsInWork p d₀ w.disk)
    (herror : ∀ w', s.AddsFolders d₀ w'.disk → Q (.error failure) w') (hok : ∀ w', Q (.ok a) w') :
    (do
      orDiscard p failure (← ask (.rename p target))
      return a : Attempt α).run.Ends w Q := by
  refine Job.ends_step.2 ?_
  dsimp only [World.perform]
  rcases w.write_change_cases fun d => d.rename p target with ⟨e, hr, hd⟩ | ⟨hr, hd⟩
  · rw [hr]
    exact discard_ends (hd ▸ h) herror
  · rw [hr]
    exact hok _

/-- A stream that fails leaves nothing but folders behind. -/
theorem writeBlobStream_ends (s : Store) (group image : String) (digest : Digest)
    (stream : List (Except Failure Bytes)) (hclean : s.IsClean w.disk) :
    (s.writeBlobStream group image digest stream).run.Ends w fun r w' =>
      r.isOk = false → s.AddsFolders w.disk w'.disk := by
  refine begin_ends hclean (fun _ _ hd _ => hd) fun p w₁ h₁ => ?_
  rw [Attempt.run_bind, Job.ends_bind]
  refine (writePieces_ends stream [] h₁).post ?_
  rintro (failure | data) w₂ h₂
  · exact fun _ => h₂
  refine sync_ends h₂ (fun _ hd _ => hd) fun w₃ h₃ => ?_
  dsimp only
  by_cases hd : Digest.of data = digest
  case neg =>
    rw [if_pos hd]
    exact discard_ends h₃ fun _ hd _ => hd
  rw [if_neg (by simpa using hd), Attempt.run_bind, Job.ends_bind]
  refine (isPresent_comesTo _ w₃).ends ?_
  dsimp only [Attempt.andThen_ok]
  cases w₃.disk.find (s.blobPath group image digest) with
  | ok e => exact fun h => by cases h
  | error e =>
    refine rename_ends h₃ (fun _ hd _ => hd) fun _ h => by cases h

end Ends

end Store

end PullThrough
