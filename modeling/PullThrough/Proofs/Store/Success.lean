import PullThrough.Proofs.Store.Layout
/-
  Writing succeeds on a device that works.

  In a cache whose files and folders do not get in each other's way (`Store.IsLaidOut`), nothing
  that the cache holds makes a write fail: a manifest is kept if its payload has the digest that is
  claimed for it (`Store.writeManifest_smoothly`), and a blob if its stream comes to an end and
  carries the digest that was asked for (`Store.writeBlobStream_smoothly`). Of any other stream the
  answer tells what is wrong with it (`Store.writeBlobStream_outcome`). What is left are the faults
  of the device (`Job.Smoothly`).

  `IsReady` is the state of the work once there is a scratch file.
-/
namespace PullThrough.Store

open PullThrough.Path (location)

variable {s : Store} {x : Place} {label : String} {d d' : Disk} {w : World} {α : Type}

/-! ## The way to a place -/

/-- A place whose folder is there can be reached. -/
theorem IsLaidOut.locate_works (h : s.IsLaidOut d) (hx : x.IsPlain)
    (hp : d.get? (s.root ++ x.names.dropLast) = some .folder) :
    Works (d.locate (s.pathOf x)) (· = location (s.pathOf x)) := by
  have hplain : ∀ n ∈ x.names.dropLast, Path.IsPlain n :=
    fun n hn => hx n (List.dropLast_subset _ hn)
  refine Disk.locate_works fun r part hr => ?_
  rw [pathOf_concat] at hr
  rcases List.prefix_concat_iff.1 hr with he | hr
  · rw [(List.append_inj' he rfl).1, Path.location_append_plain _ hplain]
    exact hp
  · exact h.isTidy.way hplain (by rw [hp]; simp) hr

/-- The folders on the way to a place can be made. -/
theorem IsLaidOut.makeFolders_works (h : s.IsLaidOut d) (hx : x.IsRegular) :
    Works (d.makeFolders (s.groupsFolder ++ x.names.dropLast)).1 fun _ =>
      (d.makeFolders (s.groupsFolder ++ x.names.dropLast)).2.get? (s.root ++ x.names.dropLast) =
        some .folder := by
  have hplain : ∀ n ∈ x.names.dropLast, Path.IsPlain n := fun n hn =>
    hx.isPlain n (List.dropLast_subset _ hn)
  have hfree : ∀ r, r <+: s.groupsFolder ++ x.names.dropLast → ∀ content,
      d.get? (location r) ≠ some (.file content) := by
    intro r hr content hf
    rcases List.prefix_or_prefix_of_prefix hr (List.prefix_append s.groupsFolder _) with
      hw | ⟨q, rfl⟩
    · rw [h.isTidy.onWay hw] at hf
      cases hf
    · have hq := (List.prefix_append_right_inj _).1 hr
      rw [Path.location_append_plain _ fun n hn => hplain n (hq.subset hn)] at hf
      exact h.not_file hx.toIsFlat hq content hf
  have hw := Disk.makeFolders_works hfree
  rwa [Path.location_append_plain _ hplain] at hw

/-- A scratch file with some content lies in the folder of its place. -/
structure IsReady (s : Store) (x : Place) (label : String) (content : Bytes) (d : Disk) : Prop where
  isLaidOut : s.IsLaidOut d
  folder : d.get? (s.root ++ x.names.dropLast) = some .folder
  scratch : d.get? (s.locationOf (x.scratch label)) = some (.file content)

section Steps

variable (hx : x.IsRegular) {Q : Except Failure α → World → Prop}
include hx

theorem IsLaidOut.changed (h : s.IsLaidOut d) (hc : s.Change (Eq x) d d') : s.IsLaidOut d' :=
  h.change (by rintro _ rfl; exact hx) hc

theorem IsLaidOut.scratch_works (h : s.IsLaidOut d)
    (hp : d.get? (s.root ++ x.names.dropLast) = some .folder) (label : String) :
    Works (d.locate (s.pathOf (x.scratch label))) (· = location (s.pathOf (x.scratch label))) :=
  h.locate_works (hx.isPlain.scratch label) (by rwa [Place.dropLast_scratch])

/-- Folders are made and a scratch file is created in them. -/
theorem begin_smoothly {fault fault' : CacheFault} {f : Path → Attempt α} (h : s.IsLaidOut w.disk)
    (hnext : ∀ label w', IsReady s x label [] w'.disk → SameFile (s.locationOf x) w.disk w'.disk →
      (f (s.pathOf (x.scratch label))).run.Smoothly w' Q) :
    (do
      orFail fault (← Attempt.ask (.makeFolders (s.pathOf x).parent))
      let scratch ← s.newScratch (s.pathOf x)
      orFail fault' (← Attempt.ask (.create scratch))
      f scratch : Attempt α).run.Smoothly w Q := by
  rw [parent_pathOf s hx.isPlain]
  have hlaid : s.IsLaidOut (w.disk.makeFolders (s.groupsFolder ++ x.names.dropLast)).2 :=
    h.changed hx (.folders x rfl)
  refine Job.smoothly_makeFolders (P := fun d => s.IsLaidOut d ∧
    d.get? (s.root ++ x.names.dropLast) = some .folder ∧ SameFile (s.locationOf x) w.disk d)
    ((h.makeFolders_works hx).imp fun _ _ hp => ⟨hlaid, hp, .makeFolders _ _⟩) ?_
  rintro w₁ ⟨h₁, hp₁, hs₁⟩
  refine Job.smoothly_step fun _ => ?_
  show (Job.step (.create (scratchBeside (s.pathOf x) (s.scratchLabel _))) _).Smoothly _ _
  rw [scratchBeside_pathOf s hx.isPlain]
  have hfile :
      w₁.disk.get? (location (s.pathOf (x.scratch (s.scratchLabel (w₁.perform .serial).1))))
      ≠ some .folder := by
    rw [location_pathOf s (hx.isPlain.scratch _)]
    exact h₁.not_folder (hx.toIsFlat.scratch _)
  refine Job.smoothly_create
    (P := fun d => IsReady s x (s.scratchLabel (w₁.perform .serial).1) [] d ∧
      SameFile (s.locationOf x) w₁.disk d)
    ((Disk.create_works (h₁.scratch_works hx hp₁ _) hfile).imp fun d' hc _ => ?_) ?_
  · obtain ⟨hchange, rfl⟩ := create_scratch hx.isPlain (Eq.refl x) hc
    exact ⟨⟨h₁.changed hx hchange, hchange.folder hp₁, Disk.get?_set_self (s.locationOf_ne_nil _)⟩,
      .set (s.scratch_ne x _).symm⟩
  · exact fun w₂ h₂ => hnext _ w₂ h₂.1 (hs₁.trans h₂.2)

/-- More octets are added to a scratch file. -/
theorem append_smoothly {content data : Bytes} {failure : Failure} {f : Attempt α}
    (h : IsReady s x label content w.disk)
    (hnext : ∀ w' : World, IsReady s x label (content ++ data) w'.disk →
      SameFile (s.locationOf x) w.disk w'.disk → f.run.Smoothly w' Q) :
    (do
      orDiscard (s.pathOf (x.scratch label)) failure
        (← Attempt.ask (.append (s.pathOf (x.scratch label)) data))
      f : Attempt α).run.Smoothly w Q := by
  have hfile : w.disk.get? (location (s.pathOf (x.scratch label))) = some (.file content) := by
    rw [location_pathOf s (hx.isPlain.scratch _)]
    exact h.scratch
  refine Job.smoothly_append (P := fun d => IsReady s x label (content ++ data) d ∧
      SameFile (s.locationOf x) w.disk d)
    ((Disk.append_works (h.isLaidOut.scratch_works hx h.folder _) data hfile).imp fun d' ha _ => ?_)
    fun w' h' => hnext w' h'.1 h'.2
  obtain ⟨hchange, seen, hseen, rfl⟩ := append_scratch hx.isPlain (Eq.refl x) ha
  rw [h.scratch] at hseen
  obtain rfl : content = seen := by simpa using hseen
  exact ⟨⟨h.isLaidOut.changed hx hchange, hchange.folder h.folder,
    Disk.get?_set_self (s.locationOf_ne_nil _)⟩, .set (s.scratch_ne x _).symm⟩

/-- A scratch file is given to the device. -/
theorem sync_smoothly {content : Bytes} {failure : Failure} {f : Attempt α}
    (h : IsReady s x label content w.disk)
    (hnext : ∀ w' : World, IsReady s x label content w'.disk → w'.disk = w.disk →
      f.run.Smoothly w' Q) :
    (do
      orDiscard (s.pathOf (x.scratch label)) failure
        (← Attempt.ask (.sync (s.pathOf (x.scratch label))))
      f : Attempt α).run.Smoothly w Q := by
  have hfile : w.disk.get? (location (s.pathOf (x.scratch label))) = some (.file content) := by
    rw [location_pathOf s (hx.isPlain.scratch _)]
    exact h.scratch
  refine Job.smoothly_sync
    ((Disk.read_works (h.isLaidOut.scratch_works hx h.folder _) hfile).imp fun _ _ _ => trivial) ?_
  intro w' hw'
  exact hnext w' (by rw [hw']; exact h) hw'

/-- A scratch file takes its place. -/
theorem rename_smoothly {content : Bytes} {failure : Failure}
    (h : IsReady s x label content w.disk) :
    (do
      orDiscard (s.pathOf (x.scratch label)) failure
        (← Attempt.ask (.rename (s.pathOf (x.scratch label)) (s.pathOf x)))
      : Attempt Unit).run.Smoothly w fun r w' =>
        r = .ok () ∧ w'.disk.get? (s.locationOf x) = some (.file content) := by
  have hfile : w.disk.get? (location (s.pathOf (x.scratch label))) = some (.file content) := by
    rw [location_pathOf s (hx.isPlain.scratch _)]
    exact h.scratch
  have htarget : w.disk.get? (location (s.pathOf x)) ≠ some .folder := by
    rw [location_pathOf s hx.isPlain]
    exact h.isLaidOut.not_folder hx.toIsFlat
  refine Job.smoothly_rename (P := fun d => d.get? (s.locationOf x) = some (.file content))
    ((Disk.rename_works (h.isLaidOut.scratch_works hx h.folder _)
      (h.isLaidOut.locate_works hx.isPlain h.folder) hfile htarget).imp ?_) ?_
  · rintro _ - rfl
    rw [location_pathOf s hx.isPlain]
    exact Disk.get?_set_self (s.locationOf_ne_nil x)
  · exact fun _ hd => Job.smoothly_done.2 ⟨rfl, hd⟩

/-! ## Whole files -/

theorem writeWhole_smoothly {data : Bytes} (h : s.IsLaidOut w.disk) :
    (s.writeWhole (s.pathOf x) data).run.Smoothly w fun r _ => r = .ok () := by
  refine begin_smoothly hx h ?_
  intro label w₁ h₁ _
  refine append_smoothly hx h₁ ?_
  intro w₂ h₂ _
  refine sync_smoothly hx h₂ ?_
  intro w₃ h₃ _
  exact (rename_smoothly hx h₃).post fun _ _ h => h.1

end Steps

/-- The removal of a scratch file leaves the file that it stands beside. -/
theorem sameFile_remove (hx : x.IsPlain) (label : String) (w : World) :
    SameFile (s.locationOf x) w.disk
      (w.perform (.remove (s.pathOf (x.scratch label)))).2.disk := by
  rcases World.change_cases (fun d => d.remove (s.pathOf (x.scratch label))) w.disk with
    ⟨e, -, hd⟩ | ⟨-, hd⟩
  · rw [show (w.perform (.remove _)).2.disk = w.disk from hd]
    exact .refl _ _
  · obtain ⟨-, he⟩ := remove_scratch hx (Eq.refl x) hd
    rw [show (w.perform (.remove _)).2.disk = _ from he]
    exact .erase (s.scratch_ne x label).symm

/-! ## Manifests and blobs -/

variable {group image tag contentType : String} {digest : Digest} {data : Bytes}

theorem writeRecord_smoothly (hu : IsUsual group image) (ht : Name.checkTag tag = .ok ())
    (h : s.IsLaidOut w.disk) :
    (s.writeRecord group image tag digest contentType data).run.Smoothly w fun r _ =>
      r.isOk = true := by
  unfold writeRecord
  rw [s.recordPath_eq hu.isGroup hu.isImage ht]
  refine Job.smoothly_step fun _ => ?_
  show Job.Smoothly (ExceptT.run (_ >>= _)) _ _
  rw [Attempt.run_bind]
  refine Job.Smoothly.bind ((readRecord_comesTo _ _).smoothly ?_)
  show Job.Smoothly (ExceptT.run (_ >>= _)) _ _
  rw [Attempt.run_bind]
  refine Job.Smoothly.bind ((writeWhole_smoothly (hu.record ht) ?_).post ?_)
  · exact h
  · rintro _ _ rfl
    exact Job.smoothly_done.2 rfl

/-- Keeping a manifest with its own digest fails by the device only. -/
theorem writeManifest_smoothly (hu : IsUsual group image) (ht : Name.checkTag tag = .ok ())
    (hd : Digest.of data = digest) (h : s.IsLaidOut w.disk) :
    (s.writeManifest group image tag digest contentType data).run.Smoothly w
      fun r _ => r.isOk = true := by
  have hx := hu.payload digest
  unfold writeManifest
  rw [if_neg (by simpa using hd), s.payloadPath_eq hu.isGroup hu.isImage]
  show Job.Smoothly (ExceptT.run (_ >>= _)) _ _
  rw [Attempt.run_bind]
  refine Job.Smoothly.bind ((isPresent_comesTo _ _).smoothly ?_)
  cases hf : w.disk.find (s.pathOf (.payload group image digest)) with
  | ok e => exact writeRecord_smoothly hu ht h
  | error e =>
    show Job.Smoothly (ExceptT.run (s.writeWhole _ data >>= fun _ =>
      s.writeRecord group image tag digest contentType data)) _ _
    rw [Attempt.run_bind]
    have hlaid :=
      (writeWhole_does (s := s) hx.isPlain (Eq.refl (Place.payload group image digest)) hd
      w).keeps (fun _ _ hk hc => IsLaidOut.changed hx hk hc) h
    refine Job.Smoothly.bind (((writeWhole_smoothly hx h).does hlaid).post ?_)
    rintro _ w₁ ⟨rfl, -, h₁⟩
    exact writeRecord_smoothly hu ht h₁

/-- The pieces of a stream that comes to its end. -/
def wholeOf? : List (Except Failure Bytes) → Option Bytes
  | [] => some []
  | .error _ :: _ => none
  | .ok piece :: rest => (wholeOf? rest).map (piece ++ ·)

/-- What arrives of a stream: all of it, or the failure that ends it. -/
def arrived : List (Except Failure Bytes) → Except Failure Bytes
  | [] => .ok []
  | .error failure :: _ => .error failure
  | .ok piece :: rest => (arrived rest).map (piece ++ ·)

/-- What arrives of pieces and what follows them. -/
theorem arrived_append (pieces : List Bytes) (rest : List (Except Failure Bytes)) :
    arrived (pieces.map .ok ++ rest) = (arrived rest).map (pieces.flatten ++ ·) := by
  induction pieces with
  | nil => cases h : arrived rest <;> simp [h, Except.map]
  | cons piece pieces ih =>
    rw [List.map_cons, List.cons_append, arrived, ih]
    cases arrived rest <;> simp [Except.map]

theorem arrived_map (pieces : List Bytes) : arrived (pieces.map .ok) = .ok pieces.flatten := by
  have h := arrived_append pieces []
  simpa [arrived, Except.map] using h

/-- A stream is all pieces, or a failure comes behind some. -/
theorem stream_cases (stream : List (Except Failure Bytes)) :
    (∃ pieces : List Bytes, stream = pieces.map .ok) ∨
      ∃ (pieces : List Bytes) (failure : Failure) (rest : List (Except Failure Bytes)),
        stream = pieces.map .ok ++ .error failure :: rest := by
  induction stream with
  | nil => exact .inl ⟨[], rfl⟩
  | cons piece stream ih =>
    cases piece with
    | error failure => exact .inr ⟨[], failure, stream, rfl⟩
    | ok piece =>
      rcases ih with ⟨pieces, rfl⟩ | ⟨pieces, failure, rest, rfl⟩
      · exact .inl ⟨piece :: pieces, rfl⟩
      · exact .inr ⟨piece :: pieces, failure, rest, rfl⟩

theorem arrived_of_wholeOf? {stream : List (Except Failure Bytes)}
    (h : wholeOf? stream = some data) : arrived stream = .ok data := by
  induction stream generalizing data with
  | nil =>
    obtain rfl : [] = data := by simpa [wholeOf?] using h
    rfl
  | cons piece rest ih =>
    cases piece with
    | error failure => cases h
    | ok piece =>
      obtain ⟨more, hmore, rfl⟩ := Option.map_eq_some_iff.1 h
      rw [arrived, ih hmore]
      rfl

theorem writePieces_smoothly (hx : x.IsRegular) {stream : List (Except Failure Bytes)}
    {seen : Bytes} (h : IsReady s x label seen w.disk) :
    (writePieces (s.pathOf (x.scratch label)) seen stream).run.Smoothly w fun r w' =>
      r = (arrived stream).map (seen ++ ·) ∧
        ∀ data, r = .ok data → IsReady s x label data w'.disk ∧
          SameFile (s.locationOf x) w.disk w'.disk := by
  induction stream generalizing seen w with
  | nil =>
    refine Job.smoothly_done.2 ⟨by simp [arrived, Except.map], ?_⟩
    rintro _ ⟨⟩
    exact ⟨h, .refl _ _⟩
  | cons piece rest ih =>
    cases piece with
    | error failure =>
      exact Job.smoothly_step fun _ => Job.smoothly_done.2 ⟨rfl, fun _ hd => by cases hd⟩
    | ok piece =>
      refine append_smoothly hx h fun w' h' hs => (ih h').post fun r w'' hr => ⟨?_, ?_⟩
      · rw [hr.1, arrived]
        cases arrived rest with
        | error failure => rfl
        | ok more => simp [Except.map]
      · exact fun data hd => ⟨(hr.2 data hd).1, hs.trans (hr.2 data hd).2⟩

/-- What keeping a stream as the blob of a digest comes to, on a device that works. -/
def streamOutcome (s : Store) (group image : String) (digest : Digest)
    (stream : List (Except Failure Bytes)) : Except Failure BlobRecord :=
  match arrived stream with
  | .error failure => .error failure
  | .ok data =>
    if Digest.of data = digest then
      .ok ⟨group, image, digest, data.length, s.blobPath group image digest⟩
    else .error (.digestMismatch digest.text (Digest.of data).text)

/-- Keeping a stream fails by the device, by what ends the stream, or by its digest. A file that was
there before stays; otherwise the data of the stream are there. -/
theorem writeBlobStream_outcome (hu : IsUsual group image) (digest : Digest)
    (stream : List (Except Failure Bytes)) (h : s.IsLaidOut w.disk) :
    (s.writeBlobStream group image digest stream).run.Smoothly w fun r w' =>
      r = s.streamOutcome group image digest stream ∧
        ∀ record, r = .ok record → ∀ content,
          w'.disk.get? (s.locationOf (.blob group image digest)) = some (.file content) ↔
            w.disk.get? (s.locationOf (.blob group image digest)) = some (.file content) ∨
              (∀ before, w.disk.get? (s.locationOf (.blob group image digest)) ≠
                some (.file before)) ∧ arrived stream = .ok content := by
  have hx := hu.blob digest
  unfold writeBlobStream streamOutcome
  rw [s.blobPath_eq hu.isGroup hu.isImage]
  refine begin_smoothly hx h ?_
  intro label w₁ h₁ hs₁
  rw [Attempt.run_bind]
  refine Job.Smoothly.bind ((writePieces_smoothly hx h₁).post ?_)
  rintro r w₂ ⟨hr, h₂⟩
  cases ha : arrived stream with
  | error failure =>
    rw [ha] at hr
    subst hr
    exact Job.smoothly_done.2 ⟨rfl, fun _ hr => by cases hr⟩
  | ok data =>
    obtain rfl : r = .ok data := by rw [hr, ha]; rfl
    obtain ⟨h₂, hs₂⟩ := h₂ data rfl
    refine sync_smoothly hx h₂ ?_
    intro w₃ h₃ hd₃
    have hs₃ : SameFile (s.locationOf (.blob group image digest)) w.disk w₃.disk := by
      rw [hd₃]
      exact hs₁.trans hs₂
    dsimp only
    by_cases hd : Digest.of data = digest
    case neg =>
      rw [if_pos hd, if_neg hd]
      exact Job.smoothly_step fun _ => Job.smoothly_done.2 ⟨rfl, fun _ hr => by cases hr⟩
    rw [if_neg (by simpa using hd), if_pos hd]
    refine Job.smoothly_step fun hfind => ?_
    change failedByDevice (w₃.disk.find (s.pathOf (.blob group image digest))) = false at hfind
    show Job.Smoothly (ExceptT.run (if (w₃.disk.find
      (s.pathOf (.blob group image digest))).toOption.isSome then _ else _)) w₃ _
    rw [h₃.isLaidOut.find_of_works hx hfind]
    cases hget : w₃.disk.get? (s.locationOf (.blob group image digest)) with
    | some e =>
      -- a file is there, and stays when the scratch file is removed
      cases e with
      | folder => exact absurd hget (h₃.isLaidOut.not_folder hx.toIsFlat)
      | file before =>
        refine Job.smoothly_step fun _ => Job.smoothly_done.2 ⟨rfl, fun _ _ content => ?_⟩
        have hthere := (hs₃ before).1 hget
        rw [(hs₃.trans (sameFile_remove hx.isPlain label w₃)) content, hthere]
        simp
    | none =>
      show Job.Smoothly (ExceptT.run ((do
        orDiscard _ _ (← Attempt.ask (.rename _ _)) : Attempt Unit) >>= fun _ => pure _)) _ _
      rw [Attempt.run_bind]
      refine Job.Smoothly.bind ((rename_smoothly hx h₃).post ?_)
      rintro _ w₄ ⟨rfl, hfile⟩
      have hnone : ∀ before, w.disk.get? (s.locationOf (.blob group image digest)) ≠
          some (.file before) := fun before hb => by
        rw [(hs₃ before).2 hb] at hget
        cases hget
      refine Job.smoothly_done.2 ⟨rfl, fun _ _ content => ?_⟩
      rw [hfile]
      simp [hnone]

/-- Keeping a blob whose stream carries it fails by the device only. -/
theorem writeBlobStream_smoothly (hu : IsUsual group image) {stream : List (Except Failure Bytes)}
    (hs : wholeOf? stream = some data) (hd : Digest.of data = digest) (h : s.IsLaidOut w.disk) :
    (s.writeBlobStream group image digest stream).run.Smoothly w fun r _ => r.isOk = true := by
  refine (writeBlobStream_outcome hu digest stream h).post fun r _ hr => ?_
  rw [hr.1, streamOutcome, arrived_of_wholeOf? hs]
  dsimp only
  rw [if_pos hd]
  rfl

end PullThrough.Store
