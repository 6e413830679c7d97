import PullThrough.Proofs.Cache.Effects
/-
  One download of a blob among others.

  Downloads share a disk, but each writes only to the place of its own blob and to scratch files
  beside it, so the others spare both (`BlobRef.spares_of_change`). What a download may rely on is
  `BlobRef.Others`, and what it does is `BlobRef.Downloads`: it changes its own place, and nothing
  and asks nobody once the blob is stored. An outcome that is a record is what a lookup finds from
  then on, and a failure leaves nothing that a lookup could find (`Cache.downloadBlob_amid`). A
  download sends at most a request for a token and then one for the blob
  (`Cache.downloadBlob_sends`).
-/
namespace PullThrough

open Job (Amid Sends)
open Store (Spares SameFile)

/-- What a blob is asked for by. -/
structure BlobRef where
  group : String
  image : String
  digest : Digest
  deriving DecidableEq

namespace BlobRef

/-- Checked names, and no part of the image is named like the folder of digests. -/
structure IsValid (r : BlobRef) : Prop where
  group : Name.checkGroup r.group = .ok ()
  image : Name.checkImage r.image = .ok ()
  plain : "sha256" ∉ Path.ofText r.image

/-- The key under which callers share the download. -/
def key (r : BlobRef) : String := Cache.blobKey r.group r.image r.digest

def place (r : BlobRef) : Place := .blob r.group r.image r.digest

variable {r r' : BlobRef} {s : Store} {d d' : Disk}

theorem IsValid.isGroup (h : r.IsValid) : Name.isGroup r.group = true :=
  Name.isGroup_of_check h.group

theorem IsValid.isImage (h : r.IsValid) : Name.isImage r.image = true :=
  Name.isImage_of_check h.image

theorem IsValid.isPlain (h : r.IsValid) : r.place.IsPlain :=
  Place.isPlain_blob h.isGroup h.isImage r.digest

theorem IsValid.isFair (h : r.IsValid) : Store.IsFair r.place :=
  ⟨h.isPlain, Place.isSound_blob _ _ _, h.plain⟩

/-! ## Keys and places -/

/-- Different blobs have different keys. -/
theorem key_inj (hr : Name.isGroup r.group = true) (hr' : Name.isGroup r'.group = true)
    (h : r.key = r'.key) : r = r' := by
  have hlength : ∀ d : Digest, d.text.toList.length = 71 := fun d => by
    rw [Name.text_toList, List.length_append, d.length_hex]
    rfl
  have hkey : ∀ r : BlobRef, r.key.toList =
      (r.group.toList ++ '/' :: (r.image.toList ++ ['@'])) ++ r.digest.text.toList := fun r => by
    simp [key, Cache.blobKey]
  have hlist := congrArg String.toList h
  rw [hkey, hkey] at hlist
  obtain ⟨hnames, hdigest⟩ := List.append_inj' hlist (by rw [hlength, hlength])
  have hcut := Text.cutFirst?_append (b := r.image.toList ++ ['@'])
    (Name.slash_not_mem_of_isGroup hr)
  rw [hnames, Text.cutFirst?_append (Name.slash_not_mem_of_isGroup hr')] at hcut
  simp only [Option.some.injEq, Prod.mk.injEq, List.append_cancel_right_eq] at hcut
  have htext : r.digest = r'.digest := by
    rw [Name.text_toList, Name.text_toList] at hdigest
    exact Digest.ext (String.toList_inj.1 (List.append_cancel_left hdigest))
  cases r
  cases r'
  simp_all [String.toList_inj]

theorem locationOf_ne (h : r ≠ r') : s.locationOf r.place ≠ s.locationOf r'.place := by
  intro hl
  obtain ⟨hg, -, hi, -, hf⟩ := Place.names_inj (Store.locationOf_inj hl)
  refine h ?_
  cases r
  cases r'
  simp_all [place, Place.blob, Digest.ext_iff]

/-- The place of a blob is no place of a scratch file. -/
theorem locationOf_ne_scratch (s : Store) (r : BlobRef) (x : Place) (label : String) :
    s.locationOf r.place ≠ s.locationOf (x.scratch label) := fun hl =>
  Place.isOwn_blob r.group r.image r.digest x label (Store.locationOf_inj hl)

/-- Scratch files beside different blobs are at different places. -/
theorem scratch_ne (h : r ≠ r') (label label' : String) :
    s.locationOf (r.place.scratch label) ≠ s.locationOf (r'.place.scratch label') := by
  intro hl
  obtain ⟨hg, -, hi, -, hf⟩ := Place.names_inj (Store.locationOf_inj hl)
  have hlist : r.digest.hex.toList ++ ("." ++ label ++ ".tmp").toList =
      r'.digest.hex.toList ++ ("." ++ label' ++ ".tmp").toList := by
    simpa [place, Place.blob, Place.scratch] using congrArg String.toList hf
  have hhex := (List.append_inj hlist (by rw [Digest.length_hex, Digest.length_hex])).1
  refine locationOf_ne (s := s) h ?_
  rw [Store.locationOf_eq, Store.locationOf_eq]
  have hhex := String.toList_inj.1 hhex
  simp_all [place, Place.blob, Place.scratch, Place.dropLast_names]

/-- Who writes to another blob's place spares this one. -/
theorem spares_of_change (h : r ≠ r') (hc : s.Change (Eq r'.place) d d') :
    Spares s r.place d d' where
  folder _ hl := hc.folder hl
  target := by
    refine hc.sameFile ?_ ?_
    · rintro _ rfl
      exact locationOf_ne h
    · rintro _ label rfl
      exact locationOf_ne_scratch s r _ label
  scratch label := by
    refine hc.sameFile ?_ ?_
    · rintro _ rfl
      exact (locationOf_ne_scratch s r' _ label).symm
    · rintro _ label' rfl
      exact scratch_ne h label label'

/-! ## Stored blobs -/

/-- A lookup finds the blob. -/
def IsStored (s : Store) (r : BlobRef) (d : Disk) : Prop :=
  ∃ record, s.blobAt r.group r.image r.digest d = .ok (some record)

theorem IsValid.blobPath_eq (h : r.IsValid) (s : Store) :
    s.blobPath r.group r.image r.digest = s.pathOf r.place :=
  s.blobPath_eq h.isGroup h.isImage r.digest

theorem IsValid.find_of_blobAt (h : r.IsValid) {record : BlobRecord}
    (hb : s.blobAt r.group r.image r.digest d = .ok (some record)) :
    ∃ content, d.find (s.pathOf r.place) = .ok (.file content) ∧
      record = ⟨r.group, r.image, r.digest, content.length,
        s.blobPath r.group r.image r.digest⟩ := by
  obtain ⟨content, hf, hr⟩ := Store.blobAt_eq_some hb
  rw [h.blobPath_eq] at hf
  exact ⟨content, hf, hr⟩

theorem IsValid.blobAt_of_find (h : r.IsValid) {content : Bytes}
    (hf : d.find (s.pathOf r.place) = .ok (.file content)) :
    s.blobAt r.group r.image r.digest d = .ok (some ⟨r.group, r.image, r.digest, content.length,
      s.blobPath r.group r.image r.digest⟩) := by
  rw [← h.blobPath_eq] at hf
  rw [Store.blobAt, hf]

/-- Others that spare the place of a blob leave it stored. -/
theorem IsValid.blobAt_of_spares (h : r.IsValid) (hs : Spares s r.place d d') {record : BlobRecord}
    (hb : s.blobAt r.group r.image r.digest d = .ok (some record)) :
    s.blobAt r.group r.image r.digest d' = .ok (some record) := by
  obtain ⟨content, hf, rfl⟩ := h.find_of_blobAt hb
  exact h.blobAt_of_find (hs.find h.isPlain hf)

/-- A blob that is not stored gets stored by a change of its file only. -/
theorem IsValid.isStored_of_sameFile (h : r.IsValid) (hd : s.IsTidy d)
    (hs : SameFile (s.locationOf r.place) d d') (hd' : r.IsStored s d') : r.IsStored s d := by
  obtain ⟨record, hb⟩ := hd'
  obtain ⟨content, hf, -⟩ := h.find_of_blobAt hb
  have hget := (Disk.find_eq_ok hf).2
  rw [Store.location_pathOf s h.isPlain] at hget
  exact ⟨_, h.blobAt_of_find (hd.find h.isPlain hf ((hs content).1 hget))⟩

/-! ## What a download relies on and what it does -/

/-- What other downloads may do. -/
def Others (s : Store) (r : BlobRef) (d d' : Disk) : Prop :=
  (s.IsKept d → s.IsKept d') ∧ Spares s r.place d d'

theorem Others.refl (s : Store) (r : BlobRef) (d : Disk) : r.Others s d d :=
  ⟨id, Spares.refl _ _ _⟩

theorem Others.trans {d₁ d₂ d₃ : Disk} (h : r.Others s d₁ d₂) (h' : r.Others s d₂ d₃) :
    r.Others s d₁ d₃ :=
  ⟨h'.1 ∘ h.1, h.2.trans h'.2⟩

theorem others_of_change (hr' : r'.IsValid) (h : r ≠ r') (hc : s.Change (Eq r'.place) d d') :
    r.Others s d d' :=
  ⟨fun hd => hd.change (hc.mono (by rintro _ rfl; exact hr'.isFair)), spares_of_change h hc⟩

/-- The cache is in use, and a lookup does not find the blob. -/
structure Lacks (s : Store) (r : BlobRef) (d : Disk) : Prop where
  isKept : s.IsKept d
  isMissing : ¬ r.IsStored s d

theorem Lacks.later (h : r.Lacks s d) (hr : r.IsValid) (hd : r.Others s d d') : r.Lacks s d' :=
  ⟨hd.1 h.isKept, fun hs => h.isMissing (hr.isStored_of_sameFile h.isKept.isTidy hd.2.target hs)⟩

/-- What a step of a download does: it changes the place of its blob, and once the blob is stored it
changes nothing and asks nobody. -/
def Downloads (s : Store) (r : BlobRef) (d : Disk) (step : Step) (d' : Disk) : Prop :=
  (d' = d ∨ s.Change (Eq r.place) d d') ∧ (r.IsStored s d → d' = d ∧ step.IsLocal)

/-- What a download ends with: the record that a lookup finds, or a failure if it finds none. -/
def Outcome (s : Store) (r : BlobRef) : Except Failure BlobRecord → Disk → Prop
  | .ok record, d => s.blobAt r.group r.image r.digest d = .ok (some record)
  | .error _, d => ¬ r.IsStored s d

end BlobRef

namespace Cache

variable {c : Cache} {r : BlobRef} {d : Disk}

open BlobRef (Others Downloads Outcome Lacks)

/-! ## One download -/

/-- Keeping a blob that is not stored. -/
theorem writeBlobStream_downloads (hr : r.IsValid) (hd : r.Lacks c.store d)
    (stream : List (Except Failure Bytes)) :
    (c.store.writeBlobStream r.group r.image r.digest stream).run.Amid (r.Others c.store)
      (r.Downloads c.store) d (r.Outcome c.store) := by
  have hwrite := (Store.writeBlobStream_amid (R := r.Others c.store) hr.isGroup hr.isImage r.digest
    (fun _ _ h => h.2) (Eq.refl r.place) stream d).keeps (I := c.store.IsKept)
    (fun _ _ hk h => h.1 hk) ?_ hd.isKept
  · refine hwrite.mono (fun _ _ h => h) ?_ ?_
    · rintro d₁ step d' ⟨-, hs, hc⟩
      exact ⟨hc, fun hst =>
        absurd (hr.isStored_of_sameFile hd.isKept.isTidy hs hst) hd.isMissing⟩
    · rintro (failure | record) d' ⟨⟨hkept, hs⟩, hk⟩
      · exact fun hst =>
          hd.isMissing (hr.isStored_of_sameFile hd.isKept.isTidy (hs rfl) hst)
      · obtain ⟨data, -, rfl, hf | ⟨⟨e, hf⟩, hs⟩⟩ := hkept
        · dsimp only at hf
          rw [hr.blobPath_eq] at hf
          exact hr.blobAt_of_find hf
        · -- what was there before was no file, and no folder lies there
          dsimp only at hf
          rw [hr.blobPath_eq] at hf
          cases e with
          | folder =>
            have hget := (Disk.find_eq_ok hf).2
            rw [Store.location_pathOf _ hr.isPlain] at hget
            exact absurd hget (hk.hasPlainFolders.blob _ _ _)
          | file content =>
            exact absurd (hr.isStored_of_sameFile hd.isKept.isTidy hs ⟨_, hr.blobAt_of_find hf⟩)
              hd.isMissing
  · rintro d₁ step d' hk ⟨-, rfl | hc⟩
    · exact hk
    · exact hk.change (hc.mono (by rintro _ rfl; exact hr.isFair))

/-- A download among others does what it may do, and ends as it should. -/
theorem downloadBlob_amid (c : Cache) (hr : r.IsValid) (hd : c.store.IsKept d) :
    (c.downloadBlob r.group r.image r.digest).run.Amid (r.Others c.store) (r.Downloads c.store) d
      (r.Outcome c.store) := by
  -- a request is sent only while the blob is missing
  have hask : ∀ {d₁ : Disk} (q : OriginRequest), r.Lacks c.store d₁ → ∀ d',
      r.Others c.store d₁ d' → r.Downloads c.store d' (.send q) d' := fun q h₁ d' h' =>
    ⟨.inl rfl, fun hst => absurd hst (h₁.later hr h').isMissing⟩
  obtain ⟨answer, hrun, hanswer, -⟩ := c.store.blob_run r.group r.image r.digest
  unfold downloadBlob
  rw [Attempt.run_bind, Job.amid_bind, hrun]
  refine Job.amid_step_find (fun d' _ => ⟨.inl rfl, fun _ => ⟨rfl, trivial⟩⟩) ?_
  intro d₁ h₁
  rw [Job.amid_done, hanswer]
  cases hb : c.store.blobAt r.group r.image r.digest d₁ with
  | error failure =>
    rintro ⟨record, hst⟩
    rw [hb] at hst
    cases hst
  | ok found =>
    cases found with
    | some record => exact hb
    | none =>
      have hlacks : r.Lacks c.store d₁ := by
        refine ⟨h₁.1 hd, ?_⟩
        rintro ⟨record, hst⟩
        rw [hb] at hst
        cases hst
      dsimp only [Attempt.andThen_ok]
      rw [Attempt.run_bind, Job.amid_bind]
      refine (c.origin.requestToken_isCall r.image).amid (hask _ hlacks) (Others.refl _ _ _) ?_
      intro token d₂ h₂
      cases token with
      | error failure => exact (hlacks.later hr h₂).isMissing
      | ok token =>
        have hlacks₂ := hlacks.later hr h₂
        dsimp only [Attempt.andThen_ok]
        rw [Attempt.run_bind, Job.amid_bind]
        refine (c.origin.fetchBlob_isCall r.image r.digest token).amid (hask _ hlacks₂)
          (Others.refl _ _ _) ?_
        intro stream d₃ h₃
        cases stream with
        | error failure => exact (hlacks₂.later hr h₃).isMissing
        | ok stream => exact writeBlobStream_downloads hr (hlacks₂.later hr h₃) stream

/-! ## Requests and failures -/

/-- The requests of a download, in their order. -/
def downloadPlan (c : Cache) (r : BlobRef) : List (OriginRequest → Prop) :=
  [fun q => q = c.origin.tokenRequest r.image,
    fun q => ∃ token, q = c.origin.blobRequest r.image r.digest token]

/-- The failure is not that of a caller whose download told it nothing. -/
def IsTold (answer : Except Failure α) : Prop := answer ≠ .error (.cache .closedDownload)

/-- What goes on after a part that is told is told. -/
theorem sends_andThen {plan : List (OriginRequest → Prop)} {x : Attempt α} {f : α → Attempt β}
    (hx : x.run.Sends plan fun a rest => rest = plan ∧ IsTold a)
    (hf : ∀ a, (f a).run.Sends plan fun b rest => rest = plan ∧ IsTold b) :
    (x >>= f).run.Sends plan fun b rest => rest = plan ∧ IsTold b := by
  rw [Attempt.run_bind]
  refine Sends.bind (hx.post ?_)
  rintro (failure | a) rest ⟨rfl, ha⟩
  · exact ⟨rfl, fun h => ha (by cases h; rfl)⟩
  · exact hf a

theorem orFail_sends {plan : List (OriginRequest → Prop)} {fault : CacheFault}
    (h : fault ≠ .closedDownload) (r : Except DiskFault α) :
    (Store.orFail fault r).run.Sends plan fun a rest => rest = plan ∧ IsTold a := by
  cases r with
  | ok a => exact ⟨rfl, by simp [IsTold]⟩
  | error e => exact ⟨rfl, fun hc => h (by cases hc; rfl)⟩

theorem orDiscard_sends {plan : List (OriginRequest → Prop)} {failure : Failure}
    (h : failure ≠ .cache .closedDownload) (scratch : Path) (r : Except DiskFault α) :
    (Store.orDiscard scratch failure r).run.Sends plan fun a rest => rest = plan ∧ IsTold a := by
  cases r with
  | ok a => exact ⟨rfl, by simp [IsTold]⟩
  | error e => exact fun _ => ⟨rfl, fun hc => h (by cases hc; rfl)⟩

theorem writePieces_sends {plan : List (OriginRequest → Prop)} (scratch : Path)
    (stream : List (Except Failure Bytes)) (hs : ∀ piece ∈ stream, IsTold piece) (seen : Bytes) :
    (Store.writePieces scratch seen stream).run.Sends plan fun a rest => rest = plan ∧
      IsTold a := by
  induction stream generalizing seen with
  | nil => exact ⟨rfl, by simp [IsTold]⟩
  | cons piece stream ih =>
    cases piece with
    | error failure =>
      have hf := hs (.error failure) (by simp)
      exact fun _ => ⟨rfl, fun hc => hf (by cases hc; rfl)⟩
    | ok piece =>
      refine fun r => sends_andThen (orDiscard_sends (by simp) scratch r) fun _ => ?_
      exact ih (fun p hp => hs p (by simp [hp])) (seen ++ piece)

theorem writeBlobStream_sends (s : Store) (r : BlobRef) {plan : List (OriginRequest → Prop)}
    {stream : List (Except Failure Bytes)} (hs : ∀ piece ∈ stream, IsTold piece) :
    (s.writeBlobStream r.group r.image r.digest stream).run.Sends plan
      fun a rest => rest = plan ∧ IsTold a := by
  refine fun x => sends_andThen (orFail_sends (by simp) x) fun _ => ?_
  refine fun n => fun x => sends_andThen (orFail_sends (by simp) x) fun _ => ?_
  refine sends_andThen (writePieces_sends _ stream hs []) fun data => ?_
  refine fun x => sends_andThen (orDiscard_sends (by simp) _ x) fun _ => ?_
  dsimp only
  split
  · exact fun _ => ⟨rfl, by simp [IsTold]⟩
  intro x
  cases x with
  | ok e => exact fun _ => ⟨rfl, by simp [IsTold]⟩
  | error e =>
    exact fun y => sends_andThen (orDiscard_sends (by simp) _ y) fun _ => ⟨rfl, by simp [IsTold]⟩

theorem isTold_of_bind {α β : Type} {x : Except Failure α} {g : α → Except Failure β}
    (hx : IsTold x) (hg : ∀ a, IsTold (g a)) : IsTold (x.bind g) := by
  cases x with
  | error e => exact fun h => hx (by cases h; rfl)
  | ok a => exact hg a

theorem heard_isTold (o : OriginClient) (call : Call) (y : Exchange) : IsTold (o.heard call y) := by
  cases y <;> simp [OriginClient.heard, IsTold]

theorem checkStatus_isTold (status : Status) (url : String) :
    IsTold (OriginClient.checkStatus status url) := by
  unfold OriginClient.checkStatus
  split_ifs <;> simp [IsTold]

theorem checkTokenStatus_isTold (status : Status) :
    IsTold (OriginClient.checkTokenStatus status) := by
  unfold OriginClient.checkTokenStatus
  split_ifs <;> simp [IsTold]

theorem wholeBody_isTold (o : OriginClient) (call : Call) (reply : Reply) :
    IsTold (o.wholeBody call reply) := by
  unfold OriginClient.wholeBody
  split <;> simp [IsTold]

theorem tokenOf_isTold (body : Bytes) : IsTold (OriginClient.tokenOf body) := by
  unfold OriginClient.tokenOf
  dsimp only
  split
  · split
    · split
      · split <;> simp [IsTold]
      · simp [IsTold]
    · simp [IsTold]
  · simp [IsTold]

theorem bodyStream_isTold (o : OriginClient) (reply : Reply) :
    ∀ piece ∈ o.bodyStream reply, IsTold piece := by
  intro piece hp
  rcases List.mem_append.1 hp with hp | hp
  · obtain ⟨chunk, -, rfl⟩ := List.mem_map.1 hp
    simp [IsTold]
  · split at hp
    · cases hp
    · rw [List.mem_singleton.1 hp]
      simp [IsTold]
    · rw [List.mem_singleton.1 hp]
      simp [IsTold]

/-- A download sends the requests of its plan at most, in their order, and tells what becomes of
it. -/
theorem downloadBlob_sends (c : Cache) (r : BlobRef) :
    (c.downloadBlob r.group r.image r.digest).run.Sends (c.downloadPlan r) fun a _ => IsTold a := by
  have hunsent : ∀ {α : Type} (call : Call),
      IsTold (.error (.unavailable (.failed call)) : Except Failure α) := by simp [IsTold]
  obtain ⟨answer, hrun, -, hfault⟩ := c.store.blob_run r.group r.image r.digest
  unfold downloadBlob
  rw [Attempt.run_bind, hrun]
  refine Sends.bind fun x => ?_
  rw [Sends]
  cases hx : answer x with
  | error failure =>
    rw [hfault x failure hx]
    simp [IsTold]
  | ok found =>
    cases found with
    | some record => simp [IsTold]
    | none =>
      dsimp only [Attempt.andThen_ok]
      rw [Attempt.run_bind]
      refine Sends.bind ((c.origin.requestToken_isCall r.image).sends
        (P := (· = c.origin.tokenRequest r.image)) rfl (fun y => ?_) (hunsent _))
      have htoken := isTold_of_bind (heard_isTold c.origin .tokenRequest y) fun reply =>
        isTold_of_bind (checkTokenStatus_isTold reply.status) fun _ =>
          isTold_of_bind (wholeBody_isTold c.origin .tokenResponse reply) tokenOf_isTold
      revert htoken
      generalize (c.origin.heard .tokenRequest y).bind _ = token
      intro htoken
      cases token with
      | error failure => exact fun h => htoken (by cases h; rfl)
      | ok token =>
        dsimp only [Attempt.andThen_ok]
        rw [Attempt.run_bind]
        refine Sends.bind ((c.origin.fetchBlob_isCall r.image r.digest token).sends
          (P := fun q => ∃ token, q = c.origin.blobRequest r.image r.digest token) ⟨token, rfl⟩
          (fun y => ?_) (hunsent _))
        cases hy : c.origin.heard .blobGet y with
        | error failure =>
          have hheard := heard_isTold c.origin .blobGet y
          rw [hy] at hheard
          exact fun h => hheard (by cases h; rfl)
        | ok reply =>
          have hstatus := checkStatus_isTold reply.status (c.origin.blobUrl r.image r.digest)
          show Sends (Attempt.andThen _ (OriginClient.checkStatus _ _ >>= _)) _ _
          cases hs : OriginClient.checkStatus reply.status (c.origin.blobUrl r.image r.digest) with
          | error failure =>
            rw [hs] at hstatus
            exact fun h => hstatus (by cases h; rfl)
          | ok _ =>
            exact (writeBlobStream_sends c.store r (bodyStream_isTold c.origin reply)).post
              fun _ _ h => h.2

end Cache
end PullThrough
