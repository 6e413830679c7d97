import PullThrough.Proofs.Job.Amid
import PullThrough.Proofs.Store.Changes
import PullThrough.Proofs.Store.Reading
import PullThrough.Store.Blobs
import PullThrough.Store.Manifests
/-
  What the writing operations of a store do, step by step.

  Each operation changes the disk by changes of one or two places only (`Store.Change`), and the
  statement about its end says what a success leaves behind: the whole content at its place
  (`writeWhole_does`), the record of a manifest (`writeManifest_does`), the content of a blob
  (`writeBlobStream_does`). A failure to write leaves the file at the place as it was.

  Between the creation of a scratch file and its end the state of the work is `IsFilling`. What
  holds before each step is `Writes` for one file and `KeepsManifest` for a manifest, and this is
  what is left where the work is given up.
-/
namespace PullThrough.Store

open Job (ComesTo)
open PullThrough.Path (location)

variable {s : Store} {allowed : Place → Prop} {x : Place} {label : String} {d d' d₀ : Disk}

/-! ## Scratch files -/

/-- The scratch file of a place has got some content, and the place is as it was. -/
structure IsFilling (s : Store) (x : Place) (label : String) (content : Bytes) (d₀ d : Disk) :
    Prop where
  scratch : d.get? (s.locationOf (x.scratch label)) = some (.file content)
  target : SameFile (s.locationOf x) d₀ d

theorem pathOf_concat (s : Store) (x : Place) :
    s.pathOf x = (s.groupsFolder ++ x.names.dropLast) ++ [x.file] := by
  rw [pathOf_eq, Place.dropLast_names]
  simp

/-- The folder of a place that can be reached is there. -/
theorem parent_of_locate {l : Location} (hx : x.IsPlain) (h : d.locate (s.pathOf x) = .ok l) :
    d.get? (s.root ++ x.names.dropLast) = some .folder := by
  rw [pathOf_concat] at h
  have hf := Disk.folder_of_locate h
  rwa [Path.location_append_plain] at hf
  exact fun n hn => hx n (List.dropLast_subset _ hn)

theorem parent_of_scratch {l : Location} (hx : x.IsPlain)
    (h : d.locate (s.pathOf (x.scratch label)) = .ok l) :
    d.get? (s.root ++ x.names.dropLast) = some .folder := by
  have := parent_of_locate (hx.scratch label) h
  rwa [Place.dropLast_scratch] at this

theorem create_scratch (hx : x.IsPlain) (ha : allowed x)
    (h : d.create (s.pathOf (x.scratch label)) = .ok d') :
    Change s allowed d d' ∧ d' = d.set (s.locationOf (x.scratch label)) (.file []) := by
  obtain ⟨hl, hf, rfl⟩ := Disk.create_eq_ok h
  have hp := parent_of_scratch hx hl
  rw [location_pathOf s (hx.scratch label)] at hf ⊢
  exact ⟨.fill x ha label [] hp hf, rfl⟩

theorem append_scratch {data : Bytes} (hx : x.IsPlain) (ha : allowed x)
    (h : d.append (s.pathOf (x.scratch label)) data = .ok d') :
    Change s allowed d d' ∧
      ∃ content, d.get? (s.locationOf (x.scratch label)) = some (.file content) ∧
        d' = d.set (s.locationOf (x.scratch label)) (.file (content ++ data)) := by
  obtain ⟨hl, content, hc, rfl⟩ := Disk.append_eq_ok h
  have hp := parent_of_scratch hx hl
  rw [location_pathOf s (hx.scratch label)] at hc ⊢
  exact ⟨.fill x ha label _ hp (by rw [hc]; simp), content, hc, rfl⟩

theorem remove_scratch (hx : x.IsPlain) (ha : allowed x)
    (h : d.remove (s.pathOf (x.scratch label)) = .ok d') :
    Change s allowed d d' ∧ d' = d.erase (s.locationOf (x.scratch label)) := by
  obtain ⟨-, content, hc, rfl⟩ := Disk.remove_eq_ok h
  rw [location_pathOf s (hx.scratch label)] at hc ⊢
  exact ⟨.discard x ha label content hc, rfl⟩

theorem rename_scratch {content : Bytes} (hx : x.IsPlain) (ha : allowed x)
    (hfit : x.fits content)
    (hc : d.get? (s.locationOf (x.scratch label)) = some (.file content))
    (h : d.rename (s.pathOf (x.scratch label)) (s.pathOf x) = .ok d') :
    Change s allowed d d' ∧ d'.find (s.pathOf x) = .ok (.file content) := by
  obtain ⟨-, hm, c, hs, hf, rfl⟩ := Disk.rename_eq_ok h
  rw [location_pathOf s (hx.scratch label)] at hs ⊢
  rw [hc] at hs
  obtain rfl : content = c := by simpa using hs
  have hp := parent_of_locate hx hm
  have hlx := location_pathOf s hx
  have hc' := Change.place x ha label content hfit hc hp (by rw [← hlx]; exact hf)
  refine ⟨by rw [hlx]; exact hc', Disk.find_of_locate (Disk.locate_mono ?_ hm) ?_⟩
  · rw [hlx]
    exact fun n hn => hc'.folder hn
  · rw [hlx, Disk.get?_set_self (s.locationOf_ne_nil x)]

/-- What is found at a place is found there as long as no folder goes away and the file stays. -/
theorem find_of_sameFile (hx : x.IsPlain) (hd : ∀ l, d.get? l = some .folder →
    d'.get? l = some .folder)
    (hs : SameFile (s.locationOf x) d d') {e : Entry} (hf : d.find (s.pathOf x) = .ok e) :
    d'.find (s.pathOf x) = .ok e := by
  obtain ⟨hl, hg⟩ := Disk.find_eq_ok hf
  refine Disk.find_of_locate (Disk.locate_mono hd hl) ?_
  cases e with
  | folder => exact hd _ hg
  | file content =>
    rw [location_pathOf s hx] at hg ⊢
    exact (hs content).2 hg

/-! ## Steps on the way -/

/-- What others may do to a disk while a place is written to: no folder goes away, and the files at
the place and beside it stay as they are. -/
structure Spares (s : Store) (x : Place) (d d' : Disk) : Prop where
  folder : ∀ l, d.get? l = some .folder → d'.get? l = some .folder
  target : SameFile (s.locationOf x) d d'
  scratch : ∀ label, SameFile (s.locationOf (x.scratch label)) d d'

theorem Spares.refl (s : Store) (x : Place) (d : Disk) : Spares s x d d :=
  ⟨fun _ h => h, SameFile.refl _ _, fun _ => SameFile.refl _ _⟩

theorem Spares.trans {d₁ d₂ d₃ : Disk} (h : Spares s x d₁ d₂) (h' : Spares s x d₂ d₃) :
    Spares s x d₁ d₃ :=
  ⟨fun l hl => h'.folder l (h.folder l hl), h.target.trans h'.target,
    fun label => (h.scratch label).trans (h'.scratch label)⟩

theorem IsFilling.spared {content : Bytes} (h : IsFilling s x label content d₀ d)
    (hd : Spares s x d d') : IsFilling s x label content d₀ d' :=
  ⟨(hd.scratch label content).2 h.scratch, h.target.trans hd.target⟩

/-- What is found at a place stays there. -/
theorem Spares.find (h : Spares s x d d') (hx : x.IsPlain) {e : Entry}
    (hf : d.find (s.pathOf x) = .ok e) : d'.find (s.pathOf x) = .ok e :=
  find_of_sameFile hx h.folder h.target hf

/-- What each step of a write does: up to its last step the file at the place is as at the start. -/
def Writes (s : Store) (allowed : Place → Prop) (x : Place) (d₀ d : Disk) (_ : Step) (d' : Disk) :
    Prop :=
  SameFile (s.locationOf x) d₀ d ∧ (d' = d ∨ s.Change allowed d d')

section Steps

variable {R : Disk → Disk → Prop} (hR : ∀ d d', R d d' → Spares s x d d') (hx : x.IsPlain)
  (ha : allowed x) {α : Type} {Q : Except Failure α → Disk → Prop}
include hR hx ha

/-- Giving up: the scratch file is removed, as far as that works. -/
theorem discard_amid {failure : Failure} (hs : SameFile (s.locationOf x) d₀ d)
    (h : ∀ d', SameFile (s.locationOf x) d₀ d' → Q (.error failure) d') :
    (Job.step (.remove (s.pathOf (x.scratch label))) fun _ =>
      .done (.error failure)).Amid R (s.Writes allowed x d₀) d Q := by
  refine Job.amid_step_remove ?_ ?_ ?_
  · exact fun d' hd => ⟨hs.trans (hR _ _ hd).target, .inl rfl⟩
  · exact fun d₁ d' hd hr =>
      ⟨hs.trans (hR _ _ hd).target, .inr (remove_scratch hx ha hr).1⟩
  · rintro _ d₁ d' hd (rfl | hr)
    · exact h _ (hs.trans (hR _ _ hd).target)
    · refine h _ ((hs.trans (hR _ _ hd).target).trans ?_)
      rw [(remove_scratch hx ha hr).2]
      exact SameFile.erase (scratch_ne s x label).symm

/-- Something is at the place already: the scratch file is removed, as far as that works. -/
theorem forgo_amid {content : Bytes} {e : Entry} {a : α} (hw : IsFilling s x label content d₀ d)
    (hf : d.find (s.pathOf x) = .ok e)
    (h : ∀ d', d'.find (s.pathOf x) = .ok e → SameFile (s.locationOf x) d₀ d' → Q (.ok a) d') :
    (Job.step (.remove (s.pathOf (x.scratch label))) fun _ =>
      .done (.ok a)).Amid R (s.Writes allowed x d₀) d Q := by
  have hne := (scratch_ne s x label).symm
  have hlater : ∀ d', R d d' → IsFilling s x label content d₀ d' :=
    fun d' hd => hw.spared (hR _ _ hd)
  refine Job.amid_step_remove ?_ ?_ ?_
  · exact fun d' hd => ⟨(hlater d' hd).target, .inl rfl⟩
  · exact fun d₁ d' hd hr => ⟨(hlater d₁ hd).target, .inr (remove_scratch hx ha hr).1⟩
  · rintro _ d₁ d' hd (rfl | hr)
    · exact h _ ((hR _ _ hd).find hx hf) (hlater _ hd).target
    · obtain ⟨hc, rfl⟩ := remove_scratch hx ha hr
      have hs := SameFile.erase (d := d₁) hne
      have hfind := find_of_sameFile hx (fun _ => hc.folder) hs ((hR _ _ hd).find hx hf)
      exact h _ hfind ((hlater _ hd).target.trans hs)

/-- Folders are made and a scratch file is created in them. -/
theorem begin_amid {fault fault' : CacheFault} {f : Path → Attempt α}
    (hs : SameFile (s.locationOf x) d₀ d)
    (herror : ∀ fault d', SameFile (s.locationOf x) d₀ d' → Q (.error (.cache fault)) d')
    (hnext : ∀ label d', IsFilling s x label [] d₀ d' →
      (f (s.pathOf (x.scratch label))).run.Amid R (s.Writes allowed x d₀) d' Q) :
    (do
      orFail fault (← Attempt.ask (.makeFolders (s.pathOf x).parent))
      let scratch ← s.newScratch (s.pathOf x)
      orFail fault' (← Attempt.ask (.create scratch))
      f scratch : Attempt α).run.Amid R (s.Writes allowed x d₀) d Q := by
  rw [parent_pathOf s hx]
  refine Job.amid_step_makeFolders ?_ ?_ ?_
  · exact fun d' hd => ⟨hs.trans (hR _ _ hd).target, .inl rfl⟩
  · exact fun d' hd => ⟨hs.trans (hR _ _ hd).target, .inr (.folders x ha)⟩
  intro r d₁ d₂ h₁ h₂
  have hs₂ : SameFile (s.locationOf x) d₀ d₂ := by
    refine (hs.trans (hR _ _ h₁).target).trans ?_
    rcases h₂ with rfl | rfl
    · exact SameFile.refl _ _
    · exact SameFile.makeFolders _ _
  cases r with
  | error e => exact herror _ _ hs₂
  | ok _ =>
    refine Job.amid_step_same (fun _ => rfl)
      (fun d' hd => ⟨hs₂.trans (hR _ _ hd).target, .inl rfl⟩) ?_
    intro n d₃ h₃
    have hs₃ := hs₂.trans (hR _ _ h₃).target
    show (Job.step (.create (scratchBeside (s.pathOf x) (s.scratchLabel n))) _).Amid _ _ _ _
    rw [scratchBeside_pathOf s hx]
    refine Job.amid_step_create ?_ ?_ ?_ ?_
    · exact fun d' hd => ⟨hs₃.trans (hR _ _ hd).target, .inl rfl⟩
    · exact fun d₁ d' hd hc =>
        ⟨hs₃.trans (hR _ _ hd).target, .inr (create_scratch hx ha hc).1⟩
    · exact fun e d' hd => herror _ _ (hs₃.trans (hR _ _ hd).target)
    · intro d₄ d' hd hc
      refine hnext (s.scratchLabel n) d' ?_
      rw [(create_scratch hx ha hc).2]
      exact ⟨Disk.get?_set_self (s.locationOf_ne_nil _),
        (hs₃.trans (hR _ _ hd).target).trans (SameFile.set (scratch_ne s x _).symm)⟩

/-- More octets are added to a scratch file. -/
theorem append_amid {seen data : Bytes} {failure : Failure} {f : Attempt α}
    (hw : IsFilling s x label seen d₀ d)
    (herror : ∀ d', SameFile (s.locationOf x) d₀ d' → Q (.error failure) d')
    (hnext : ∀ d', IsFilling s x label (seen ++ data) d₀ d' →
      f.run.Amid R (s.Writes allowed x d₀) d' Q) :
    (do
      orDiscard (s.pathOf (x.scratch label)) failure
        (← Attempt.ask (.append (s.pathOf (x.scratch label)) data))
      f : Attempt α).run.Amid R (s.Writes allowed x d₀) d Q := by
  have hlater : ∀ d', R d d' → IsFilling s x label seen d₀ d' := fun d' hd => hw.spared (hR _ _ hd)
  refine Job.amid_step_append ?_ ?_ ?_ ?_
  · exact fun d' hd => ⟨(hlater d' hd).target, .inl rfl⟩
  · exact fun d₁ d' hd h => ⟨(hlater d₁ hd).target, .inr (append_scratch hx ha h).1⟩
  · exact fun e d' hd => discard_amid hR hx ha (hlater d' hd).target herror
  · intro d₁ d' hd h
    obtain ⟨-, content, hc, rfl⟩ := append_scratch hx ha h
    refine hnext _ ?_
    rw [(hlater d₁ hd).scratch] at hc
    obtain rfl : seen = content := by simpa using hc
    exact ⟨Disk.get?_set_self (s.locationOf_ne_nil _),
      (hlater d₁ hd).target.trans (SameFile.set (scratch_ne s x _).symm)⟩

/-- A scratch file is given to the device. -/
theorem sync_amid {seen : Bytes} {failure : Failure} {f : Attempt α}
    (hw : IsFilling s x label seen d₀ d)
    (herror : ∀ d', SameFile (s.locationOf x) d₀ d' → Q (.error failure) d')
    (hnext : ∀ d', IsFilling s x label seen d₀ d' → f.run.Amid R (s.Writes allowed x d₀) d' Q) :
    (do
      orDiscard (s.pathOf (x.scratch label)) failure
        (← Attempt.ask (.sync (s.pathOf (x.scratch label))))
      f : Attempt α).run.Amid R (s.Writes allowed x d₀) d Q := by
  have hlater : ∀ d', R d d' → IsFilling s x label seen d₀ d' := fun d' hd => hw.spared (hR _ _ hd)
  refine Job.amid_step_sync (fun d' hd => ⟨(hlater d' hd).target, .inl rfl⟩) ?_
  intro r d' hd
  cases r with
  | ok _ => exact hnext d' (hlater d' hd)
  | error e => exact discard_amid hR hx ha (hlater d' hd).target herror

/-- A scratch file takes its place. -/
theorem rename_amid {content : Bytes} {failure : Failure} {Q : Except Failure Unit → Disk → Prop}
    (hfit : x.fits content) (hw : IsFilling s x label content d₀ d)
    (herror : ∀ d', SameFile (s.locationOf x) d₀ d' → Q (.error failure) d')
    (hok : ∀ d₁ d', R d d₁ → d₁.rename (s.pathOf (x.scratch label)) (s.pathOf x) = .ok d' →
      d'.find (s.pathOf x) = .ok (.file content) → Q (.ok ()) d') :
    (do
      orDiscard (s.pathOf (x.scratch label)) failure
        (← Attempt.ask (.rename (s.pathOf (x.scratch label)) (s.pathOf x)))
      : Attempt Unit).run.Amid R (s.Writes allowed x d₀) d Q := by
  have hlater : ∀ d', R d d' → IsFilling s x label content d₀ d' :=
    fun d' hd => hw.spared (hR _ _ hd)
  refine Job.amid_step_rename ?_ ?_ ?_ ?_
  · exact fun d' hd => ⟨(hlater d' hd).target, .inl rfl⟩
  · exact fun d₁ d' hd h => ⟨(hlater d₁ hd).target,
      .inr (rename_scratch hx ha hfit (hlater d₁ hd).scratch h).1⟩
  · exact fun e d' hd => discard_amid hR hx ha (hlater d' hd).target herror
  · exact fun d₁ d' hd h => hok d₁ d' hd h (rename_scratch hx ha hfit (hlater d₁ hd).scratch h).2

/-! ## Whole files -/

/-- Either the whole content gets to its place, or the file there stays as it is. -/
theorem writeWhole_amid {data : Bytes} (hfit : x.fits data) (d : Disk) :
    (s.writeWhole (s.pathOf x) data).run.Amid R (s.Writes allowed x d) d fun r d' =>
      match r with
      | .ok _ => d'.find (s.pathOf x) = .ok (.file data)
      | .error failure => (∃ fault, failure = .cache fault) ∧ SameFile (s.locationOf x) d d' := by
  refine begin_amid hR hx ha (SameFile.refl _ _) (fun fault d' hs => ⟨⟨fault, rfl⟩, hs⟩) ?_
  intro label d₁ h₁
  refine append_amid hR hx ha h₁ (fun d' hs => ⟨⟨_, rfl⟩, hs⟩) ?_
  intro d₂ h₂
  refine sync_amid hR hx ha h₂ (fun d' hs => ⟨⟨_, rfl⟩, hs⟩) ?_
  intro d₃ h₃
  exact rename_amid hR hx ha hfit h₃ (fun d' hs => ⟨⟨_, rfl⟩, hs⟩) fun _ _ _ _ hd => hd

end Steps

theorem spares_of_eq (s : Store) (x : Place) (d d' : Disk) (h : d = d') : Spares s x d d' := by
  rw [h]
  exact Spares.refl s x d'

theorem writeWhole_does {data : Bytes} (hx : x.IsPlain) (ha : allowed x) (hfit : x.fits data)
    (w : World) :
    (s.writeWhole (s.pathOf x) data).run.Does (s.Change allowed) w fun r w' =>
      match r with
      | .ok _ => w'.disk.find (s.pathOf x) = .ok (.file data)
      | .error failure => (∃ fault, failure = .cache fault) ∧
          SameFile (s.locationOf x) w.disk w'.disk :=
  (writeWhole_amid (s.spares_of_eq x) hx ha hfit w.disk).does fun _ _ _ h => h.2

/-! ## Manifests -/

theorem isPresent_comesTo (p : Path) (w : World) :
    ComesTo (isPresent p).run w (.ok (w.disk.find p).toOption.isSome) w :=
  ComesTo.step rfl (ComesTo.done _ _)

theorem readRecord_comesTo (p : Path) (w : World) :
    ComesTo (readRecord p).run w (.ok ((w.disk.read p).toOption.bind ManifestRecord.decode?)) w :=
  ComesTo.step rfl (ComesTo.done _ _)

/-- The places that belong to a tag: that of its record, and those of payloads. -/
def IsOfTag (group image tag : String) (x : Place) : Prop :=
  x = .record group image tag ∨ ∃ digest, x = .payload group image digest

/-- The places of one manifest: that of its record and that of its payload. -/
def IsOfManifest (group image tag : String) (digest : Digest) (x : Place) : Prop :=
  x = .record group image tag ∨ x = .payload group image digest

theorem IsOfManifest.isOfTag {group image tag : String} {digest : Digest}
    (h : IsOfManifest group image tag digest x) : IsOfTag group image tag x :=
  h.imp_right fun hx => ⟨digest, hx⟩

theorem IsOfTag.isFair {group image tag : String} (hg : Name.isGroup group = true)
    (hi : Name.isImage image = true) (hp : "sha256" ∉ Path.ofText image)
    (h : IsOfTag group image tag x) : IsFair x := by
  rcases h with rfl | ⟨digest, rfl⟩
  · exact ⟨Place.isPlain_record hg hi tag, Place.isSound_record group image tag, hp⟩
  · exact ⟨Place.isPlain_payload hg hi digest, Place.isSound_payload group image digest, hp⟩

/-- What keeping a manifest comes to: a record in its place, or else the place as it was. -/
def ManifestKept (s : Store) (group image tag : String) (digest : Digest) (contentType : String)
    (data : Bytes) (d : Disk) : Except Failure ManifestRecord → Disk → Prop
  | .ok r, d' => Digest.of data = digest ∧
      (∃ created updated,
        r = ⟨group, image, tag, digest, contentType, data.length, created, updated⟩) ∧
      d'.find (s.recordPath group image tag) = .ok (.file r.encode)
  | .error failure, d' =>
      (Digest.of data = digest ∧ (∃ fault, failure = .cache fault) ∨
        Digest.of data ≠ digest ∧ failure = .digestMismatch digest.text (Digest.of data).text) ∧
      SameFile (s.locationOf (.record group image tag)) d d'

/-- What becomes of a payload when its manifest is kept. A payload that is there is left alone. -/
inductive PayloadKept (s : Store) (group image : String) (digest : Digest) (data : Bytes)
    (d d' : Disk) : Except Failure ManifestRecord → Prop
  | present {r : Except Failure ManifestRecord} {e : Entry}
      (hf : d.find (s.payloadPath group image digest) = .ok e)
      (hs : SameFile (s.locationOf (.payload group image digest)) d d') :
      PayloadKept s _ _ _ _ _ _ r
  | written {r : Except Failure ManifestRecord}
      (hn : ∀ e, d.find (s.payloadPath group image digest) ≠ .ok e)
      (hf : d'.find (s.payloadPath group image digest) = .ok (.file data)) :
      PayloadKept s _ _ _ _ _ _ r
  | failed {failure : Failure}
      (hs : SameFile (s.locationOf (.payload group image digest)) d d') :
      PayloadKept s _ _ _ _ _ _ (.error failure)

section Leaves

variable {group image tag : String} {digest : Digest}
  (hl : s.Leaves (IsOfManifest group image tag digest) d d')
include hl

theorem Leaves.otherRecord {group' image' tag' : String}
    (hn : (Place.record group' image' tag').names ≠ (Place.record group image tag).names) :
    SameFile (s.locationOf (.record group' image' tag')) d d' := by
  refine hl.file _ (Place.isOwn_record group' image' tag') ?_
  rintro y (rfl | rfl)
  · exact hn
  · exact Place.record_ne_payload group' image' tag' group image digest

theorem Leaves.otherPayload {group' image' : String} {digest' : Digest}
    (hn : (Place.payload group' image' digest').names ≠ (Place.payload group image digest).names) :
    SameFile (s.locationOf (.payload group' image' digest')) d d' := by
  refine hl.file _ (Place.isOwn_payload group' image' digest') ?_
  rintro y (rfl | rfl)
  · exact (Place.record_ne_payload group image tag group' image' digest').symm
  · exact hn

/-- If keeping a manifest leaves its own record, then it leaves all records. -/
theorem Leaves.record (hs : SameFile (s.locationOf (.record group image tag)) d d')
    (group' image' tag' : String) : SameFile (s.locationOf (.record group' image' tag')) d d' := by
  by_cases hn : (Place.record group' image' tag').names = (Place.record group image tag).names
  · rwa [locationOf, hn]
  · exact hl.otherRecord hn

/-- If it leaves its own payload where that can be found, then it leaves all
payloads that can be. -/
theorem Leaves.payload (hs : ∀ e, d.find (s.payloadPath group image digest) = .ok e →
      SameFile (s.locationOf (.payload group image digest)) d d')
    {group' image' : String} {digest' : Digest} {e : Entry}
    (hf : d.find (s.payloadPath group' image' digest') = .ok e) :
    SameFile (s.locationOf (.payload group' image' digest')) d d' := by
  by_cases hn : (Place.payload group' image' digest').names =
    (Place.payload group image digest).names
  · obtain ⟨rfl, rfl, rfl⟩ := Place.names_payload_iff.1 hn
    exact hs e hf
  · exact hl.otherPayload hn

/-- Where only payloads of one kind were, only those are. -/
theorem PayloadKept.known (hg : Name.isGroup group = true) (hi : Name.isImage image = true)
    {known : Bytes → Prop} {data : Bytes} {r : Except Failure ManifestRecord}
    (h : s.PayloadKept group image digest data d d' r) (hdata : known data)
    (hknown : ∀ group image digest content,
      d.get? (s.locationOf (.payload group image digest)) = some (.file content) → known content)
    (group' image' : String) (digest' : Digest) (content : Bytes)
    (hget : d'.get? (s.locationOf (.payload group' image' digest')) = some (.file content)) :
    known content := by
  by_cases hn : (Place.payload group' image' digest').names =
    (Place.payload group image digest).names
  · obtain ⟨rfl, rfl, rfl⟩ := Place.names_payload_iff.1 hn
    cases h with
    | present hf hs => exact hknown _ _ _ _ ((hs content).1 hget)
    | failed hs => exact hknown _ _ _ _ ((hs content).1 hget)
    | written hno hf =>
      have hthere := (Disk.find_eq_ok hf).2
      rw [s.payloadPath_eq hg hi, location_pathOf s (Place.isPlain_payload hg hi _), hget] at hthere
      obtain rfl : content = data := by simpa using hthere
      exact hdata
  · exact hknown _ _ _ _ ((hl.otherPayload hn content).1 hget)

/-- Whatever payload can be found stays as it is. -/
theorem PayloadKept.sameFile {group' image' : String} {digest' : Digest} {data : Bytes}
    {r : Except Failure ManifestRecord} {e : Entry}
    (h : s.PayloadKept group image digest data d d' r)
    (hf : d.find (s.payloadPath group' image' digest') = .ok e) :
    SameFile (s.locationOf (.payload group' image' digest')) d d' := by
  refine hl.payload (fun e' he => ?_) hf
  cases h with
  | present hp hs => exact hs
  | written hno hp => exact absurd he (hno e')
  | failed hs => exact hs

end Leaves

/-- Where a manifest was kept, its payload is in place, or what was in that place before. -/
theorem PayloadKept.there {group image : String} {digest : Digest} {data : Bytes}
    {record : ManifestRecord} (h : s.PayloadKept group image digest data d d' (.ok record))
    (hg : Name.isGroup group = true) (hi : Name.isImage image = true)
    (hfolder : ∀ l, d.get? l = some .folder → d'.get? l = some .folder) :
    ∃ e, d'.find (s.payloadPath group image digest) = .ok e ∧
      (e = .file data ∨ d.find (s.payloadPath group image digest) = .ok e) := by
  cases h with
  | written hn hf => exact ⟨_, hf, .inl rfl⟩
  | @present _ e hf hs =>
    refine ⟨e, ?_, .inr hf⟩
    rw [s.payloadPath_eq hg hi] at hf ⊢
    exact find_of_sameFile (Place.isPlain_payload hg hi digest) hfolder hs hf

/-- The second half of keeping a manifest: the record that names its payload. -/
def writeRecord (s : Store) (group image tag : String) (digest : Digest) (contentType : String)
    (data : Bytes) : Attempt ManifestRecord := do
  let recordPath := s.recordPath group image tag
  let now ← Attempt.ask .clock
  let createdAt :=
    match ← readRecord recordPath with
    | some existing => existing.createdAt
    | none => now
  let record : ManifestRecord :=
    ⟨group, image, tag, digest, contentType, data.length, createdAt, now⟩
  s.writeWhole recordPath record.encode
  return record

/-- The record of a manifest is written last. Up to that step its file is as at the start. -/
theorem writeRecord_amid {group image tag : String} (hg : Name.isGroup group = true)
    (hi : Name.isImage image = true) (ht : Name.checkTag tag = .ok ()) {digest : Digest}
    (contentType : String) {data : Bytes} (hd : Digest.of data = digest)
    (hs : SameFile (s.locationOf (.record group image tag)) d₀ d) :
    (s.writeRecord group image tag digest contentType data).run.Amid Eq
      (s.Writes (Eq (.record group image tag)) (.record group image tag) d₀) d
      fun r d' => s.ManifestKept group image tag digest contentType data d₀ r d' := by
  have hx := Place.isPlain_record hg hi tag
  unfold writeRecord ManifestKept
  rw [s.recordPath_eq hg hi ht]
  refine Job.amid_step_same (fun _ => rfl) (by rintro _ rfl; exact ⟨hs, .inl rfl⟩) ?_
  rintro now _ rfl
  show Job.Amid _ _ (ExceptT.run (_ >>= _)) _ _
  rw [Attempt.run_bind, Job.amid_bind]
  refine Job.amid_step_same (fun _ => rfl) (by rintro _ rfl; exact ⟨hs, .inl rfl⟩) ?_
  rintro content _ rfl
  show Job.Amid _ _ (ExceptT.run (_ >>= _)) _ _
  rw [Attempt.run_bind, Job.amid_bind]
  refine (writeWhole_amid (s.spares_of_eq _) hx rfl ⟨_, rfl⟩ d).mono (fun _ _ h => h)
    (fun _ _ _ h => ⟨hs.trans h.1, h.2⟩) ?_
  rintro (failure | _) d' h
  · exact ⟨.inl ⟨hd, h.1⟩, hs.trans h.2⟩
  · exact ⟨hd, ⟨_, _, rfl⟩, h⟩

/-- What each step of keeping a manifest does. Up to the last step the record is as at the start,
and so is its payload if it can be found. -/
structure KeepsManifest (s : Store) (group image tag : String) (digest : Digest) (d₀ d : Disk)
    (_ : Step) (d' : Disk) : Prop where
  record : SameFile (s.locationOf (.record group image tag)) d₀ d
  payload : ∀ e, d₀.find (s.payloadPath group image digest) = .ok e →
    SameFile (s.locationOf (.payload group image digest)) d₀ d
  change : d' = d ∨ s.Change (IsOfManifest group image tag digest) d d'

theorem Leaves.writes {d₁ : Disk} {a : Step} (h : s.Leaves allowed d₀ d)
    (hw : s.Writes allowed x d₁ d a d') : s.Leaves allowed d₀ d' := by
  rcases hw.2 with rfl | hc
  · exact h
  · exact h.trans hc.leaves

/-- The second half of keeping a manifest, from a disk on which its files are as at the start. -/
theorem writeRecord_keeps {group image tag : String} (hg : Name.isGroup group = true)
    (hi : Name.isImage image = true) (ht : Name.checkTag tag = .ok ()) {digest : Digest}
    (contentType : String) {data : Bytes} (hd : Digest.of data = digest)
    (hs : SameFile (s.locationOf (.record group image tag)) d₀ d)
    (hp : ∀ e, d₀.find (s.payloadPath group image digest) = .ok e →
      SameFile (s.locationOf (.payload group image digest)) d₀ d) :
    (s.writeRecord group image tag digest contentType data).run.Amid Eq
      (s.KeepsManifest group image tag digest d₀) d
      fun r d' => s.ManifestKept group image tag digest contentType data d₀ r d' ∧
        s.Leaves (Eq (.record group image tag)) d d' := by
  have hkeeps := (writeRecord_amid hg hi ht contentType hd hs).keeps
    (I := s.Leaves (Eq (.record group image tag)) d) (by rintro _ _ hl rfl; exact hl)
    (fun _ _ _ hl hw => hl.writes hw) (Leaves.refl _ _ _)
  refine hkeeps.mono (fun _ _ h => h) ?_ (fun _ _ h => h)
  rintro d₁ _ d₂ ⟨hl, hsame, hc⟩
  refine ⟨hsame, fun e he => (hp e he).trans ?_, hc.imp_right fun h => ?_⟩
  · exact hl.other (Place.isOwn_payload group image digest)
      (Place.record_ne_payload group image tag group image digest).symm
  · exact h.mono (by rintro _ rfl; exact .inl rfl)

theorem writeManifest_amid {group image tag : String} (hg : Name.isGroup group = true)
    (hi : Name.isImage image = true) (ht : Name.checkTag tag = .ok ()) (digest : Digest)
    (contentType : String) (data : Bytes) (d : Disk) :
    (s.writeManifest group image tag digest contentType data).run.Amid Eq
      (s.KeepsManifest group image tag digest d) d
      fun r d' => s.ManifestKept group image tag digest contentType data d r d' ∧
        s.PayloadKept group image digest data d d' r := by
  have hx := Place.isPlain_payload hg hi digest
  have hown := Place.isOwn_payload group image digest
  have hne := Place.record_ne_payload group image tag group image digest
  have hp := s.payloadPath_eq hg hi digest
  unfold writeManifest
  by_cases hd : Digest.of data = digest
  case neg =>
    rw [if_pos hd]
    exact ⟨⟨.inr ⟨hd, rfl⟩, SameFile.refl _ _⟩, .failed (SameFile.refl _ _)⟩
  rw [if_neg (by simpa using hd), hp]
  show Job.Amid _ _ (ExceptT.run (_ >>= _)) _ _
  rw [Attempt.run_bind, Job.amid_bind]
  refine Job.amid_step_find
    (by rintro _ rfl; exact ⟨SameFile.refl _ _, fun _ _ => SameFile.refl _ _, .inl rfl⟩) ?_
  rintro _ rfl
  show Job.Amid _ _ (ExceptT.run
      (if !(d.find (s.pathOf (.payload group image digest))).toOption.isSome
    then _ else _)) _ _
  cases hf : d.find (s.pathOf (.payload group image digest)) with
  | ok e =>
    refine (writeRecord_keeps hg hi ht contentType hd (SameFile.refl _ _)
      fun _ _ => SameFile.refl _ _).post ?_
    intro r d' h
    exact ⟨h.1, .present (hp ▸ hf) (h.2.other hown hne.symm)⟩
  | error e =>
    have hn : ∀ e, d.find (s.payloadPath group image digest) ≠ .ok e := by
      intro e' he
      rw [hp, hf] at he
      cases he
    show Job.Amid _ _ (ExceptT.run (s.writeWhole _ data >>= fun _ =>
      s.writeRecord group image tag digest contentType data)) _ _
    rw [Attempt.run_bind, Job.amid_bind]
    -- writing the payload leaves the record as it is
    have hother : ∀ {d'}, s.Leaves (Eq (.payload group image digest)) d d' →
        SameFile (s.locationOf (.record group image tag)) d d' := fun hl =>
      hl.other (Place.isOwn_record group image tag) hne
    have hkeep :=
      (writeWhole_amid (s.spares_of_eq _) hx (Eq.refl (Place.payload group image digest)) hd
      d).keeps (I := s.Leaves (Eq (.payload group image digest)) d) (by rintro _ _ hl rfl; exact hl)
        (fun _ _ _ hl hw => hl.writes hw) (Leaves.refl _ _ _)
    refine hkeep.mono (fun _ _ h => h) ?_ ?_
    · rintro d₁ _ d₂ ⟨hl, hs, hc⟩
      exact ⟨hother hl, fun e he => absurd he (hn e),
        hc.imp_right fun h => h.mono (by rintro _ rfl; exact .inr rfl)⟩
    rintro (failure | _) d₁ ⟨h₁, hl₁⟩
    · exact ⟨⟨.inl ⟨hd, h₁.1⟩, hother hl₁⟩, .failed h₁.2⟩
    refine (writeRecord_keeps hg hi ht contentType hd (hother hl₁)
      fun e he => absurd he (hn e)).post ?_
    intro r d' h
    refine ⟨h.1, .written hn ?_⟩
    rw [hp]
    exact find_of_sameFile hx h.2.folder (h.2.other hown hne.symm) h₁

theorem writeManifest_does {group image tag : String} (hg : Name.isGroup group = true)
    (hi : Name.isImage image = true) (ht : Name.checkTag tag = .ok ()) (digest : Digest)
    (contentType : String) (data : Bytes) (w : World) :
    (s.writeManifest group image tag digest contentType data).run.Does
      (s.Change (IsOfManifest group image tag digest)) w
      fun r w' => s.ManifestKept group image tag digest contentType data w.disk r w'.disk ∧
        s.PayloadKept group image digest data w.disk w'.disk r :=
  (writeManifest_amid hg hi ht digest contentType data w.disk).does fun _ _ _ h => h.change

theorem writeManifest_end (s : Store) {group image tag : String} (hg : Name.isGroup group = true)
    (hi : Name.isImage image = true) (ht : Name.checkTag tag = .ok ()) (digest : Digest)
    (contentType : String) (data : Bytes) (w : World) :
    s.ManifestKept group image tag digest contentType data w.disk
      ((s.writeManifest group image tag digest contentType data).run.run w).1
      ((s.writeManifest group image tag digest contentType data).run.run w).2.disk :=
  (writeManifest_does hg hi ht digest contentType data w).run.1

/-! ### The steps of writing -/

/-- Writing to a target takes steps of one kind only. -/
structure WritesBy (s : Store) (P : Step → Prop) (target : Path) : Prop where
  find : P (.find target)
  folders : P (.makeFolders target.parent)
  serial : P .serial
  create : ∀ n, P (.create (scratchBeside target (s.scratchLabel n)))
  append : ∀ n data, P (.append (scratchBeside target (s.scratchLabel n)) data)
  sync : ∀ n, P (.sync (scratchBeside target (s.scratchLabel n)))
  rename : ∀ n, P (.rename (scratchBeside target (s.scratchLabel n)) target)
  remove : ∀ n, P (.remove (scratchBeside target (s.scratchLabel n)))

section Only

variable {α : Type} {P : Step → Prop} {target scratch : Path}

theorem orFail_only (fault : CacheFault) (r : Except DiskFault α) :
    (orFail fault r).run.Only P := by
  cases r <;> trivial

theorem orDiscard_only (h : P (.remove scratch)) (failure : Failure) (r : Except DiskFault α) :
    (orDiscard scratch failure r).run.Only P := by
  cases r with
  | ok a => trivial
  | error e => exact ⟨h, fun _ => trivial⟩

theorem WritesBy.writeWhole_only (h : s.WritesBy P target) (data : Bytes) :
    (s.writeWhole target data).run.Only P := by
  refine ⟨h.folders, fun r => (orFail_only _ r).andThen fun _ => ?_⟩
  refine ⟨h.serial, fun n => ⟨h.create n, fun r => (orFail_only _ r).andThen fun _ => ?_⟩⟩
  refine ⟨h.append n data, fun r => (orDiscard_only (h.remove n) _ r).andThen fun _ => ?_⟩
  refine ⟨h.sync n, fun r => (orDiscard_only (h.remove n) _ r).andThen fun _ => ?_⟩
  exact ⟨h.rename n, fun r => orDiscard_only (h.remove n) _ r⟩

theorem writePieces_only (happend : ∀ data, P (.append scratch data))
    (hremove : P (.remove scratch)) (seen : Bytes) (stream : List (Except Failure Bytes)) :
    (writePieces scratch seen stream).run.Only P := by
  induction stream generalizing seen with
  | nil => trivial
  | cons piece rest ih =>
    cases piece with
    | error failure => exact ⟨hremove, fun _ => trivial⟩
    | ok piece => exact ⟨happend piece, fun r => (orDiscard_only hremove _ r).andThen fun _ => ih _⟩

theorem WritesBy.writeBlobStream_only {group image : String} {digest : Digest}
    (h : s.WritesBy P (s.blobPath group image digest)) (stream : List (Except Failure Bytes)) :
    (s.writeBlobStream group image digest stream).run.Only P := by
  refine ⟨h.folders, fun r => (orFail_only _ r).andThen fun _ => ?_⟩
  refine ⟨h.serial, fun n => ⟨h.create n, fun r => (orFail_only _ r).andThen fun _ => ?_⟩⟩
  refine (writePieces_only (h.append n) (h.remove n) _ stream).andThen fun data => ?_
  refine ⟨h.sync n, fun r => (orDiscard_only (h.remove n) _ r).andThen fun _ => ?_⟩
  dsimp only
  split
  · exact ⟨h.remove n, fun _ => trivial⟩
  · refine ⟨h.find, fun r => ?_⟩
    cases r with
    | ok e => exact ⟨h.remove n, fun _ => trivial⟩
    | error e =>
      exact ⟨h.rename n, fun r => (orDiscard_only (h.remove n) _ r).andThen fun _ => trivial⟩

theorem WritesBy.writeRecord_only {group image tag : String}
    (h : s.WritesBy P (s.recordPath group image tag)) (hclock : P .clock)
    (hread : P (.read (s.recordPath group image tag))) (digest : Digest) (contentType : String)
    (data : Bytes) : (s.writeRecord group image tag digest contentType data).run.Only P :=
  ⟨hclock, fun _ => ⟨hread, fun _ => (h.writeWhole_only _).andThen fun _ => trivial⟩⟩

theorem WritesBy.writeManifest_only {group image tag : String} {digest : Digest}
    (h : s.WritesBy P (s.recordPath group image tag))
    (hpayload : s.WritesBy P (s.payloadPath group image digest)) (hclock : P .clock)
    (hread : P (.read (s.recordPath group image tag))) (contentType : String) (data : Bytes) :
    (s.writeManifest group image tag digest contentType data).run.Only P := by
  have hrecord := h.writeRecord_only hclock hread digest contentType data
  unfold writeManifest
  dsimp only
  split
  · trivial
  · refine ⟨hpayload.find, fun r => ?_⟩
    cases r with
    | ok e => exact hrecord
    | error e => exact (hpayload.writeWhole_only _).andThen fun _ => hrecord

end Only

theorem writesBy_isOfFiles (s : Store) (target : Path) : s.WritesBy Step.IsOfFiles target :=
  ⟨trivial, trivial, trivial, fun _ => trivial, fun _ _ => trivial, fun _ => trivial,
    fun _ => trivial, fun _ => trivial⟩

theorem writesBy_isLocal (s : Store) (target : Path) : s.WritesBy Step.IsLocal target :=
  ⟨trivial, trivial, trivial, fun _ => trivial, fun _ _ => trivial, fun _ => trivial,
    fun _ => trivial, fun _ => trivial⟩

theorem writeWhole_isOfFiles (s : Store) (target : Path) (data : Bytes) :
    (s.writeWhole target data).run.Only Step.IsOfFiles :=
  (s.writesBy_isOfFiles target).writeWhole_only data

theorem writeBlobStream_isOfFiles (s : Store) (group image : String) (digest : Digest)
    (stream : List (Except Failure Bytes)) :
    (s.writeBlobStream group image digest stream).run.Only Step.IsOfFiles :=
  (s.writesBy_isOfFiles _).writeBlobStream_only stream

theorem writeManifest_isLocal (s : Store) (group image tag : String) (digest : Digest)
    (contentType : String) (data : Bytes) :
    (s.writeManifest group image tag digest contentType data).run.Only Step.IsLocal :=
  (s.writesBy_isLocal _).writeManifest_only (s.writesBy_isLocal _) trivial trivial contentType data

/-- The clock is read once for a record. -/
theorem writeRecord_readings (s : Store) (group image tag : String) (digest : Digest)
    (contentType : String) (data : Bytes) (w : World) :
    ((s.writeRecord group image tag digest contentType data).run.run w).2.readings =
      w.readings + 1 := by
  unfold writeRecord
  dsimp only
  rw [Attempt.run_ask_bind, Job.run_step]
  refine (Job.Only.readings ?_ _).trans rfl
  exact ⟨trivial, fun r => (writeWhole_isOfFiles s _ _).andThen fun _ => trivial⟩

/-! ### When a manifest was kept -/

/-- A record with the time of now. For its creation it says the same, or what the record says
that was in its place. -/
def IsTimed (s : Store) (w : World) (r : ManifestRecord) : Prop :=
  (∃ n, r.updatedAt = w.clock n) ∧ ((∃ n, r.createdAt = w.clock n) ∨
    ∃ content existing,
      w.disk.get? (s.locationOf (.record r.group r.image r.tag)) = some (.file content) ∧
        ManifestRecord.decode? content = some existing ∧ r.createdAt = existing.createdAt)

/-- Such a record is a proper one: its time of creation comes from a clock, or was read. -/
theorem IsTimed.isProper {w : World} {r : ManifestRecord} (h : s.IsTimed w r)
    (hclock : ∀ n, (w.clock n).IsShown) (hsize : r.size < 2 ^ 64) : r.IsProper := by
  obtain ⟨⟨n, hupdated⟩, hcreated⟩ := h
  refine ⟨hsize, ?_, hupdated ▸ hclock n⟩
  rcases hcreated with ⟨m, hm⟩ | ⟨content, existing, -, hdecode, hexisting⟩
  · exact hm ▸ hclock m
  · exact hexisting ▸ (ManifestRecord.isProper_of_decode? hdecode).created

/-- A record that was kept has the time of now, and with it that of the record before it. -/
theorem writeRecord_record {group image tag : String} {digest : Digest} {contentType : String}
    {data : Bytes} {w : World} {r : ManifestRecord}
    (h : ((s.writeRecord group image tag digest contentType data).run.run w).1 = .ok r) :
    r = ⟨group, image, tag, digest, contentType, data.length,
        (((w.disk.read (s.recordPath group image tag)).toOption.bind ManifestRecord.decode?).map
          ManifestRecord.createdAt).getD (w.clock w.readings), w.clock w.readings⟩ := by
  have hread := readRecord_comesTo (s.recordPath group image tag) (w.perform .clock).2
  unfold writeRecord at h
  dsimp only at h
  rw [Attempt.run_ask_bind, Job.run_step, Attempt.run_bind, Job.run_bind, hread.run] at h
  dsimp only [Attempt.andThen_ok] at h
  rw [Attempt.run_bind, Job.run_bind] at h
  generalize (ExceptT.run (s.writeWhole _ _)).run _ = out at h
  obtain ⟨failure | _, w'⟩ := out
  · cases h
  cases h
  dsimp only [World.perform]
  cases (w.disk.read (s.recordPath group image tag)).toOption.bind ManifestRecord.decode? <;> rfl

theorem writeRecord_isTimed {group image tag : String} (hg : Name.isGroup group = true)
    (hi : Name.isImage image = true) (ht : Name.checkTag tag = .ok ()) {digest : Digest}
    {contentType : String} {data : Bytes} {w : World} {r : ManifestRecord}
    (h : ((s.writeRecord group image tag digest contentType data).run.run w).1 = .ok r) :
    s.IsTimed w r := by
  rw [writeRecord_record h]
  refine ⟨⟨_, rfl⟩, ?_⟩
  dsimp only
  cases hr : w.disk.read (s.recordPath group image tag) with
  | error e => exact .inl ⟨_, rfl⟩
  | ok content =>
    have hget := (Disk.find_eq_ok (Disk.read_eq_ok hr)).2
    rw [s.recordPath_eq hg hi ht, location_pathOf s (Place.isPlain_record hg hi tag)] at hget
    cases hd : ManifestRecord.decode? content with
    | none => exact .inl ⟨w.readings, by simp [Except.toOption, hd]⟩
    | some existing =>
      exact .inr ⟨content, existing, hget, hd, by simp [Except.toOption, hd]⟩

/-- A manifest that was kept: its payload was put in its place, if need be, and then its record was
written. -/
theorem writeManifest_second {group image tag : String} (hg : Name.isGroup group = true)
    (hi : Name.isImage image = true) {digest : Digest} {contentType : String} {data : Bytes}
    {w : World} {r : ManifestRecord}
    (h : ((s.writeManifest group image tag digest contentType data).run.run w).1 = .ok r) :
    ∃ w₁ : World, (s.writeManifest group image tag digest contentType data).run.run w =
        (s.writeRecord group image tag digest contentType data).run.run w₁ ∧
      w₁.clock = w.clock ∧ w₁.readings = w.readings ∧
      ∀ I : Disk → Prop, (∀ d d', I d → s.Change (Eq (.payload group image digest)) d d' → I d') →
        I w.disk → I w₁.disk := by
  have hx := Place.isPlain_payload hg hi digest
  by_cases hd : Digest.of data = digest
  case neg =>
    unfold writeManifest at h
    dsimp only at h
    rw [if_pos hd] at h
    cases h
  revert h
  unfold writeManifest
  dsimp only
  rw [if_neg (by simpa using hd), s.payloadPath_eq hg hi digest, Attempt.run_bind, Job.run_bind,
    (isPresent_comesTo _ w).run]
  dsimp only [Attempt.andThen_ok]
  cases hf : w.disk.find (s.pathOf (.payload group image digest)) with
  | ok e => exact fun _ => ⟨w, rfl, rfl, rfl, fun _ _ hI => hI⟩
  | error e =>
    intro h
    change ((ExceptT.run (s.writeWhole _ data >>= fun _ =>
      s.writeRecord group image tag digest contentType data)).run w).1 = _ at h
    rw [Attempt.run_bind, Job.run_bind] at h
    have hkeeps := fun I hI hw => ((writeWhole_does (s := s) hx
      (Eq.refl (Place.payload group image digest)) hd w).keeps (I := I) hI hw).run.2
    have hclock := (Job.run_fixed (ExceptT.run
      (s.writeWhole (s.pathOf (.payload group image digest)) data)) w).2
    have hreadings :=
      (writeWhole_isOfFiles s (s.pathOf (.payload group image digest)) data).readings w
    refine ⟨((s.writeWhole (s.pathOf (.payload group image digest)) data).run.run w).2, ?_, hclock,
      hreadings, hkeeps⟩
    show (ExceptT.run (s.writeWhole _ data >>= fun _ =>
      s.writeRecord group image tag digest contentType data)).run w = _
    rw [Attempt.run_bind, Job.run_bind]
    generalize (ExceptT.run (s.writeWhole _ _)).run _ = out at h
    obtain ⟨failure | _, w₁⟩ := out
    · cases h
    · rfl

theorem writeManifest_isTimed {group image tag : String} (hg : Name.isGroup group = true)
    (hi : Name.isImage image = true) (ht : Name.checkTag tag = .ok ()) {digest : Digest}
    {contentType : String} {data : Bytes} {w : World} {r : ManifestRecord}
    (h : ((s.writeManifest group image tag digest contentType data).run.run w).1 = .ok r) :
    s.IsTimed w r := by
  obtain ⟨w₁, hrun, hclock, -, hkeeps⟩ := writeManifest_second hg hi h
  have hsame : SameFile (s.locationOf (.record group image tag)) w.disk w₁.disk :=
    hkeeps (SameFile _ w.disk) (fun d d' hs hc => hs.trans (hc.leaves.other
      (Place.isOwn_record group image tag) (Place.record_ne_payload _ _ _ _ _ _))) (.refl _ _)
  have hend := writeManifest_end s hg hi ht digest contentType data w
  rw [h] at hend
  obtain ⟨-, ⟨created, updated, rfl⟩, -⟩ := hend
  rw [hrun] at h
  obtain ⟨hu, hc⟩ := writeRecord_isTimed hg hi ht h
  rw [hclock] at hu hc
  refine ⟨hu, hc.imp_right ?_⟩
  rintro ⟨content, existing, hget, hdec, he⟩
  exact ⟨content, existing, (hsame content).1 hget, hdec, he⟩

/-! ## Blobs -/

/-- The pieces of a stream are added to a scratch file. -/
theorem writePieces_amid {R : Disk → Disk → Prop} (hR : ∀ d d', R d d' → Spares s x d d')
    (hx : x.IsPlain) (ha : allowed x) (stream : List (Except Failure Bytes)) {seen : Bytes}
    (hw : IsFilling s x label seen d₀ d) :
    (writePieces (s.pathOf (x.scratch label)) seen stream).run.Amid R (s.Writes allowed x d₀) d
      fun r d' =>
        match r with
        | .ok data => IsFilling s x label data d₀ d'
        | .error _ => SameFile (s.locationOf x) d₀ d' := by
  induction stream generalizing seen d with
  | nil => exact hw
  | cons piece rest ih =>
    cases piece with
    | error failure => exact discard_amid hR hx ha hw.target fun _ hs => hs
    | ok piece => exact append_amid hR hx ha hw (fun _ hs => hs) fun d' hd => ih hd

/-- What keeping a blob comes to: all of it is in its place, unless something was there before. -/
def BlobKept (s : Store) (group image : String) (digest : Digest) (d : Disk) :
    Except Failure BlobRecord → Disk → Prop
  | .ok r, d' => ∃ data, Digest.of data = digest ∧
      r = ⟨group, image, digest, data.length, s.blobPath group image digest⟩ ∧
      (d'.find r.path = .ok (.file data) ∨
        (∃ e, d'.find r.path = .ok e) ∧ SameFile (s.locationOf (.blob group image digest)) d d')
  | .error _, _ => True

section Ends

variable {R : Disk → Disk → Prop} {group image : String} (hg : Name.isGroup group = true)
  (hi : Name.isImage image = true) (digest : Digest)
include hg hi

/-- Keeping a blob ends in one of three ways: it fails, it finds something at the place of
the blob, or it finds nothing there and then puts the blob in. Up to its last step the file
there is as at the start. -/
theorem writeBlobStream_amid_of (hR : ∀ d d', R d d' → Spares s (.blob group image digest) d d')
    (ha : allowed (.blob group image digest)) (stream : List (Except Failure Bytes)) (d : Disk)
    {Q : Except Failure BlobRecord → Disk → Prop}
    (herror : ∀ failure d', SameFile (s.locationOf (.blob group image digest)) d d' →
      Q (.error failure) d')
    (hforgo : ∀ data e d', Digest.of data = digest →
      d'.find (s.pathOf (.blob group image digest)) = .ok e →
        SameFile (s.locationOf (.blob group image digest)) d d' →
          Q (.ok ⟨group, image, digest, data.length, s.pathOf (.blob group image digest)⟩) d')
    (hput : ∀ data e label d₁ d₂ d', Digest.of data = digest →
      SameFile (s.locationOf (.blob group image digest)) d d₁ →
        d₁.find (s.pathOf (.blob group image digest)) = .error e → R d₁ d₂ →
          d₂.rename (s.pathOf ((Place.blob group image digest).scratch label))
            (s.pathOf (.blob group image digest)) = .ok d' →
              d'.find (s.pathOf (.blob group image digest)) = .ok (.file data) →
                Q (.ok ⟨group, image, digest, data.length, s.pathOf (.blob group image digest)⟩)
                  d') :
    (s.writeBlobStream group image digest stream).run.Amid R
      (s.Writes allowed (.blob group image digest) d) d Q := by
  have hx := Place.isPlain_blob hg hi digest
  unfold writeBlobStream
  rw [s.blobPath_eq hg hi digest]
  refine begin_amid hR hx ha (SameFile.refl _ _) (fun _ _ hs => herror _ _ hs) ?_
  intro label d₁ h₁
  rw [Attempt.run_bind, Job.amid_bind]
  refine (writePieces_amid hR hx ha stream h₁).post ?_
  rintro (failure | data) d₂ h₂
  · exact herror _ _ h₂
  refine sync_amid hR hx ha h₂ (fun _ hs => herror _ _ hs) ?_
  intro d₃ h₃
  dsimp only
  by_cases hd : Digest.of data = digest
  case neg =>
    rw [if_pos hd]
    exact discard_amid hR hx ha h₃.target fun _ hs => herror _ _ hs
  rw [if_neg (by simpa using hd), Attempt.run_bind, Job.amid_bind]
  refine Job.amid_step_find (fun d' h' => ⟨(h₃.spared (hR _ _ h')).target, .inl rfl⟩) ?_
  intro d₄ h₄
  have hw₄ := h₃.spared (hR _ _ h₄)
  show Job.Amid _ _ (ExceptT.run (if (d₄.find (s.pathOf (.blob group image digest))).toOption.isSome
    then _ else _)) _ _
  cases hf : d₄.find (s.pathOf (.blob group image digest)) with
  | ok e => exact forgo_amid hR hx ha hw₄ hf fun d' hf' hs => hforgo data e d' hd hf' hs
  | error e =>
    show Job.Amid _ _ (ExceptT.run ((do
      orDiscard _ _ (← Attempt.ask (.rename _ _)) : Attempt Unit) >>= fun _ => pure _)) _ _
    rw [Attempt.run_bind, Job.amid_bind]
    refine rename_amid hR hx ha hd hw₄ (fun _ hs => herror _ _ hs) ?_
    exact fun d₅ d' hd₅ hr hd' => hput data e label d₄ d₅ d' hd hw₄.target hf hd₅ hr hd'

/-- A failure to keep a blob leaves the file at its place as it was. -/
theorem writeBlobStream_amid (hR : ∀ d d', R d d' → Spares s (.blob group image digest) d d')
    (ha : allowed (.blob group image digest)) (stream : List (Except Failure Bytes)) (d : Disk) :
    (s.writeBlobStream group image digest stream).run.Amid R
      (s.Writes allowed (.blob group image digest) d) d fun r d' =>
        s.BlobKept group image digest d r d' ∧
          (r.isOk = false → SameFile (s.locationOf (.blob group image digest)) d d') := by
  unfold BlobKept
  rw [s.blobPath_eq hg hi digest]
  refine writeBlobStream_amid_of hg hi digest hR ha stream d
    (fun _ _ hs => ⟨trivial, fun _ => hs⟩) ?_ ?_
  · intro data e d' hd hf hs
    exact ⟨⟨data, hd, rfl, .inr ⟨⟨e, hf⟩, hs⟩⟩, fun h => by cases h⟩
  · intro data e label d₁ d₂ d' hd _ _ _ _ hd'
    exact ⟨⟨data, hd, rfl, .inl hd'⟩, fun h => by cases h⟩

/-- A blob that is there stays as it is, however keeping it again ends. -/
theorem writeBlobStream_keeps_present {content : Bytes}
    (hthere : d.get? (s.locationOf (.blob group image digest)) = some (.file content))
    (stream : List (Except Failure Bytes)) :
    (s.writeBlobStream group image digest stream).run.Amid Eq
      (s.Writes (Eq (.blob group image digest)) (.blob group image digest) d) d
      fun _ d' => SameFile (s.locationOf (.blob group image digest)) d d' := by
  refine writeBlobStream_amid_of hg hi digest (s.spares_of_eq _) rfl stream d (fun _ _ hs => hs)
    (fun _ _ _ _ _ hs => hs) ?_
  rintro data e label d₁ _ d' - hs hf rfl hr -
  -- where the scratch file can take its place, the blob that is there could be found
  obtain ⟨-, hl, -⟩ := Disk.rename_eq_ok hr
  have hget : d₁.get? (location (s.pathOf (.blob group image digest))) = some (.file content) := by
    rw [location_pathOf s (Place.isPlain_blob hg hi digest)]
    exact (hs content).2 hthere
  rw [Disk.find_of_locate hl hget] at hf
  cases hf

end Ends

theorem writeBlobStream_does {group image : String} (hg : Name.isGroup group = true)
    (hi : Name.isImage image = true) (digest : Digest) (ha : allowed (.blob group image digest))
    (stream : List (Except Failure Bytes)) (w : World) :
    (s.writeBlobStream group image digest stream).run.Does (s.Change allowed) w
      fun r w' => s.BlobKept group image digest w.disk r w'.disk :=
  ((writeBlobStream_amid hg hi digest (s.spares_of_eq _) ha stream w.disk).does
    fun _ _ _ h => h.2).post fun _ _ h => h.1

end PullThrough.Store
