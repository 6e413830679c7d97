import PullThrough.Proofs.Store.Keys
import PullThrough.Proofs.Store.Success
/-
  What is kept under one key, and what a cache has for the others.

  A cache is asked for manifests and blobs by a `CacheKey` and is given a `Deposit` to keep.
  Deposits come one after the other, and each may fail or be given up at any step
  (`Store.Reachable`). As long as no image has a part `tags` or `sha256`, a deposit leaves
  alone what the cache answers to all keys whose file is another one, no lookup and no deposit
  fails but by the device, and what is reported as kept is there (`Store.keep_separates`).
  Which keys share a file, and which files are in the way of others where images have such
  parts, is part of the same theorem.

  Payloads are shared by the tags of an image, so a deposit may put the payload of another tag in
  its place. It is there already if there is a record that names it: a payload is written before its
  record, and no operation takes one away. This is the invariant (`Store.IsComplete`).
-/
namespace PullThrough

/-! ## Keys and deposits -/

/-- What a cache is asked for. -/
inductive CacheKey where
  | manifest (group image tag : String)
  | blob (group image : String) (digest : Digest)

/-- What a cache answers. -/
inductive CacheEntry where
  | manifest (found : Option (ManifestRecord × Bytes))
  | blob (found : Option BlobRecord)

/-- What a cache is given to keep. -/
inductive Deposit where
  | manifest (group image tag : String) (digest : Digest) (contentType : String) (data : Bytes)
  | blob (group image : String) (digest : Digest) (stream : List (Except Failure Bytes))

namespace CacheKey

/-- The file that is looked at first. -/
def file : CacheKey → FileKey
  | manifest group image tag => .record group image tag
  | blob group image digest => .blob group image digest

/-- Checked names, and an image without a part that is named as a folder of files. -/
def IsUsual : CacheKey → Prop
  | manifest group image tag => Store.IsUsual group image ∧ Name.checkTag tag = .ok ()
  | blob group image _ => Store.IsUsual group image

theorem IsUsual.isValid {k : CacheKey} (h : k.IsUsual) : k.file.IsValid := by
  cases k with
  | manifest group image tag => exact ⟨h.1.checkGroup, h.1.checkImage, h.2⟩
  | blob group image digest => exact ⟨h.checkGroup, h.checkImage⟩

end CacheKey

namespace Deposit

def key : Deposit → CacheKey
  | manifest group image tag _ _ _ => .manifest group image tag
  | blob group image digest _ => .blob group image digest

/-- The places that the deposit is written to. -/
def Allows : Deposit → Place → Prop
  | manifest group image tag digest _ _ => Store.IsOfManifest group image tag digest
  | blob group image digest _ => Eq (.blob group image digest)

/-- The data arrive whole and have the digest that is claimed for them. -/
def IsSound : Deposit → Prop
  | manifest _ _ _ digest _ data => Digest.of data = digest
  | blob _ _ digest stream => ∃ data, Store.wholeOf? stream = some data ∧ Digest.of data = digest

/-- The files of the deposit are there. -/
def IsStored (s : Store) (d : Disk) : Deposit → Prop
  | manifest group image tag digest contentType data =>
    (∃ created updated, d.find (s.recordPath group image tag) = .ok (.file (ManifestRecord.encode
      ⟨group, image, tag, digest, contentType, data.length, created, updated⟩))) ∧
    ∃ payload, d.find (s.payloadPath group image digest) = .ok (.file payload) ∧
      Digest.of payload = digest
  | blob group image digest _ =>
    ∃ content, d.find (s.blobPath group image digest) = .ok (.file content) ∧
      Digest.of content = digest

end Deposit

namespace Store

open Job (ComesTo)

variable {s : Store} {d d' : Disk} {group image tag : String} {digest : Digest} {op : Deposit}
  {k : CacheKey} {w w' : World} {allowed : Place → Prop}

/-- Looks up a key. -/
def lookup (s : Store) : CacheKey → Attempt CacheEntry
  | .manifest group image tag => return .manifest (← s.readManifest group image tag)
  | .blob group image digest => return .blob (← s.blob group image digest)

/-- Keeps a deposit. -/
def keep (s : Store) : Deposit → Attempt Unit
  | .manifest group image tag digest contentType data => do
    let _ ← s.writeManifest group image tag digest contentType data
    return ()
  | .blob group image digest stream => do
    let _ ← s.writeBlobStream group image digest stream
    return ()

/-- The worlds that a cache gets to while deposits are kept, each to its end or to some step of
it. -/
inductive Reachable (s : Store) (w : World) : World → Prop
  | start : Reachable s w w
  | next (op : Deposit) {w' w'' : World} (hop : op.key.IsUsual) (h : Reachable s w w')
      (hw : w'' ∈ (s.keep op).run.worlds w') : Reachable s w w''
  /-- The scratch file of a deposit that was given up is removed. -/
  | discard (x : Place) (label : String) {w' : World} (hx : x.IsRegular) (h : Reachable s w w') :
      Reachable s w (w'.perform (.remove (s.pathOf (x.scratch label)))).2

/-- The keys of a cache are kept apart, whatever is done next. -/
structure IsSeparate (s : Store) (w : World) : Prop where
  /-- No deposit changes what there is for a key with another file, at no step and however it
  ends. -/
  frame : ∀ (op : Deposit) (k : CacheKey), op.key.IsUsual → k.IsUsual →
    k.file.path s ≠ op.key.file.path s → ∀ w' ∈ (s.keep op).run.worlds w,
      ((s.lookup k).run.run w').1 = ((s.lookup k).run.run w).1
  /-- A lookup fails by the device only. -/
  lookup : ∀ k : CacheKey, k.IsUsual → (s.lookup k).run.Smoothly w fun r _ => r.isOk = true
  /-- So does a deposit that is right in itself. -/
  keep : ∀ op : Deposit, op.key.IsUsual → op.IsSound →
    (s.keep op).run.Smoothly w fun r _ => r = .ok ()
  /-- A deposit that is reported as kept is there. -/
  stored : ∀ op : Deposit, op.key.IsUsual → ((s.keep op).run.run w).1 = .ok () →
    op.IsStored s ((s.keep op).run.run w).2.disk

/-! ## Lookups -/

/-- What a disk has for a key. -/
def entryAt (s : Store) (d : Disk) : CacheKey → Except Failure CacheEntry
  | .manifest group image tag => (s.manifestAt group image tag d).map .manifest
  | .blob group image digest => (s.blobAt group image digest d).map .blob

theorem lookup_comesTo (s : Store) (k : CacheKey) (w : World) :
    ComesTo (s.lookup k).run w (s.entryAt w.disk k) w := by
  cases k with
  | manifest group image tag =>
    unfold lookup entryAt
    dsimp only
    rw [Attempt.run_bind]
    refine (readManifest_comesTo s group image tag w).bind ?_
    cases s.manifestAt group image tag w.disk <;> exact ComesTo.done _ _
  | blob group image digest =>
    unfold lookup entryAt
    dsimp only
    rw [Attempt.run_bind]
    refine (blob_comesTo s group image digest w).bind ?_
    cases s.blobAt group image digest w.disk <;> exact ComesTo.done _ _

theorem IsLaidOut.lookup_smoothly (h : s.IsLaidOut w.disk) (hk : k.IsUsual) :
    (s.lookup k).run.Smoothly w fun r _ => r.isOk = true := by
  cases k with
  | manifest group image tag =>
    unfold lookup
    rw [Attempt.run_bind]
    refine Job.Smoothly.bind ((h.readManifest_smoothly hk.1 hk.2).post ?_)
    rintro _ _ ⟨found, rfl⟩
    exact Job.smoothly_done.2 rfl
  | blob group image digest =>
    unfold lookup
    rw [Attempt.run_bind]
    refine Job.Smoothly.bind ((h.blob_smoothly hk digest).post ?_)
    rintro _ _ ⟨found, rfl⟩
    exact Job.smoothly_done.2 rfl

theorem IsLaidOut.keep_smoothly (h : s.IsLaidOut w.disk) (hop : op.key.IsUsual) (hs : op.IsSound) :
    (s.keep op).run.Smoothly w fun r _ => r = .ok () := by
  have hdone : ∀ {α : Type} (r : Except Failure α) (w' : World), r.isOk = true →
      (Attempt.andThen (fun _ => pure ()) r).Smoothly w' fun r _ => r = .ok () := by
    intro α r w' hr
    cases r with
    | ok a => exact Job.smoothly_done.2 rfl
    | error failure => cases hr
  cases op with
  | manifest group image tag digest contentType data =>
    unfold keep
    rw [Attempt.run_bind]
    exact Job.Smoothly.bind ((writeManifest_smoothly hop.1 hop.2 hs h).post hdone)
  | blob group image digest stream =>
    obtain ⟨data, hwhole, hd⟩ := hs
    unfold keep
    rw [Attempt.run_bind]
    exact Job.Smoothly.bind ((writeBlobStream_smoothly hop hwhole hd h).post hdone)

/-! ## Complete caches -/

/-- A cache in which each record has its payload. -/
structure IsComplete (s : Store) (d : Disk) : Prop where
  isLaidOut : s.IsLaidOut d
  payloads : ∀ group image tag content r,
    d.get? (s.locationOf (.record group image tag)) = some (.file content) →
      ManifestRecord.decode? content = some r →
        ∃ payload, d.get? (s.locationOf (.payload group image r.digest)) = some (.file payload)

theorem IsComplete.of_isEmpty (h : s.IsEmpty d) : s.IsComplete d where
  isLaidOut := .of_isEmpty h
  payloads group image tag content r hf := by
    rw [h.place] at hf
    cases hf

/-- A cache stays complete if no record changes. -/
theorem IsComplete.of_leaves (h : s.IsComplete d) (hlaid : s.IsLaidOut d')
    (hl : s.Leaves allowed d d')
    (hrecord : ∀ group image tag, SameFile (s.locationOf (.record group image tag)) d d') :
    s.IsComplete d' where
  isLaidOut := hlaid
  payloads group image tag content r hf hr := by
    obtain ⟨payload, hp⟩ := h.payloads group image tag content r ((hrecord _ _ _ content).1 hf) hr
    exact hl.present _ (Place.isOwn_payload group image r.digest) payload hp

/-- The payload of a readable record is found if its path is a path of the device. -/
theorem IsComplete.find_payload (h : s.IsComplete d) (hu : IsUsual group image)
    (ht : Name.checkTag tag = .ok ()) {content : Bytes} {r : ManifestRecord}
    (hf : d.find (s.recordPath group image tag) = .ok (.file content))
    (hr : ManifestRecord.decode? content = some r)
    (hc : Disk.checkPath (s.payloadPath group image r.digest) = .ok ()) :
    ∃ payload, d.find (s.payloadPath group image r.digest) = .ok (.file payload) := by
  rw [s.payloadPath_eq hu.isGroup hu.isImage] at hc ⊢
  have hget := (Disk.find_eq_ok hf).2
  rw [s.recordPath_eq hu.isGroup hu.isImage ht, location_pathOf s (hu.record ht).isPlain] at hget
  obtain ⟨payload, hp⟩ := h.payloads group image tag content r hget hr
  exact ⟨payload, by rw [h.isLaidOut.find_eq (hu.payload r.digest), hc, hp]⟩

end Store

/-! ## Keeping a deposit -/

/-- A disk that is come to from another while the deposit is being kept. -/
structure Deposit.Reaches (op : Deposit) (s : Store) (d d' : Disk) : Prop where
  isComplete : s.IsComplete d'
  leaves : s.Leaves op.Allows d d'
  payload : ∀ group image digest e, d.find (s.payloadPath group image digest) = .ok e →
    Store.SameFile (s.locationOf (.payload group image digest)) d d'

namespace Store

variable {s : Store} {d d' : Disk} {group image tag contentType : String} {digest : Digest}
  {data : Bytes} {op : Deposit} {k : CacheKey} {w w' : World}

/-- The payload of a manifest that was kept is in its place. -/
theorem PayloadKept.find {record : ManifestRecord}
    (hp : s.PayloadKept group image digest data d d' (.ok record))
    (h : s.IsLaidOut d) (hu : IsUsual group image) (hd : Digest.of data = digest)
    (hl : s.Leaves (IsOfManifest group image tag digest) d d') :
    ∃ payload, d'.find (s.payloadPath group image digest) = .ok (.file payload) ∧
      Digest.of payload = digest := by
  have hx := hu.payload digest
  obtain ⟨e, hthere, rfl | hbefore⟩ := hp.there hu.isGroup hu.isImage hl.folder
  · exact ⟨data, hthere, hd⟩
  · have hget := (Disk.find_eq_ok hbefore).2
    rw [s.payloadPath_eq hu.isGroup hu.isImage, location_pathOf s hx.isPlain] at hget
    cases e with
    | folder => exact absurd hget (h.not_folder hx.toIsFlat)
    | file payload =>
      rw [locationOf_eq] at hget
      exact ⟨payload, hthere, h.isTidy.hashed _ digest payload hget⟩

/-- A record that was kept has its payload, as all other records have. -/
theorem IsComplete.kept (h : s.IsComplete d) (hlaid : s.IsLaidOut d') (hu : IsUsual group image)
    (ht : Name.checkTag tag = .ok ()) (hl : s.Leaves (IsOfManifest group image tag digest) d d')
    {record : ManifestRecord} (hdigest : record.digest = digest)
    (hr : d'.find (s.recordPath group image tag) = .ok (.file record.encode)) {payload : Bytes}
    (hp : d'.find (s.payloadPath group image digest) = .ok (.file payload)) : s.IsComplete d' where
  isLaidOut := hlaid
  payloads group' image' tag' content r hf hdecode := by
    by_cases hn : (Place.record group' image' tag').names = (Place.record group image tag).names
    · obtain ⟨rfl, rfl, -⟩ := Place.names_record_iff.1 hn
      have hget := (Disk.find_eq_ok hr).2
      rw [s.recordPath_eq hu.isGroup hu.isImage ht, location_pathOf s (hu.record ht).isPlain,
        locationOf, ← hn, ← locationOf, hf] at hget
      obtain rfl : content = record.encode := by simpa using hget
      have hsame := (ManifestRecord.decode?_encode hdecode).2.2.2.1
      have hget' := (Disk.find_eq_ok hp).2
      rw [s.payloadPath_eq hu.isGroup hu.isImage,
        location_pathOf s (hu.payload digest).isPlain] at hget'
      exact ⟨payload, by rw [hsame, hdigest, hget']⟩
    · have hold := (hl.otherRecord hn content).1 hf
      obtain ⟨payload', hp'⟩ := h.payloads group' image' tag' content r hold hdecode
      exact hl.present _ (Place.isOwn_payload group' image' r.digest) payload' hp'

theorem IsComplete.writeManifest_amid (h : s.IsComplete d) (hu : IsUsual group image)
    (ht : Name.checkTag tag = .ok ()) (digest : Digest) (contentType : String) (data : Bytes) :
    (s.writeManifest group image tag digest contentType data).run.Amid Eq
      (fun d₁ _ _ => (Deposit.manifest group image tag digest contentType data).Reaches s d d₁) d
      fun r d' => (Deposit.manifest group image tag digest contentType data).Reaches s d d' ∧
        (r.isOk = true →
          (Deposit.manifest group image tag digest contentType data).IsStored s d') := by
  have hkeeps := (Store.writeManifest_amid (s := s) hu.isGroup hu.isImage ht digest contentType data
    d).keeps (I := fun d' => s.IsLaidOut d' ∧ s.Leaves (IsOfManifest group image tag digest) d d')
    (by rintro _ _ hI rfl; exact hI)
    (by
      rintro d₁ _ d₂ ⟨hlaid, hl⟩ hG
      rcases hG.change with rfl | hc
      · exact ⟨hlaid, hl⟩
      · exact ⟨hlaid.change (fun x hx => hu.isRegular_of_manifest ht hx) hc, hl.trans hc.leaves⟩)
    ⟨h.isLaidOut, Leaves.refl _ _ _⟩
  refine hkeeps.mono (fun _ _ hd => hd) ?_ ?_
  · rintro d₁ _ d₂ ⟨⟨hlaid, hl⟩, hG⟩
    exact ⟨h.of_leaves hlaid hl (hl.record hG.record), hl, fun _ _ _ _ hf =>
      hl.payload hG.payload hf⟩
  · rintro r d' ⟨⟨hm, hp⟩, hlaid, hl⟩
    have hpayload : ∀ group' image' digest' e,
        d.find (s.payloadPath group' image' digest') = .ok e →
        SameFile (s.locationOf (.payload group' image' digest')) d d' := fun _ _ _ _ hf =>
      hp.sameFile hl hf
    cases r with
    | error failure =>
      exact ⟨⟨h.of_leaves hlaid hl (hl.record hm.2), hl, hpayload⟩, fun hok => by cases hok⟩
    | ok record =>
      obtain ⟨hd, ⟨created, updated, rfl⟩, hr⟩ := hm
      obtain ⟨payload, hf, hdigest⟩ := hp.find h.isLaidOut hu hd hl
      exact ⟨⟨h.kept hlaid hu ht hl rfl hr hf, hl, hpayload⟩,
        fun _ => ⟨⟨created, updated, hr⟩, payload, hf, hdigest⟩⟩

theorem IsComplete.writeBlobStream_amid (h : s.IsComplete d) (hu : IsUsual group image)
    (digest : Digest) (stream : List (Except Failure Bytes)) :
    (s.writeBlobStream group image digest stream).run.Amid Eq
      (fun d₁ _ _ => (Deposit.blob group image digest stream).Reaches s d d₁) d
      fun r d' => (Deposit.blob group image digest stream).Reaches s d d' ∧
        (r.isOk = true → (Deposit.blob group image digest stream).IsStored s d') := by
  have hx := hu.blob digest
  have hkeeps := (Store.writeBlobStream_amid (s := s) hu.isGroup hu.isImage digest
    (s.spares_of_eq _) (Eq.refl (Place.blob group image digest)) stream d).keeps
    (I := fun d' => s.IsLaidOut d' ∧ s.Leaves (Eq (.blob group image digest)) d d')
    (by rintro _ _ hI rfl; exact hI)
    (by
      rintro d₁ _ d₂ ⟨hlaid, hl⟩ hG
      rcases hG.2 with rfl | hc
      · exact ⟨hlaid, hl⟩
      · exact ⟨hlaid.changed hx hc, hl.trans hc.leaves⟩)
    ⟨h.isLaidOut, Leaves.refl _ _ _⟩
  -- records and payloads are files of another kind
  have hreaches : ∀ {d'}, s.IsLaidOut d' → s.Leaves (Eq (.blob group image digest)) d d' →
      (Deposit.blob group image digest stream).Reaches s d d' := by
    intro d' hlaid hl
    have hother : ∀ x : Place, x.IsOwn → x.kind = "manifests" → SameFile (s.locationOf x) d d' := by
      intro x hown hkind
      refine hl.other hown fun hn => ?_
      have hk := (Place.names_inj hn).2.1
      rw [hkind] at hk
      exact absurd hk (by simp [Place.blob])
    exact ⟨h.of_leaves hlaid hl fun _ _ _ => hother _ (Place.isOwn_record _ _ _) rfl, hl,
      fun _ _ _ _ _ => hother _ (Place.isOwn_payload _ _ _) rfl⟩
  refine hkeeps.mono (fun _ _ hd => hd) (fun _ _ _ hG => hreaches hG.1.1 hG.1.2) ?_
  rintro r d' ⟨⟨hkept, -⟩, hlaid, hl⟩
  refine ⟨hreaches hlaid hl, fun hok => ?_⟩
  cases r with
  | error failure => cases hok
  | ok record =>
    obtain ⟨data, hd, rfl, hf | ⟨⟨e, hf⟩, -⟩⟩ := hkept
    · exact ⟨data, hf, hd⟩
    · dsimp only at hf
      have hget := (Disk.find_eq_ok hf).2
      rw [s.blobPath_eq hu.isGroup hu.isImage, location_pathOf s hx.isPlain] at hget
      cases e with
      | folder => exact absurd hget (hlaid.not_folder hx.toIsFlat)
      | file content =>
        rw [locationOf_eq] at hget
        exact ⟨content, hf, hlaid.isTidy.hashed _ digest content hget⟩

/-- What each step of keeping a deposit leaves behind, and what its end does. -/
theorem IsComplete.keep_amid (h : s.IsComplete d) (hop : op.key.IsUsual) :
    (s.keep op).run.Amid Eq (fun d₁ _ _ => op.Reaches s d d₁) d
      fun r d' => op.Reaches s d d' ∧ (r = .ok () → op.IsStored s d') := by
  cases op with
  | manifest group image tag digest contentType data =>
    unfold keep
    rw [Attempt.run_bind, Job.amid_bind]
    refine (h.writeManifest_amid hop.1 hop.2 digest contentType data).post ?_
    rintro (failure | record) d' ⟨hr, hstored⟩
    · exact ⟨hr, fun hok => by cases hok⟩
    · exact ⟨hr, fun _ => hstored rfl⟩
  | blob group image digest stream =>
    unfold keep
    rw [Attempt.run_bind, Job.amid_bind]
    refine (h.writeBlobStream_amid hop digest stream).post ?_
    rintro (failure | record) d' ⟨hr, hstored⟩
    · exact ⟨hr, fun hok => by cases hok⟩
    · exact ⟨hr, fun _ => hstored rfl⟩

theorem IsComplete.keep_end (h : s.IsComplete w.disk) (hop : op.key.IsUsual) :
    op.Reaches s w.disk ((s.keep op).run.run w).2.disk ∧
      (((s.keep op).run.run w).1 = .ok () → op.IsStored s ((s.keep op).run.run w).2.disk) :=
  ((h.keep_amid hop).does (S := fun _ _ => True) fun _ _ _ _ => .inr trivial).run

theorem IsComplete.keep_worlds (h : s.IsComplete w.disk) (hop : op.key.IsUsual)
    (hw : w' ∈ (s.keep op).run.worlds w) : op.Reaches s w.disk w'.disk := by
  rcases (h.keep_amid hop).worlds hw with ⟨step, d', hr⟩ | rfl
  · exact hr
  · exact (h.keep_end hop).1

/-! ## Other keys -/

/-- The file of another key is none of the places that a deposit is written to. -/
theorem names_ne_of_path_ne (hop : op.key.IsUsual) (hk : k.IsUsual)
    (hne : k.file.path s ≠ op.key.file.path s) {y : Place} (hy : op.Allows y) :
    k.file.place.names ≠ y.names := by
  rw [ne_eq, FileKey.path_eq_iff_names hk.isValid hop.isValid] at hne
  cases op with
  | blob group image digest stream => exact hy ▸ hne
  | manifest group image tag digest contentType data =>
    rcases hy with rfl | rfl
    · exact hne
    · intro hn
      obtain ⟨-, hkind, -, hfolder, -⟩ := Place.names_inj hn
      cases k with
      | manifest group' image' tag' =>
        simp [CacheKey.file, FileKey.place, Place.record, Place.payload] at hfolder
      | blob group' image' digest' =>
        simp [CacheKey.file, FileKey.place, Place.blob, Place.payload] at hkind

/-- A deposit leaves alone what there is for a key with another file. -/
theorem IsComplete.entryAt_same (h : s.IsComplete d) (hr : op.Reaches s d d') (hop : op.key.IsUsual)
    (hk : k.IsUsual) (hne : k.file.path s ≠ op.key.file.path s) :
    s.entryAt d' k = s.entryAt d k := by
  have hlaid := hr.isComplete.isLaidOut
  cases k with
  | blob group image digest =>
    have hs := hr.leaves.file _ (Place.isOwn_blob group image digest) fun y hy =>
      names_ne_of_path_ne hop hk hne hy
    dsimp only [entryAt]
    rw [h.isLaidOut.blobAt_same hlaid hk hs]
  | manifest group image tag =>
    have hs := hr.leaves.file _ (Place.isOwn_record group image tag) fun y hy =>
      names_ne_of_path_ne hop hk hne hy
    dsimp only [entryAt]
    rw [h.isLaidOut.manifestAt_same hlaid hk.1 hk.2 hs]
    intro content r hf hdecode
    have hx := hk.1.payload r.digest
    -- a path that is none of the device leads nowhere, before and after
    cases hc : Disk.checkPath (s.payloadPath group image r.digest) with
    | error e =>
      rw [Disk.find, Disk.find, Disk.locate_of_check_error hc, Disk.locate_of_check_error hc]
      rfl
    | ok _ =>
      -- the payload was there before, or else the deposit might have put it there
      obtain ⟨payload, hp⟩ := h.find_payload hk.1 hk.2 hf hdecode hc
      have hsame := hr.payload _ _ _ _ hp
      rw [s.payloadPath_eq hk.1.isGroup hk.1.isImage]
      exact h.isLaidOut.find_same hlaid hx hsame

theorem IsComplete.isSeparate (h : s.IsComplete w.disk) : s.IsSeparate w where
  frame op k hop hk hne w' hw' := by
    rw [(lookup_comesTo s k w').run, (lookup_comesTo s k w).run]
    exact h.entryAt_same (h.keep_worlds hop hw') hop hk hne
  lookup k hk := h.isLaidOut.lookup_smoothly hk
  keep op hop hs := h.isLaidOut.keep_smoothly hop hs
  stored op hop := (h.keep_end hop).2

theorem IsComplete.discard (h : s.IsComplete w.disk) {x : Place} (hx : x.IsRegular)
    (label : String) : s.IsComplete (w.perform (.remove (s.pathOf (x.scratch label)))).2.disk := by
  rcases World.change_cases (fun d => d.remove (s.pathOf (x.scratch label))) w.disk with
    ⟨e, -, hd⟩ | ⟨-, hd⟩
  · rw [show (w.perform (.remove _)).2.disk = w.disk from hd]
    exact h
  · obtain ⟨hc, he⟩ := remove_scratch hx.isPlain (Eq.refl x) hd
    refine h.of_leaves (h.isLaidOut.changed hx hc) hc.leaves fun group image tag => ?_
    rw [show (w.perform (.remove _)).2.disk = _ from he]
    exact SameFile.erase fun hl => Place.isOwn_record group image tag x label (locationOf_inj hl)

theorem Reachable.isComplete (h : s.Reachable w w') (hw : s.IsComplete w.disk) :
    s.IsComplete w'.disk := by
  induction h with
  | start => exact hw
  | next op hop _ hworld ih => exact (ih.keep_worlds hop hworld).isComplete
  | discard x label hx _ ih => exact ih.discard hx label

/-- Which files share a path and which are in the way of others, for all names; and that the keys of
a cache are kept apart where none is in the way. -/
theorem keep_separates (s : Store) {w : World} (hw : s.IsEmpty w.disk) :
    (∀ k k' : FileKey, k.IsValid → k'.IsValid →
      (k.path s = k'.path s ↔ k = k' ∨ k.IsTwin k') ∧
        (k.path s <+: k'.path s ∧ k.path s ≠ k'.path s ↔ k.IsAbove k')) ∧
      ∀ w', s.Reachable w w' → s.IsSeparate w' :=
  ⟨fun _ _ hk hk' => ⟨FileKey.path_eq_iff s hk hk', FileKey.path_prefix_iff s hk hk'⟩,
    fun _ hreach => (hreach.isComplete (.of_isEmpty hw)).isSeparate⟩

/-- A manifest and then a blob are kept in a new cache. Next to that, a path that two keys share and
a file in the way of another one. -/
theorem keep_separates_of_new :
    let s : Store := { base := [""] }
    let w : World :=
      { disk := ⟨[(Slot.of ["groups"], .folder)]⟩, clock := fun _ => ⟨0, 0⟩,
        origin := fun _ _ => .failed }
    let d := Digest.of []
    let manifest := Deposit.manifest "g" "i" "t" d "text/plain" []
    let blob := Deposit.blob "g" "i" d [.ok []]
    let w' := ((s.keep manifest).run.run w).2
    s.IsEmpty w.disk ∧ s.Reachable w w' ∧ manifest.IsStored s w'.disk ∧
      ((s.keep blob).run.run w').1 = .ok () ∧
      ((s.lookup manifest.key).run.run ((s.keep blob).run.run w').2).1 =
        ((s.lookup manifest.key).run.run w').1 ∧
      (FileKey.record "g" "i" d.text).path s =
        (FileKey.record "g" "i" (Name.underscored d)).path s ∧
      (FileKey.record "g" "i" "t").path s <+: (FileKey.record "g" "i/tags/t.json" "t").path s := by
  intro s w d manifest blob w'
  have hw : s.IsEmpty w.disk := isEmpty_of_new
  have hu : IsUsual "g" "i" :=
    ⟨by decide +kernel, by decide +kernel, by decide +kernel, by decide +kernel⟩
  have hmanifest : manifest.key.IsUsual := ⟨hu, by decide +kernel⟩
  have hreach : s.Reachable w w' := .next manifest hmanifest .start (Job.run_mem_worlds _ _)
  obtain ⟨hpaths, hseparate⟩ := keep_separates s hw
  have hnow := hseparate w' hreach
  have hkept : ((s.keep blob).run.run w').1 = .ok () :=
    hnow.keep blob hu ⟨[], rfl, rfl⟩ (by decide +kernel)
  have hstored : manifest.IsStored s w'.disk :=
    (hseparate w .start).stored manifest hmanifest (by decide +kernel)
  have hframe := hnow.frame blob manifest.key hu hmanifest (by decide +kernel) _
    (Job.run_mem_worlds _ _)
  have htwin := (hpaths (.record "g" "i" d.text) (.record "g" "i" (Name.underscored d))
    ⟨hu.checkGroup, hu.checkImage, Name.checkTag_text d⟩
    ⟨hu.checkGroup, hu.checkImage, by decide +kernel⟩).1.2 (.inr (.plain "g" "i" d))
  have habove := (hpaths (.record "g" "i" "t") (.record "g" "i/tags/t.json" "t")
    ⟨hu.checkGroup, hu.checkImage, hmanifest.2⟩
    ⟨hu.checkGroup, by decide +kernel, hmanifest.2⟩).2.2 ⟨rfl, rfl, by decide +kernel⟩
  exact ⟨hw, hreach, hstored, hkept, hframe, htwin, habove.1⟩

end Store

end PullThrough
