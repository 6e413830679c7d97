import PullThrough.Cache.Blobs
import PullThrough.Proofs.Cache.Resolution
/-
  What resolutions do to the cache, and what they answer.

  A resolution writes to the places of its own tag or digest only (`Cache.resolveManifest_does`,
  `Cache.resolveBlob_does`). A manifest that it answers has the digest of its record, on any disk
  (`Cache.Resolves.whole`). A blob that it answers is a file found on the disk, or the file of the
  download, or something that took the place of the file meanwhile (`Cache.BlobAnswer`).
-/
namespace PullThrough.Cache

open Job (ComesTo)
open Store (SameFile IsOfTag)

variable {c : Cache} {group image tag : String} {w w' : World}

/-! ## Manifests -/

theorem refreshManifest_does (c : Cache) (hg : Name.isGroup group = true)
    (hi : Name.isImage image = true) (ht : Name.checkTag tag = .ok ()) (token : String)
    (current : Option Digest) (w : World) :
    (c.refreshManifest group image tag token current).run.Does
      (c.store.Change (IsOfTag group image tag)) w fun _ _ => True := by
  unfold refreshManifest
  rw [Attempt.run_bind, Job.does_bind]
  refine (c.origin.fetchManifest_comesTo image tag token w).does ?_
  rcases c.origin.manifestOutcome image tag _ with failure | fetched
  · trivial
  dsimp only [Attempt.andThen_ok]
  cases falseClaim [(Digest.parse tag).toOption, fetched.digest.or current]
      (Digest.of fetched.data) with
  | some claimed => trivial
  | none =>
    dsimp only
    rw [Attempt.run_bind, Job.does_bind]
    refine (Store.writeManifest_does hg hi ht _ _ _ _).mono
      (fun _ _ hc => hc.mono fun _ hx => hx.isOfTag) ?_
    rintro (failure | record) w' -
    · trivial
    · trivial

/-- A resolution writes to the places of its tag only. -/
theorem resolveManifest_does (c : Cache) (hg : Name.isGroup group = true)
    (hi : Name.isImage image = true) (ht : Name.checkTag tag = .ok ()) (w : World) :
    (c.resolveManifest group image tag).run.Does (c.store.Change (IsOfTag group image tag)) w
      fun _ _ => True := by
  rw [resolveManifest_eq, Attempt.run_bind, Job.does_bind]
  obtain ⟨requests, asked, w₁, ha⟩ := Asks.total c image tag w
  refine ha.comesTo.does ?_
  dsimp only [Attempt.andThen_ok, resolving]
  have hcached := c.cachedManifest_comesTo group image tag w₁
  rcases asked with failure | ⟨token, current⟩
  · dsimp only
    split
    · unfold fallback
      rw [Attempt.run_bind, Job.does_bind]
      refine hcached.does ?_
      cases c.store.held group image tag w₁.disk <;> trivial
    · trivial
  · dsimp only
    rw [Attempt.run_bind, Job.does_bind]
    refine hcached.does ?_
    have hrefresh := c.refreshManifest_does hg hi ht token current w₁
    dsimp only [Attempt.andThen_ok]
    cases c.store.held group image tag w₁.disk with
    | none => exact hrefresh
    | some held =>
      cases current with
      | none => exact hrefresh
      | some digest =>
        dsimp only
        split
        · trivial
        · exact hrefresh

theorem manifestAt_of_held {s : Store} {d : Disk} {record : ManifestRecord} {data : Bytes}
    (h : s.held group image tag d = some (record, data)) :
    s.manifestAt group image tag d = .ok (some (record, data)) := by
  unfold Store.held at h
  cases hm : s.manifestAt group image tag d with
  | error failure => rw [hm] at h; cases h
  | ok held =>
    rw [hm] at h
    have hs : held = some (record, data) := by simpa [Except.toOption] using h
    rw [hs]

theorem digest_of_held {s : Store} {d : Disk} {record : ManifestRecord} {data : Bytes}
    (h : s.held group image tag d = some (record, data)) : Digest.of data = record.digest :=
  (Store.manifestAt_eq_some (manifestAt_of_held h)).1

/-- A manifest that is answered has the digest of its record, whatever the disk held. -/
theorem Resolves.whole {requests : List OriginRequest} {found : ResolvedManifest}
    (h : c.Resolves group image tag w requests (.ok found) w') :
    Digest.of found.data = found.record.digest := by
  cases h with
  | stale ha hf hh => exact digest_of_held hh
  | hit ha hh hc hp => exact digest_of_held hh
  | fetched ha hc hf =>
    cases hf with
    | kept hg hp hc hw hr =>
      obtain ⟨created, updated, rfl⟩ := hr
      rfl

/-! ## Blobs -/

/-- What a blob that is answered stands for, by the disks before and after. -/
inductive BlobAnswer (s : Store) (group image : String) (digest : Digest) (d d' : Disk) :
    ResolvedBlob → Prop
  /-- It was there before. -/
  | hit {data : Bytes} (hd : d' = d)
      (hf : d.find (s.blobPath group image digest) = .ok (.file data)) :
      BlobAnswer s group image digest d d'
        ⟨⟨group, image, digest, data.length, s.blobPath group image digest⟩, .hit⟩
  /-- It was not there before, but is now. -/
  | miss {data : Bytes} (hd : Digest.of data = digest)
      (hf : d'.find (s.blobPath group image digest) = .ok (.file data)) :
      BlobAnswer s group image digest d d'
        ⟨⟨group, image, digest, data.length, s.blobPath group image digest⟩, .miss⟩
  /-- Something is there that was there before but could not be found. -/
  | taken {data : Bytes} {e : Entry} (hd : Digest.of data = digest)
      (hn : ∀ content, d.find (s.blobPath group image digest) ≠ .ok (.file content))
      (hf : d'.find (s.blobPath group image digest) = .ok e)
      (hs : SameFile (s.locationOf (.blob group image digest)) d d') :
      BlobAnswer s group image digest d d'
        ⟨⟨group, image, digest, data.length, s.blobPath group image digest⟩, .miss⟩

/-- A download after a look that found nothing. -/
theorem downloadBlob_does (c : Cache) (hg : Name.isGroup group = true)
    (hi : Name.isImage image = true) {digest : Digest}
    (hb : c.store.blobAt group image digest w.disk = .ok none) :
    (c.downloadBlob group image digest).run.Does
      (c.store.Change (Eq (.blob group image digest))) w fun r w' =>
        c.store.BlobKept group image digest w.disk r w'.disk := by
  unfold downloadBlob
  rw [Attempt.run_bind, Job.does_bind]
  refine (c.store.blob_comesTo group image digest w).does ?_
  rw [hb]
  dsimp only [Attempt.andThen_ok]
  rw [Attempt.run_bind, Job.does_bind]
  refine (c.origin.requestToken_comesTo image w).does ?_
  rcases c.origin.tokenOutcome _ with failure | token
  · trivial
  dsimp only [Attempt.andThen_ok]
  rw [Attempt.run_bind, Job.does_bind]
  refine (c.origin.fetchBlob_comesTo image digest token _).does ?_
  rcases c.origin.blobOutcome image digest _ with failure | stream
  · trivial
  have hw := Store.writeBlobStream_does (s := c.store) hg hi digest rfl stream
    ((w.sent (c.origin.tokenRequest image)).sent (c.origin.blobRequest image digest token))
  rwa [World.sent_disk, World.sent_disk] at hw

/-- A resolution writes to the place of its digest only. -/
theorem resolveBlob_does (c : Cache) (hg : Name.isGroup group = true)
    (hi : Name.isImage image = true) (digest : Digest) (w : World) :
    (c.resolveBlob group image digest).run.Does
      (c.store.Change (Eq (.blob group image digest))) w fun r w' =>
        ∀ found, r = .ok found → BlobAnswer c.store group image digest w.disk w'.disk found := by
  unfold resolveBlob
  rw [Attempt.run_bind, Job.does_bind]
  refine (c.store.blob_comesTo group image digest w).does ?_
  cases hb : c.store.blobAt group image digest w.disk with
  | error failure => exact fun _ h => by cases h
  | ok record? =>
    cases record? with
    | some record =>
      obtain ⟨data, hf, rfl⟩ := Store.blobAt_eq_some hb
      intro found h
      cases h
      exact .hit rfl hf
    | none =>
      have hn := Store.find_of_blobAt_eq_none hb
      dsimp only [Attempt.andThen_ok]
      rw [Attempt.run_bind, Job.does_bind]
      refine (c.downloadBlob_does hg hi hb).post ?_
      rintro (failure | record) w' hk found h
      · cases h
      · cases h
        obtain ⟨data, hd, rfl, hf | ⟨⟨e, hf⟩, hs⟩⟩ := hk
        · exact .miss hd hf
        · exact .taken hd hn hf hs

end PullThrough.Cache
