import PullThrough.Cache.Blobs
import PullThrough.Proofs.Cache.Resolution
import PullThrough.Proofs.Store.Keys
import PullThrough.Proofs.Store.Mirrors
/-
  One resolution in two worlds.

  In two worlds that hold the same for a group, and whose origins answer the same, a
  resolution for the group comes to the same, up to the times in a record that it
  keeps (`Cache.resolveManifest_pair`, `Cache.resolveBlob_pair`). The worlds are side
  by side again at its end.
-/
namespace PullThrough

variable {t : Twins} {s : Store} {v : View} {k : Nat} {w w' : World}
  {group image tag : String} {α : Type}

/-! ## Calls on the origin -/

/-- A call on the origin is answered the same in both worlds. -/
theorem OriginClient.IsCall.pair {c : OriginClient} {x : Attempt α} {call : Call}
    {r : OriginRequest}
    {g : Reply → Except Failure α} (h : c.IsCall x call r g) (hb : t.Beside s group v k w w') :
    x.run.Pair w x.run w' fun a u b u' => b = a ∧ t.Beside s group v k u u' := by
  rw [h.run_eq]
  split
  · refine Job.pair_send hb.toMirror fun y u u' hd hd' hu => ?_
    have htrim := hb.trim
    rw [← hd, ← hd'] at htrim
    exact ⟨rfl, ⟨hu, htrim⟩⟩
  · exact ⟨rfl, hb⟩

/-! ## Resolutions -/

/-- Two worlds and a view of them that go together for an image. -/
structure Twins.Suits (t : Twins) (s : Store) (v : View) (group image : String) : Prop where
  covers : v.Covers s group
  exact : ∀ a b, v.same a b → a = b
  times : ∀ i, t.times i i
  blind : ∀ key : FileKey, key.IsValid → key.place.group = group → key.place.image = image →
    t.IsBlindTo s key.place

/-- The same manifest, with records that differ in their times at most. -/
structure ResolvedManifest.IsLike (times : Instant → Instant → Prop)
    (found found' : ResolvedManifest) : Prop where
  record : ManifestRecord.IsLike times found.record found'.record
  data : found'.data = found.data
  source : found'.source = found.source

theorem ManifestRecord.IsLike.refl {times : Instant → Instant → Prop} (h : ∀ i, times i i)
    (r : ManifestRecord) : IsLike times r r := ⟨rfl, h _, h _⟩

namespace Cache

variable {c : Cache} (hset : t.Suits c.store v group image) (hg : Name.checkGroup group = .ok ())
  (hi : Name.checkImage image = .ok ()) (ht : Name.checkTag tag = .ok ())
include hset hg hi

section Manifests

include ht

/-- What is found for a tag is the same in both worlds. -/
theorem pair_cachedManifest {β : Type} {f : Option (ManifestRecord × Bytes) → Attempt α}
    {f' : Option (ManifestRecord × Bytes) → Attempt β}
    {Q : Except Failure α → World → Except Failure β → World → Prop}
    (h : t.Beside c.store group v k w w') (hf : ∀ found, (f found).run.Pair w (f' found).run w' Q) :
    (c.cachedManifest group image tag >>= f).run.Pair w
      (c.cachedManifest group image tag >>= f').run w'
      Q := by
  rw [Attempt.run_bind, Attempt.run_bind]
  refine Job.Pair.bind ((c.cachedManifest_comesTo group image tag w).pair
    (c.cachedManifest_comesTo group image tag w') ?_)
  unfold Store.held
  rw [Store.manifestAt_alike h.disk hset.covers hset.exact (Name.isGroup_of_check hg)
    (Name.isImage_of_check hi) ht]
  exact hf _

theorem refreshManifest_pair (token : String) (current : Option Digest)
    (h : t.Beside c.store group v 0 w w') :
    (c.refreshManifest group image tag token current).run.Pair w
      (c.refreshManifest group image tag token current).run w' fun r u r' u' =>
        Matches (ResolvedManifest.IsLike t.times) r r' ∧
          t.Beside c.store group (v.upTo t.times) 2 u u' := by
  unfold refreshManifest
  rw [Attempt.run_bind]
  refine Job.Pair.bind (((c.origin.fetchManifest_isCall image tag token).pair h).post ?_)
  rintro _ u r u' ⟨rfl, hu⟩
  have hend := (hu.mono (Nat.zero_le 2)).upTo
  cases r with
  | error failure => exact ⟨.error failure, hend⟩
  | ok fetched =>
    dsimp only [Attempt.andThen_ok]
    cases falseClaim [(Digest.parse tag).toOption, fetched.digest.or current]
        (Digest.of fetched.data) with
    | some claimed => exact ⟨.error _, hend⟩
    | none =>
      dsimp only
      rw [Attempt.run_bind]
      refine Job.Pair.bind ((Store.writeManifest_pair hu hset.covers hset.exact
        (Name.isGroup_of_check hg) (Name.isImage_of_check hi) ht
        (hset.blind (.record group image tag) ⟨hg, hi, ht⟩ rfl rfl)
        (hset.blind (.payload group image _) ⟨hg, hi⟩ rfl rfl) hset.times).post ?_)
      rintro r u₁ r' u₁' ⟨hr, hu₁⟩
      cases hr with
      | ok hlike => exact ⟨.ok ⟨hlike, rfl, rfl⟩, hu₁⟩
      | error failure => exact ⟨.error failure, hu₁⟩

omit ht hset hg hi in
theorem asking_pair (h : t.Beside c.store group v k w w') :
    (c.asking image tag).run.Pair w (c.asking image tag).run w' fun r u r' u' =>
      (∃ asked, r = .ok asked ∧ r' = .ok asked) ∧ t.Beside c.store group v k u u' := by
  unfold asking
  rw [Attempt.run_tryCatch, Attempt.run_bind]
  refine Job.Pair.bind (Job.Pair.bind (((c.origin.requestToken_isCall image).pair h).post ?_))
  rintro _ u r u' ⟨rfl, hu⟩
  cases r with
  | error failure => exact ⟨⟨.error failure, rfl, rfl⟩, hu⟩
  | ok token =>
    dsimp only [Attempt.andThen_ok]
    rw [Attempt.run_bind]
    refine Job.Pair.bind (((c.origin.headManifest_isCall image tag token).pair hu).post ?_)
    rintro _ u₁ r u₁' ⟨rfl, hu₁⟩
    cases r with
    | error failure => exact ⟨⟨.error failure, rfl, rfl⟩, hu₁⟩
    | ok current => exact ⟨⟨.ok (token, current), rfl, rfl⟩, hu₁⟩

/-- A manifest that is found is the same in both worlds, and if it is fetched
then it is up to times. -/
theorem resolving_pair (asked : Except Failure (String × Option Digest))
    (h : t.Beside c.store group v 0 w w') :
    (c.resolving group image tag asked).run.Pair w (c.resolving group image tag asked).run w'
      fun r u r' u' => Matches (ResolvedManifest.IsLike t.times) r r' ∧
        t.Beside c.store group (v.upTo t.times) 2 u u' := by
  have hend := (h.mono (Nat.zero_le 2)).upTo
  have hlike (r : ManifestRecord) (data : Bytes) (source : CacheSource) :
      ResolvedManifest.IsLike t.times ⟨r, data, source⟩ ⟨r, data, source⟩ :=
    ⟨.refl hset.times r, rfl, rfl⟩
  rcases asked with failure | ⟨token, current⟩
  · unfold resolving
    dsimp only
    split
    · refine pair_cachedManifest hset hg hi ht h fun found => ?_
      rcases found with _ | ⟨record, data⟩
      · exact ⟨.error failure, hend⟩
      · exact ⟨.ok (hlike record data _), hend⟩
    · exact ⟨.error failure, hend⟩
  · refine pair_cachedManifest hset hg hi ht h fun found => ?_
    have hrefresh := refreshManifest_pair hset hg hi ht token current h
    split
    · split
      · exact ⟨.ok (hlike _ _ _), hend⟩
      · exact hrefresh
    · exact hrefresh

theorem resolveManifest_pair (h : t.Beside c.store group v 0 w w') :
    (c.resolveManifest group image tag).run.Pair w (c.resolveManifest group image tag).run w'
      fun r u r' u' => Matches (ResolvedManifest.IsLike t.times) r r' ∧
        t.Beside c.store group (v.upTo t.times) 2 u u' := by
  rw [resolveManifest_eq, Attempt.run_bind]
  refine Job.Pair.bind ((asking_pair h).post ?_)
  rintro _ u _ u' ⟨⟨asked, rfl, rfl⟩, hu⟩
  exact resolving_pair hset hg hi ht asked hu

end Manifests

section Blobs

variable (digest : Digest)

/-- What is found for a digest is the same in both worlds. -/
theorem pair_blob {β : Type} {f : Option BlobRecord → Attempt α}
    {f' : Option BlobRecord → Attempt β}
    {Q : Except Failure α → World → Except Failure β → World → Prop}
    (h : t.Beside c.store group v k w w')
    (herror : ∀ failure, Q (.error failure) w (.error failure) w')
    (hf : ∀ found, (f found).run.Pair w (f' found).run w' Q) :
    (c.store.blob group image digest >>= f).run.Pair w
      (c.store.blob group image digest >>= f').run w'
      Q := by
  rw [Attempt.run_bind, Attempt.run_bind]
  refine Job.Pair.bind ((c.store.blob_comesTo group image digest w).pair
    (c.store.blob_comesTo group image digest w') ?_)
  rw [Store.blobAt_alike h.disk hset.covers hset.exact (Name.isGroup_of_check hg)
    (Name.isImage_of_check hi)]
  cases c.store.blobAt group image digest w.disk with
  | error failure => exact herror failure
  | ok found => exact hf found

theorem downloadBlob_pair (h : t.Beside c.store group v 0 w w') :
    (c.downloadBlob group image digest).run.Pair w (c.downloadBlob group image digest).run w'
      fun r u r' u' => r' = r ∧ t.Beside c.store group v 1 u u' := by
  unfold downloadBlob
  have hend := h.mono (Nat.zero_le 1)
  refine pair_blob hset hg hi digest h (fun _ => ⟨rfl, hend⟩) fun found => ?_
  cases found with
  | some record => exact ⟨rfl, hend⟩
  | none =>
    dsimp only
    rw [Attempt.run_bind]
    refine Job.Pair.bind (((c.origin.requestToken_isCall image).pair h).post ?_)
    rintro _ u r u' ⟨rfl, hu⟩
    cases r with
    | error failure => exact ⟨rfl, hu.mono (Nat.zero_le 1)⟩
    | ok token =>
      dsimp only [Attempt.andThen_ok]
      rw [Attempt.run_bind]
      refine Job.Pair.bind (((c.origin.fetchBlob_isCall image digest token).pair hu).post ?_)
      rintro _ u₁ r u₁' ⟨rfl, hu₁⟩
      cases r with
      | error failure => exact ⟨rfl, hu₁.mono (Nat.zero_le 1)⟩
      | ok stream =>
        exact Store.writeBlobStream_pair hu₁ (Nat.zero_le 1) hset.covers hset.exact
          (Name.isGroup_of_check hg) (Name.isImage_of_check hi)
          (hset.blind (.blob group image digest) ⟨hg, hi⟩ rfl rfl) stream

theorem resolveBlob_pair (h : t.Beside c.store group v 0 w w') :
    (c.resolveBlob group image digest).run.Pair w (c.resolveBlob group image digest).run w'
      fun r u r' u' => r' = r ∧ t.Beside c.store group v 1 u u' := by
  unfold resolveBlob
  have hend := h.mono (Nat.zero_le 1)
  refine pair_blob hset hg hi digest h (fun _ => ⟨rfl, hend⟩) fun found => ?_
  cases found with
  | some record => exact ⟨rfl, hend⟩
  | none =>
    dsimp only
    rw [Attempt.run_bind]
    refine Job.Pair.bind ((downloadBlob_pair hset hg hi digest h).post ?_)
    rintro _ u r u' ⟨rfl, hu⟩
    cases r with
    | error failure => exact ⟨rfl, hu⟩
    | ok record => exact ⟨rfl, hu⟩

end Blobs

end Cache

end PullThrough
