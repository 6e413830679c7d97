import PullThrough.Cache.Blobs
import PullThrough.Proofs.Cache.Resolution
import PullThrough.Proofs.Origin.Failures
import PullThrough.Proofs.Store.Success
/-
  How resolutions fail.

  Whatever the disk and the origin do, the events of a resolution explain how it ends
  (`OriginClient.Explains`). The store is gone through operation by operation: none of them fails
  but by a step that failed, by a digest that does not match, or by what ended the stream of a blob.
-/
namespace PullThrough

/-! ## Work on the disk -/

namespace Store

open OriginClient

variable {c : OriginClient} {e : Event} {s : Store}

/-- A failed step on the disk accounts for a fault of the cache. -/
theorem explains_fault (hl : e.1.IsLocal) (he : e.isFailure = true) (fault : CacheFault) :
    c.Explains [e] (.error (.cache fault) : Except Failure α) :=
  .broken (not_lacked_of_isLocal (by simpa using hl)) ⟨e, by simp, he⟩

theorem orFail_isExplained (hl : e.1.IsLocal) {r : Except DiskFault α}
    (he : r.isOk = false → e.isFailure = true) (fault : CacheFault) :
    c.IsExplained [e] (orFail fault r) := by
  cases r with
  | ok a => exact isExplained_pure (not_lacked_of_isLocal (by simpa using hl)) a
  | error f => exact isExplained_throw (explains_fault hl (he rfl) fault)

theorem orDiscard_isExplained (hl : e.1.IsLocal) {r : Except DiskFault α}
    (he : r.isOk = false → e.isFailure = true) (scratch : Path) (fault : CacheFault) :
    c.IsExplained [e] (orDiscard scratch (.cache fault) r) := by
  cases r with
  | ok a => exact isExplained_pure (not_lacked_of_isLocal (by simpa using hl)) a
  | error f =>
    refine isExplained_ask fun x => isExplained_throw ?_
    exact (explains_fault hl (he rfl) fault).later (by simp [Step.IsLocal])

/-- Steps that cannot be the cause of a failure. -/
theorem isExplained_local {s : Step} (hs : s.IsLocal) {f : s.Answer → Attempt α}
    (hf : ∀ x, c.IsExplained [] (f x)) : c.IsExplained [] (Attempt.ask s >>= f) := by
  exact isExplained_ask fun x => (hf x).after (not_lacked_of_isLocal (by simpa using hs))

theorem begin_isExplained {fault fault' : CacheFault} {target : Path} {f : Path → Attempt α}
    (hf : ∀ scratch, c.IsExplained [] (f scratch)) :
    c.IsExplained [] (do
      orFail fault (← Attempt.ask (.makeFolders target.parent))
      let scratch ← s.newScratch target
      orFail fault' (← Attempt.ask (.create scratch))
      f scratch) := by
  refine isExplained_ask fun r => .bind ?_ fun _ => ?_
  · exact orFail_isExplained (e := ⟨.makeFolders _, r⟩) trivial (congrArg not) _
  refine isExplained_local (s := .serial) trivial fun n => ?_
  refine isExplained_ask fun r => .bind ?_ fun _ => hf _
  exact orFail_isExplained (e := ⟨.create _, r⟩) trivial (congrArg not) _

theorem writeWhole_isExplained (s : Store) (target : Path) (data : Bytes) :
    c.IsExplained [] (s.writeWhole target data) := by
  refine begin_isExplained fun scratch => ?_
  refine isExplained_ask fun r => .bind ?_ fun _ => ?_
  · exact orDiscard_isExplained (e := ⟨.append _ _, r⟩) trivial (congrArg not) _ _
  refine isExplained_ask fun r => .bind ?_ fun _ => ?_
  · exact orDiscard_isExplained (e := ⟨.sync _, r⟩) trivial (congrArg not) _ _
  refine isExplained_ask fun r => ?_
  exact orDiscard_isExplained (e := ⟨.rename _ _, r⟩) trivial (congrArg not) _ _

/-! ### Manifests and blobs -/

variable {group image tag contentType : String} {digest : Digest} {data : Bytes}

theorem writeRecord_isExplained :
    c.IsExplained [] (s.writeRecord group image tag digest contentType data) := by
  refine isExplained_local (s := .clock) trivial fun now => ?_
  refine isExplained_local (s := .read _) trivial fun content => ?_
  exact (writeWhole_isExplained s _ _).bind fun _ => isExplained_pure not_lacked_nil _

theorem writeManifest_isExplained :
    c.IsExplained [] (s.writeManifest group image tag digest contentType data) := by
  unfold writeManifest
  dsimp only
  split
  · exact isExplained_throw (.upstream not_lacked_nil trivial)
  · refine isExplained_local (s := .find _) trivial fun r => ?_
    cases r with
    | ok e => exact writeRecord_isExplained
    | error e => exact (writeWhole_isExplained s _ _).bind fun _ => writeRecord_isExplained

/-- A stream that ends early ends with a failure that is not the cache's. -/
theorem writePieces_isExplained {scratch : Path} {stream : List (Except Failure Bytes)}
    (hs : ∀ piece ∈ stream, FailsUpstream piece) (seen : Bytes) :
    c.IsExplained [] (writePieces scratch seen stream) := by
  induction stream generalizing seen with
  | nil => exact isExplained_pure not_lacked_nil _
  | cons piece rest ih =>
    cases piece with
    | error failure =>
      refine isExplained_local (s := .remove _) trivial fun _ => isExplained_throw ?_
      exact .upstream not_lacked_nil (hs _ List.mem_cons_self failure rfl)
    | ok piece =>
      refine isExplained_ask fun r => .bind ?_ fun _ => ?_
      · exact orDiscard_isExplained (e := ⟨.append _ _, r⟩) trivial (congrArg not) _ _
      · exact ih (fun piece hp => hs piece (List.mem_cons_of_mem _ hp)) _

theorem writeBlobStream_isExplained {stream : List (Except Failure Bytes)}
    (hs : ∀ piece ∈ stream, FailsUpstream piece) :
    c.IsExplained [] (s.writeBlobStream group image digest stream) := by
  refine begin_isExplained fun scratch => (writePieces_isExplained hs []).bind fun data => ?_
  refine isExplained_ask fun r => .bind ?_ fun _ => ?_
  · exact orDiscard_isExplained (e := ⟨.sync _, r⟩) trivial (congrArg not) _ _
  dsimp only
  split
  · refine isExplained_local (s := .remove _) trivial fun _ => isExplained_throw ?_
    exact .upstream not_lacked_nil trivial
  · refine isExplained_local (s := .find _) trivial fun r => ?_
    cases r with
    | ok e =>
      exact isExplained_local (s := .remove _) trivial fun _ => isExplained_pure not_lacked_nil _
    | error e =>
      refine isExplained_ask fun r => .bind ?_ fun _ => isExplained_pure not_lacked_nil _
      exact orDiscard_isExplained (e := ⟨.rename _ _, r⟩) trivial (congrArg not) _ _

theorem blob_isExplained : c.IsExplained [] (s.blob group image digest) := by
  unfold blob
  refine isExplained_ask fun r => ?_
  have hn : ¬ c.Lacked [⟨.find (s.blobPath group image digest), r⟩] :=
    not_lacked_of_isLocal fun e he => by rw [List.mem_singleton.1 he]; trivial
  split
  · exact isExplained_pure hn _
  · exact isExplained_pure hn _
  · exact isExplained_pure hn _
  · next f hf =>
    exact isExplained_throw (explains_fault (e := ⟨.find _, .error f⟩) trivial (bne_iff_ne.2 hf) _)

/-- What a stream brings is a blob, or not what was asked for, or it ends early. -/
theorem streamOutcome_sparesCache {stream : List (Except Failure Bytes)}
    (hs : ∀ piece ∈ stream, FailsUpstream piece) :
    SparesCache (s.streamOutcome group image digest stream) := by
  have harrived : FailsUpstream (arrived stream) := by
    induction stream with
    | nil => exact .ok _
    | cons piece rest ih =>
      cases piece with
      | error failure => exact hs _ List.mem_cons_self
      | ok piece => exact (ih fun p hp => hs p (List.mem_cons_of_mem _ hp)).map _
  unfold streamOutcome
  cases h : arrived stream with
  | error failure =>
    rw [h] at harrived
    exact harrived.sparesCache.error
  | ok data =>
    dsimp only
    split
    · exact .ok _
    · exact fun _ hf => by cases hf

end Store

/-! ## Resolutions -/

namespace Cache

open OriginClient

variable {c : Cache} {group image tag token : String} {current : Option Digest}

/-- The cached manifest is looked up without fail. -/
theorem cachedManifest_yields (c : Cache) (group image tag : String) :
    (c.cachedManifest group image tag).run.Yields fun r t =>
      (∃ found, r = .ok found) ∧ ∀ e ∈ t, e.1.IsLocal := by
  unfold cachedManifest
  rw [Attempt.run_tryCatch, Job.yields_bind]
  have hlocal : (c.store.readManifest group image tag).run.Only Step.IsLocal :=
    Store.readManifest_only trivial fun _ => trivial
  refine hlocal.yields.post fun r t ht => ?_
  cases r with
  | ok found => exact ⟨⟨found, rfl⟩, by simpa using ht⟩
  | error failure => exact ⟨⟨none, rfl⟩, by simpa using ht⟩

/-- What goes on after a look at the cache goes on after local events. -/
theorem isExplained_cachedManifest {before : List Event} {α : Type}
    {f : Option (ManifestRecord × Bytes) → Attempt α}
    (hf : ∀ found t, (∀ e ∈ t, e.1.IsLocal) → c.origin.IsExplained (before ++ t) (f found)) :
    c.origin.IsExplained before (c.cachedManifest group image tag >>= f) := by
  unfold IsExplained
  rw [Attempt.run_bind, Job.yields_bind]
  refine (c.cachedManifest_yields group image tag).post ?_
  rintro _ t ⟨⟨found, rfl⟩, hl⟩
  refine (hf found t hl).post fun r t' h => ?_
  rwa [List.append_assoc] at h

theorem refreshManifest_isExplained :
    c.origin.IsExplained [] (c.refreshManifest group image tag token current) := by
  unfold refreshManifest
  refine (fetchManifest_isExplained _ _ _ _).bind fun fetched => ?_
  dsimp only
  split
  · exact isExplained_throw (.upstream not_lacked_nil trivial)
  · exact Store.writeManifest_isExplained.bind fun record => isExplained_pure not_lacked_nil _

/-- Asking does not fail. What it tells is explained as if it had come of itself. -/
theorem asking_yields (c : Cache) (image tag : String) :
    (c.asking image tag).run.Yields fun r t => ∃ asked, r = .ok asked ∧
      c.origin.Explains t asked := by
  unfold asking
  rw [Attempt.run_tryCatch, Job.yields_bind, Attempt.run_bind, Job.yields_bind]
  refine (c.origin.requestToken_isExplained image).post ?_
  rintro (failure | token) t ht
  · exact ⟨.error failure, rfl, by simpa using ht.error⟩
  · dsimp only [Attempt.andThen_ok]
    rw [Attempt.run_bind, Job.yields_bind]
    refine (c.origin.headManifest_isExplained image tag token).post ?_
    rintro (failure | current) t' ht'
    · exact ⟨.error failure, rfl, by simpa using (ht'.append ht.not_lacked).error⟩
    · exact ⟨.ok (token, current), rfl,
        by simpa using Explains.append ht.not_lacked (.fine ht'.not_lacked)⟩

/-- The rest of a resolution, after the events of asking. -/
theorem resolving_isExplained {asked : Except Failure (String × Option Digest)} {t : List Event}
    (ht : c.origin.Explains t asked) :
    c.origin.IsExplained t (c.resolving group image tag asked) := by
  cases asked with
  | error failure =>
    unfold resolving
    dsimp only
    split
    · next hu =>
      have hn : ¬ c.origin.Lacked t := by
        cases ht with
        | lacked => cases hu
        | broken h => exact h
        | upstream h => exact h
      refine isExplained_cachedManifest fun found t' hl => ?_
      cases found with
      | none => exact isExplained_throw (ht.later hl).error
      | some held =>
        exact isExplained_pure (fun h => (lacked_append.1 h).elim hn (not_lacked_of_isLocal hl)) _
    · exact isExplained_throw ht.error
  | ok told =>
    obtain ⟨token, current⟩ := told
    refine IsExplained.after (isExplained_cachedManifest fun found t' hl => ?_) ht.not_lacked
    refine IsExplained.after ?_ (not_lacked_of_isLocal hl)
    split
    · split
      · exact isExplained_pure not_lacked_nil _
      · exact refreshManifest_isExplained
    · exact refreshManifest_isExplained

theorem resolveManifest_isExplained (c : Cache) (group image tag : String) :
    c.origin.IsExplained [] (c.resolveManifest group image tag) := by
  rw [resolveManifest_eq]
  unfold IsExplained
  rw [Attempt.run_bind, Job.yields_bind]
  refine (c.asking_yields image tag).post ?_
  rintro _ t ⟨asked, rfl, ht⟩
  refine (resolving_isExplained ht).post fun r t' h => ?_
  exact h

theorem downloadBlob_isExplained (c : Cache) (group image : String) (digest : Digest) :
    c.origin.IsExplained [] (c.downloadBlob group image digest) := by
  refine Store.blob_isExplained.bind fun found => ?_
  cases found with
  | some record => exact isExplained_pure not_lacked_nil _
  | none =>
    refine (requestToken_isExplained _ _).bind fun token => ?_
    refine isExplained_bind ((c.origin.fetchBlob_yields image digest token).post fun r t h => ?_)
    exact ⟨h.1, fun stream hs => Store.writeBlobStream_isExplained (h.2 stream hs)⟩

theorem resolveBlob_isExplained (c : Cache) (group image : String) (digest : Digest) :
    c.origin.IsExplained [] (c.resolveBlob group image digest) := by
  refine Store.blob_isExplained.bind fun found => ?_
  cases found with
  | some record => exact isExplained_pure not_lacked_nil _
  | none => exact (c.downloadBlob_isExplained _ _ _).bind fun _ => isExplained_pure not_lacked_nil _

/-! ### On a device that works -/

variable {w : World}

/-- A call on the origin, and what goes on with its answer. -/
theorem smoothly_call {α β : Type} {x : Attempt α} {f : α → Attempt β} {outcome : Except Failure α}
    {w₁ : World} (hx : Job.ComesTo x.run w outcome w₁) (hs : SparesCache outcome)
    (hf : ∀ a, outcome = .ok a → (f a).run.Smoothly w₁ fun r _ => SparesCache r) :
    (x >>= f).run.Smoothly w fun r _ => SparesCache r := by
  rw [Attempt.run_bind]
  refine Job.Smoothly.bind (hx.smoothly ?_)
  cases outcome with
  | error failure => exact Job.smoothly_done.2 hs.error
  | ok a => exact hf a rfl

theorem refreshManifest_smoothly (hu : Store.IsUsual group image) (ht : Name.checkTag tag = .ok ())
    (h : c.store.IsLaidOut w.disk) :
    (c.refreshManifest group image tag token current).run.Smoothly w fun r _ => SparesCache r := by
  refine smoothly_call (c.origin.fetchManifest_comesTo image tag token w)
    (c.origin.manifestOutcome_sparesCache _ _ _) fun fetched _ => ?_
  dsimp only
  split
  · exact Job.smoothly_done.2 fun _ hf => by cases hf
  · rw [Attempt.run_bind]
    refine Job.Smoothly.bind ((Store.writeManifest_smoothly hu ht rfl ?_).post ?_)
    · rwa [World.sent_disk]
    · rintro (failure | record) w' hr
      · cases hr
      · exact Job.smoothly_done.2 (.ok _)

theorem Asks.sparesCache {requests : List OriginRequest} {w' : World}
    {asked : Except Failure (String × Option Digest)} (h : c.Asks image tag w requests asked w') :
    SparesCache asked := by
  cases h with
  | noToken ht => exact (ht ▸ c.origin.tokenOutcome_sparesCache _).error
  | noHead ht hw hh => exact (hh ▸ c.origin.headOutcome_sparesCache _ _ _).error
  | answered ht hw hh => exact .ok _

/-- Where files and folders do not get in each other's way, a resolution fails by the
origin or by the device. -/
theorem resolveManifest_smoothly (hu : Store.IsUsual group image) (ht : Name.checkTag tag = .ok ())
    (h : c.store.IsLaidOut w.disk) :
    (c.resolveManifest group image tag).run.Smoothly w fun r _ => SparesCache r := by
  obtain ⟨requests, asked, w₁, ha⟩ := Asks.total c image tag w
  rw [resolveManifest_eq, Attempt.run_bind]
  refine Job.Smoothly.bind (ha.comesTo.smoothly ?_)
  have hcached := c.cachedManifest_comesTo group image tag w₁
  cases asked with
  | error failure =>
    have hspares := ha.sparesCache
    dsimp only [Attempt.andThen_ok, resolving]
    split
    · unfold fallback
      rw [Attempt.run_bind]
      refine Job.Smoothly.bind (hcached.smoothly ?_)
      cases c.store.held group image tag w₁.disk with
      | none => exact Job.smoothly_done.2 hspares.error
      | some held => exact Job.smoothly_done.2 (.ok _)
    · exact Job.smoothly_done.2 hspares.error
  | ok told =>
    obtain ⟨token, current⟩ := told
    have hrefresh : (c.refreshManifest group image tag token current).run.Smoothly w₁ fun r _ =>
        SparesCache r := refreshManifest_smoothly hu ht (by rwa [ha.disk])
    dsimp only [Attempt.andThen_ok, resolving]
    rw [Attempt.run_bind]
    refine Job.Smoothly.bind (hcached.smoothly ?_)
    dsimp only [Attempt.andThen_ok]
    split
    · split
      · exact Job.smoothly_done.2 (.ok _)
      · exact hrefresh
    · exact hrefresh

/-- What goes on after a look for a blob goes on in the same world. -/
theorem smoothly_blob {s : Store} {digest : Digest} {α : Type} {f : Option BlobRecord → Attempt α}
    {Q : Except Failure α → World → Prop} (hu : Store.IsUsual group image) (h : s.IsLaidOut w.disk)
    (hf : ∀ found, (f found).run.Smoothly w Q) :
    (s.blob group image digest >>= f).run.Smoothly w Q := by
  rw [Attempt.run_bind]
  refine Job.Smoothly.bind (Job.Smoothly.post ((h.blob_smoothly hu digest).does
    (R := fun _ _ => False) ((s.blob_comesTo group image digest w).does
      (Q := fun _ w' => w' = w) rfl)) ?_)
  rintro _ _ ⟨⟨found, rfl⟩, rfl⟩
  exact hf found

theorem downloadBlob_smoothly (hu : Store.IsUsual group image) (digest : Digest)
    (h : c.store.IsLaidOut w.disk) :
    (c.downloadBlob group image digest).run.Smoothly w fun r _ => SparesCache r := by
  refine smoothly_blob hu h fun found => ?_
  cases found with
  | some record => exact Job.smoothly_done.2 (.ok _)
  | none =>
    refine smoothly_call (c.origin.requestToken_comesTo image w)
      (c.origin.tokenOutcome_sparesCache _) fun token _ => ?_
    refine smoothly_call (c.origin.fetchBlob_comesTo image digest token _)
      (c.origin.blobOutcome_sparesCache _ _ _) fun stream hs => ?_
    refine (Store.writeBlobStream_outcome hu digest stream ?_).post ?_
    · rwa [World.sent_disk, World.sent_disk]
    · rintro _ _ ⟨rfl, -⟩
      exact Store.streamOutcome_sparesCache (c.origin.blobOutcome_failsUpstream hs)

theorem resolveBlob_smoothly (hu : Store.IsUsual group image) (digest : Digest)
    (h : c.store.IsLaidOut w.disk) :
    (c.resolveBlob group image digest).run.Smoothly w fun r _ => SparesCache r := by
  refine smoothly_blob hu h fun found => ?_
  cases found with
  | some record => exact Job.smoothly_done.2 (.ok _)
  | none =>
    dsimp only
    rw [Attempt.run_bind]
    refine Job.Smoothly.bind ((downloadBlob_smoothly hu digest h).post ?_)
    rintro (failure | record) w' hspares
    · exact Job.smoothly_done.2 hspares.error
    · exact Job.smoothly_done.2 (.ok _)

end Cache

end PullThrough
