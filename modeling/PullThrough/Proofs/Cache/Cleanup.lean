import PullThrough.Cache.Blobs
import PullThrough.Proofs.Cache.Resolution
import PullThrough.Proofs.Store.Cleanup
/-
  What resolutions leave behind that nothing is kept of.

  A manifest is kept only when it was fetched and is answered as such, and a failure on the way is
  one of the cache; all else leaves the disk alone (`Cache.resolveManifest_ends`). A blob that is
  found leaves the disk alone, and a download that fails leaves nothing but folders, whichever of
  its steps fails (`Cache.resolveBlob_ends`). So for any names, any origin and any troubles of the
  disk a clean cache is left with the same files and without scratch files
  (`Cache.resolve_leaves_untouched`).
-/
namespace PullThrough

open PullThrough.Path (location)
open Store (SameFile)

/-- The same files with the same contents, none of them a scratch file. There may be new folders. -/
structure Store.Untouched (s : Store) (d d' : Disk) : Prop where
  folders : s.AddsFolders d d'
  files : ∀ l, location s.base <+: l → SameFile l d d'
  clean : s.IsClean d'
  noScratch : ∀ target label content, location s.base <+: location (scratchBeside target label) →
    d'.get? (location (scratchBeside target label)) ≠ some (.file content)

theorem Store.AddsFolders.untouched {s : Store} {d d' : Disk} (h : s.AddsFolders d d')
    (hd : s.IsClean d) : s.Untouched d d' where
  folders := h
  files _ hl := h.sameFile hl
  clean := h.isClean hd
  noScratch := (h.isClean hd).scratch

namespace Cache

/-- The answer to a tag that nothing is kept for: what is in the cache already, or a failure that is
none of the cache. -/
def KeepsNoManifest : Except Failure ResolvedManifest → Prop
  | .ok found => found.source = .hit ∨ found.source = .stale
  | .error failure => ∀ fault, failure ≠ .cache fault

/-- The answer to a digest that nothing is kept for: what is in the cache
already, or any failure. -/
def KeepsNoBlob : Except Failure ResolvedBlob → Prop
  | .ok found => found.source = .hit
  | .error _ => True

variable {w : World}

/-! ## Manifests -/

/-- What fails when a manifest is written under its own digest is the cache. -/
theorem writeManifest_fault (s : Store) (group image tag contentType : String) (data : Bytes)
    (w : World) :
    (s.writeManifest group image tag (Digest.of data) contentType data).run.Ends w fun r _ =>
      ∀ failure, r = .error failure → ∃ fault, failure = .cache fault := by
  have htends : (s.writeManifest group image tag (Digest.of data) contentType data).run.Tends
      (fun _ => True) [] _ := s.writeManifest_tends trivial trivial contentType data
  have hdisk : Accounts (fun _ => True) ([] ++ []) w.disk :=
    ⟨fun _ _ _ => .inl trivial, fun _ hp => absurd hp List.not_mem_nil⟩
  obtain ⟨_, ⟨-, hfault⟩, -⟩ := htends.run hdisk
  exact hfault rfl

theorem refreshManifest_ends (c : Cache) (group image tag token : String) (current : Option Digest)
    (w : World) :
    (c.refreshManifest group image tag token current).run.Ends w fun answer w' =>
      KeepsNoManifest answer → w'.disk = w.disk := by
  unfold refreshManifest
  rw [Attempt.run_bind, Job.ends_bind]
  refine (c.origin.fetchManifest_comesTo image tag token w).ends ?_
  have hsent := w.sent_disk (c.origin.manifestRequest .get image tag token)
  rcases c.origin.manifestOutcome image tag _ with failure | fetched
  · exact fun _ => hsent
  dsimp only [Attempt.andThen_ok]
  cases falseClaim [(Digest.parse tag).toOption, fetched.digest.or current]
      (Digest.of fetched.data) with
  | some claimed => exact fun _ => hsent
  | none =>
    dsimp only
    rw [Attempt.run_bind, Job.ends_bind]
    refine (writeManifest_fault c.store _ _ _ _ _ _).post ?_
    rintro (failure | record) w' hfault hno
    · obtain ⟨fault, rfl⟩ := hfault _ rfl
      exact absurd rfl (hno fault)
    · rcases hno with hsource | hsource <;> cases hsource

/-- A resolution of a tag that nothing is kept for leaves the disk alone. -/
theorem resolveManifest_ends (c : Cache) (group image tag : String) (w : World) :
    (c.resolveManifest group image tag).run.Ends w fun answer w' =>
      KeepsNoManifest answer → w'.disk = w.disk := by
  rw [resolveManifest_eq, Attempt.run_bind, Job.ends_bind]
  obtain ⟨requests, asked, w₁, ha⟩ := Asks.total c image tag w
  refine ha.comesTo.ends ?_
  rw [← ha.disk]
  dsimp only [Attempt.andThen_ok, resolving]
  have hcached := c.cachedManifest_comesTo group image tag w₁
  rcases asked with failure | ⟨token, current⟩
  · dsimp only
    split
    · unfold fallback
      rw [Attempt.run_bind, Job.ends_bind]
      refine hcached.ends ?_
      cases c.store.held group image tag w₁.disk with
      | none => exact fun _ => rfl
      | some held => exact fun _ => rfl
    · exact fun _ => rfl
  · dsimp only
    rw [Attempt.run_bind, Job.ends_bind]
    refine hcached.ends ?_
    have hrefresh := c.refreshManifest_ends group image tag token current w₁
    dsimp only [Attempt.andThen_ok]
    cases c.store.held group image tag w₁.disk with
    | none => exact hrefresh
    | some held =>
      cases current with
      | none => exact hrefresh
      | some digest =>
        dsimp only
        split
        · exact fun _ => rfl
        · exact hrefresh

/-! ## Blobs -/

theorem downloadBlob_ends (c : Cache) (group image : String) (digest : Digest)
    (hclean : c.store.IsClean w.disk) :
    (c.downloadBlob group image digest).run.Ends w fun r w' =>
      r.isOk = false → c.store.AddsFolders w.disk w'.disk := by
  unfold downloadBlob
  rw [Attempt.run_bind, Job.ends_bind]
  refine (c.store.blob_comesTo group image digest w).ends ?_
  rcases c.store.blobAt group image digest w.disk with failure | _ | record
  · exact fun _ => .refl _ _
  · dsimp only [Attempt.andThen_ok]
    rw [Attempt.run_bind, Job.ends_bind]
    refine (c.origin.requestToken_comesTo image w).ends ?_
    generalize hw₁ : w.sent _ = w₁
    have hd₁ : w₁.disk = w.disk := by rw [← hw₁, World.sent_disk]
    rw [← hd₁] at hclean ⊢
    rcases c.origin.tokenOutcome _ with failure | token
    · exact fun _ => .refl _ _
    dsimp only [Attempt.andThen_ok]
    rw [Attempt.run_bind, Job.ends_bind]
    refine (c.origin.fetchBlob_comesTo image digest token w₁).ends ?_
    generalize hw₂ : w₁.sent _ = w₂
    have hd₂ : w₂.disk = w₁.disk := by rw [← hw₂, World.sent_disk]
    rw [← hd₂] at hclean ⊢
    rcases c.origin.blobOutcome image digest _ with failure | stream
    · exact fun _ => .refl _ _
    · exact c.store.writeBlobStream_ends group image digest stream hclean
  · exact fun h => by cases h

/-- A resolution of a digest that nothing is kept for leaves nothing but folders behind. -/
theorem resolveBlob_ends (c : Cache) (group image : String) (digest : Digest)
    (hclean : c.store.IsClean w.disk) :
    (c.resolveBlob group image digest).run.Ends w fun answer w' =>
      KeepsNoBlob answer → c.store.AddsFolders w.disk w'.disk := by
  unfold resolveBlob
  rw [Attempt.run_bind, Job.ends_bind]
  refine (c.store.blob_comesTo group image digest w).ends ?_
  rcases c.store.blobAt group image digest w.disk with failure | _ | record
  · exact fun _ => .refl _ _
  · dsimp only [Attempt.andThen_ok]
    rw [Attempt.run_bind, Job.ends_bind]
    refine (c.downloadBlob_ends group image digest hclean).post ?_
    rintro (failure | record) w' hfails hno
    · exact hfails rfl
    · cases hno
  · exact fun _ => .refl _ _

/-! ## What is left -/

/-- Whatever the names, the origin and the troubles of the disk are: a failure, and an answer from
the cache, leave a clean cache as it was. For a tag, a failure of the cache itself is excepted. -/
theorem resolve_leaves_untouched (c : Cache) (group image tag : String) (digest : Digest)
    {w : World} (hclean : c.store.IsClean w.disk) :
    (∀ answer w', (c.resolveManifest group image tag).run.run w = (answer, w') →
      KeepsNoManifest answer → c.store.Untouched w.disk w'.disk) ∧
    ∀ answer w', (c.resolveBlob group image digest).run.run w = (answer, w') →
      KeepsNoBlob answer → c.store.Untouched w.disk w'.disk := by
  constructor
  · intro answer w' hrun hno
    have hends := c.resolveManifest_ends group image tag w
    rw [Job.Ends, hrun] at hends
    rw [hends hno]
    exact (Store.AddsFolders.refl _ _).untouched hclean
  · intro answer w' hrun hno
    have hends := c.resolveBlob_ends group image digest hclean
    rw [Job.Ends, hrun] at hends
    exact (hends hno).untouched hclean

/-- A blob breaks off on the way to a cache that holds a payload. -/
theorem resolve_leaves_untouched_of_broken_blob :
    let c : Cache := ⟨{ base := [""] }, ⟨"registry", "token", "service", 1, none⟩⟩
    let digest := Digest.of []
    let held := c.store.payloadPath "g" "i" digest
    let disk := (({} : Disk).makeFolders held.parent).2.set (location held) (.file [])
    let origin : List OriginRequest → OriginRequest → Exchange := fun _ r =>
      if r.url = "token" then .reply ⟨.ok, [], [Bytes.ofText "\x7b\"token\":\"t\"\x7d"], .complete⟩
      else .reply ⟨.ok, [], [[0x61]], .broken⟩
    let w : World := { disk := disk, clock := fun _ => ⟨0, 0⟩, origin := origin }
    c.store.IsClean w.disk ∧ w.disk.find held = .ok (.file []) ∧
      ∃ answer w', (c.resolveBlob "g" "i" digest).run.run w = (answer, w') ∧
        answer.isOk = false ∧ c.store.Untouched w.disk w'.disk := by
  intro c digest held disk origin w
  have hkey : (FileKey.payload "g" "i" digest).IsValid :=
    show Name.checkGroup "g" = .ok () ∧ Name.checkImage "i" = .ok () by decide +kernel
  have hclean : c.store.IsClean w.disk := by
    intro l content _ hl
    by_cases hlh : l = location held
    · exact ⟨_, hkey, hlh⟩
    · rw [Disk.get?_set_of_ne hlh, (Disk.foldersMade {} held.parent).file, Disk.get?] at hl
      split at hl <;> cases hl
  have hfailed : ((c.resolveBlob "g" "i" digest).run.run w).1.isOk = false := by
    decide +kernel
  have hfound : w.disk.find held = .ok (.file []) := by decide +kernel
  generalize hrun : (c.resolveBlob "g" "i" digest).run.run w = out at hfailed ⊢
  obtain ⟨failure | found, w'⟩ := out
  · refine ⟨hclean, hfound, _, w', rfl, hfailed, ?_⟩
    exact (resolve_leaves_untouched c "g" "i" "t" _ hclean).2 _ _ hrun trivial
  · cases hfailed

end Cache

end PullThrough
