import PullThrough.Proofs.Cache.Effects
import PullThrough.Proofs.Gateway.Access
/-
  The integrity of content, over whole runs.

  A run is any list of requests handled one after the other, from a world whose cache is empty and
  whose origin may say anything. Two invariants carry it: the cache is tidy, and no folder lies
  where the file of a digest belongs (`Store.IsTidy`, `Store.HasPlainFolders`). They hold in every
  world that a run passes through, because requests change the disk at plain and sound places only
  (`Gateway.handle_does`), and they make every answer whole (`Gateway.handle_integrity`).

  The second invariant needs that no image has a part `sha256`: the folder of such an image could
  lie where a blob belongs.
-/
namespace PullThrough

/-- Every file at the place of a manifest or a blob has the digest of its name. -/
def Store.IsSound (s : Store) (d : Disk) : Prop :=
  ∀ group image (digest : Digest) content,
    Name.checkGroup group = .ok () → Name.checkImage image = .ok () →
    d.read (s.payloadPath group image digest) = .ok content ∨
      d.read (s.blobPath group image digest) = .ok content →
    Digest.of content = digest

/-- An answer has the digest and the length that it says, its content taken from the disk if need
be. -/
def PullResponse.IsWhole (a : PullResponse) (d : Disk) : Prop :=
  match a.body with
  | .octets data => Digest.of data = a.digest ∧ a.contentLength = data.length
  | .file path => ∃ data, d.read path = .ok data ∧ Digest.of data = a.digest ∧
      a.contentLength = data.length

/-- No part of an image is named like the folder of digests. -/
def PullRequest.IsPlain (r : PullRequest) : Prop := "sha256" ∉ Path.ofText r.image

instance (r : PullRequest) : Decidable r.IsPlain := inferInstanceAs (Decidable (_ ∉ _))

namespace Store

variable {s : Store} {d : Disk}

/-- A file that is found at the place of a digest has that digest. -/
theorem IsTidy.digest (h : s.IsTidy d) {x : Place} (hx : x.IsPlain) {digest : Digest}
    (hf : x.file = digest.hex) {content : Bytes}
    (hd : d.find (s.pathOf x) = .ok (.file content)) : Digest.of content = digest := by
  have hg := (Disk.find_eq_ok hd).2
  rw [location_pathOf s hx, locationOf_eq, hf] at hg
  exact h.hashed _ digest content hg

theorem IsTidy.isSound (h : s.IsTidy d) : s.IsSound d := by
  intro group image digest content hg hi hread
  have hg := Name.isGroup_of_check hg
  have hi := Name.isImage_of_check hi
  rw [s.payloadPath_eq hg hi, s.blobPath_eq hg hi] at hread
  rcases hread with hread | hread
  · exact h.digest (Place.isPlain_payload hg hi digest) rfl (Disk.read_eq_ok hread)
  · exact h.digest (Place.isPlain_blob hg hi digest) rfl (Disk.read_eq_ok hread)

end Store

namespace Gateway

variable {g : Gateway} {w : World}

/-- The world after some requests were handled one after the other. -/
def after (g : Gateway) (w : World) (rs : List PullRequest) : World :=
  rs.foldl (fun w r => ((g.handle r).run w).2) w

@[simp] theorem after_nil (g : Gateway) (w : World) : g.after w [] = w := List.foldl_nil ..

@[simp] theorem after_cons (g : Gateway) (w : World) (r : PullRequest) (rs : List PullRequest) :
    g.after w (r :: rs) = g.after ((g.handle r).run w).2 rs := List.foldl_cons ..

/-! ## One request -/

/-- A manifest is whole whatever the cache holds. -/
theorem serveManifest_whole (g : Gateway) {group image tag : String}
    (hg : Name.isGroup group = true) (hi : Name.isImage image = true) {a : PullResponse}
    {w' : World} (h : (g.serveManifest group image tag).run w = (.ok a, w')) (d : Disk) :
    a.IsWhole d := by
  unfold serveManifest at h
  cases ht : Name.checkTag tag with
  | error fault => rw [ht] at h; cases h
  | ok _ =>
    rw [ht] at h
    dsimp only at h
    obtain ⟨requests, answer, w₁, hr⟩ := Cache.Resolves.total g.cache hg hi ht w
    rw [Job.run_bind, hr.run] at h
    cases answer with
    | error failure => cases h
    | ok found =>
      cases h
      exact ⟨hr.whole, rfl⟩

theorem serveManifest_does (g : Gateway) {group image : String} (hg : Name.isGroup group = true)
    (hi : Name.isImage image = true) (hp : "sha256" ∉ Path.ofText image) (tag : String)
    (w : World) : (g.serveManifest group image tag).Does (g.cache.store.Change Store.IsFair) w
      fun r w' => ∀ a, r = .ok a → a.IsWhole w'.disk := by
  refine Job.Does.atEnd (Q := fun _ _ => True) ?_ fun a ha =>
    g.serveManifest_whole hg hi (Prod.ext ha rfl) _
  unfold serveManifest
  cases ht : Name.checkTag tag with
  | error fault => trivial
  | ok _ =>
    dsimp only
    rw [Job.does_bind]
    refine (g.cache.resolveManifest_does hg hi ht w).mono
      (fun _ _ hc => hc.mono fun _ hx => hx.isFair hg hi hp) ?_
    rintro (failure | found) w' - <;> trivial

theorem serveBlob_does (g : Gateway) {group image : String} (hg : Name.isGroup group = true)
    (hi : Name.isImage image = true) (hp : "sha256" ∉ Path.ofText image) (digest : String)
    (hw : g.cache.store.IsKept w.disk) :
    (g.serveBlob group image digest).Does (g.cache.store.Change Store.IsFair) w
      fun r w' => ∀ a, r = .ok a → a.IsWhole w'.disk := by
  unfold serveBlob
  cases digestOf digest with
  | error rejection => exact fun _ h => by cases h
  | ok digest =>
    have hx := Place.isPlain_blob hg hi digest
    have hpath := g.cache.store.blobPath_eq hg hi digest
    have hfair : Store.IsFair (.blob group image digest) :=
      ⟨hx, Place.isSound_blob group image digest, hp⟩
    dsimp only
    rw [Job.does_bind]
    have hdoes := (g.cache.resolveBlob_does hg hi digest w).mono
      (fun _ _ hc => hc.mono (by rintro _ rfl; exact hfair)) fun _ _ h => h
    refine (hdoes.keeps (fun _ _ hk hc => Store.IsKept.change hk hc) hw).post ?_
    rintro (failure | found) w' ⟨hfound, hw'⟩ a ha
    · cases ha
    · cases ha
      cases hfound found rfl with
      | hit hd hf =>
        rw [hd]
        exact ⟨_, Disk.read_of_find hf, hw.isTidy.digest hx rfl (by rw [← hpath]; exact hf), rfl⟩
      | miss hd hf => exact ⟨_, Disk.read_of_find hf, hd, rfl⟩
      | @taken data e hd hn hf hs =>
        rw [hpath] at hf hn
        have hl := (Disk.find_eq_ok hf).2
        rw [Store.location_pathOf _ hx] at hl
        cases e with
        | folder => exact absurd hl (hw'.hasPlainFolders.blob group image digest)
        | file content =>
          -- the file was there before, and then the lookup would have found it
          exact absurd (hw.isTidy.find hx hf ((hs content).1 hl)) (hn content)

/-- Every step of a request keeps the cache in order, and its answer is whole. -/
theorem handle_does (g : Gateway) {r : PullRequest} (hr : r.IsPlain)
    (hw : g.cache.store.IsKept w.disk) :
    (g.handle r).Does (g.cache.store.Change Store.IsFair) w
      fun answer w' => ∀ a, answer = .ok a → a.IsWhole w'.disk := by
  rw [handle_eq]
  refine Job.does_step_same rfl ?_
  intro x w₁ hw₁
  rw [← hw₁] at hw
  cases hp : g.permit r (Int64.ofInt (Instant.seconds x)) with
  | error rejection => exact fun _ h => by cases h
  | ok _ =>
    obtain ⟨hg, hi⟩ := names_of_permit hp
    have hg := Name.isGroup_of_check hg
    have hi := Name.isImage_of_check hi
    dsimp only [serve]
    cases r.resource with
    | manifest tag => exact g.serveManifest_does hg hi hr tag w₁
    | blob digest => exact g.serveBlob_does hg hi hr digest hw

theorem handle_isKept {r : PullRequest} (hr : r.IsPlain) (hw : g.cache.store.IsKept w.disk) :
    g.cache.store.IsKept ((g.handle r).run w).2.disk :=
  ((g.handle_does hr hw).keeps (fun _ _ hk hc => Store.IsKept.change hk hc) hw).run.2

/-! ## Runs of requests -/

/-- The cache stays in order over any run. -/
theorem after_isKept (g : Gateway) {rs : List PullRequest} (hrs : ∀ r ∈ rs, r.IsPlain)
    (hw : g.cache.store.IsKept w.disk) : g.cache.store.IsKept (g.after w rs).disk := by
  induction rs generalizing w with
  | nil => exact hw
  | cons r rs ih =>
    exact ih (fun r' hr' => hrs r' (by simp [hr'])) (handle_isKept (hrs r (by simp)) hw)

/-- A manifest that is answered is whole, whatever happened to the disk before. -/
theorem handle_manifest_whole (g : Gateway) {r : PullRequest} {tag : String}
    (hm : r.resource = .manifest tag) {a : PullResponse} {w' : World}
    (h : (g.handle r).run w = (.ok a, w')) (d : Disk) : a.IsWhole d := by
  rw [handle_eq, Job.run_step] at h
  split at h
  · cases h
  · next hp =>
    obtain ⟨hg, hi⟩ := names_of_permit hp
    unfold serve at h
    rw [hm] at h
    exact g.serveManifest_whole (Name.isGroup_of_check hg) (Name.isImage_of_check hi) h d

/-- Over every run of requests that starts with an empty cache, in every world on the way the files
of the cache have the digests of their names, and every answer is whole. A manifest is whole on
any disk. -/
theorem handle_integrity (g : Gateway) {w : World} (hw : g.cache.store.IsEmpty w.disk)
    (earlier : List PullRequest) (r : PullRequest) (hr : ∀ r' ∈ r :: earlier, r'.IsPlain) :
    (∀ w' ∈ (g.handle r).worlds (g.after w earlier), g.cache.store.IsSound w'.disk) ∧
      (∀ a w', (g.handle r).run (g.after w earlier) = (.ok a, w') → a.IsWhole w'.disk) ∧
      ∀ w₀ a w' tag, r.resource = .manifest tag → (g.handle r).run w₀ = (.ok a, w') →
        a.IsWhole w'.disk := by
  have hkept : g.cache.store.IsKept (g.after w earlier).disk :=
    g.after_isKept (fun r' hr' => hr r' (by simp [hr'])) ⟨hw.isTidy, hw.hasPlainFolders⟩
  have hdoes := g.handle_does (hr r (by simp)) hkept
  refine ⟨?_, ?_, ?_⟩
  · intro w' hw'
    exact (hdoes.worlds (fun _ _ hk hc => Store.IsKept.change hk hc) hkept w' hw').isTidy.isSound
  · intro a w' h
    have hend := hdoes.run
    rw [h] at hend
    exact hend a rfl
  · intro w₀ a w' tag hm h
    exact g.handle_manifest_whole hm h _

/-- A manifest and a blob are stored, and then the blob is found in the cache. The manifest is whole
also if its file was altered in between. -/
theorem handle_integrity_of_hit :
    let g : Gateway :=
      ⟨⟨Bytes.ofText "secret", 300⟩, ⟨{ base := [""] }, ⟨"registry", "token", "service", 1, none⟩⟩,
        ⟨[]⟩, true, "proxy"⟩
    let digest := Digest.of [1]
    let headers := [("docker-content-digest", Bytes.ofText digest.text)]
    let w : World :=
      { disk := ⟨[(Slot.of ["groups"], .folder)]⟩, clock := fun _ => ⟨0, 0⟩
        origin := fun _ r =>
          if r.url = "token" then
            .reply ⟨.ok, [], [Bytes.ofText "\x7b\"token\":\"t\"\x7d"], .complete⟩
          else .reply ⟨.ok, headers, [[1]], .complete⟩ }
    let manifest := g.withToken "g" "library/i" (.manifest "t") 0
    let blob := g.withToken "g" "library/i" (.blob digest.text) 0
    let s := g.cache.store
    let before := g.after w [manifest, blob]
    let altered : World := { before with
      disk := before.disk.set (s.locationOf (.payload "g" "library/i" digest)) (.file [2]) }
    s.IsEmpty w.disk ∧ (∀ r ∈ [manifest, blob], r.IsPlain) ∧
      before.disk.read (s.payloadPath "g" "library/i" digest) = .ok [1] ∧
      (∀ w' ∈ (g.handle blob).worlds before, s.IsSound w'.disk) ∧
      ((g.handle blob).run before).1.map (fun a => (a.source, a.body)) =
        .ok (.hit, .file (s.blobPath "g" "library/i" digest)) ∧
      (∀ a w', (g.handle blob).run before = (.ok a, w') → a.IsWhole w'.disk) ∧
      altered.disk.read (s.payloadPath "g" "library/i" digest) = .ok [2] ∧
      ((g.handle manifest).run altered).1.map (fun a => a.digest) = .ok digest ∧
      ∀ a w', (g.handle manifest).run altered = (.ok a, w') → a.IsWhole w'.disk := by
  intro g digest headers w manifest blob s before altered
  have hempty : s.IsEmpty w.disk := Store.isEmpty_of_new
  have hm : manifest.IsPlain := by decide +kernel
  have hb : blob.IsPlain := by decide +kernel
  have hplain : ∀ r ∈ [manifest, blob], r.IsPlain :=
    List.forall_mem_cons.2 ⟨hm, List.forall_mem_singleton.2 hb⟩
  have hfits : g.signer.Fits 0 := by constructor <;> decide +kernel
  have hlive : (0 : Int64).toInt < (0 : Int64).toInt + g.signer.ttl.toNat := by decide +kernel
  have hrun (resource : Resource) (u : World) (hu : u.clock = w.clock) :
      (g.handle (g.withToken "g" "library/i" resource 0)).run u =
        (g.serve ⟨"g", "library/i", resource, none⟩).run u.ticked := by
    refine run_withToken (by decide +kernel) (by decide +kernel) hfits ?_ resource
    rwa [World.now, hu]
  have hclock (r : PullRequest) (u : World) (hu : u.clock = w.clock) :
      ((g.serve r).run u.ticked).2.clock = w.clock := ((g.serve r).run_fixed u.ticked).2.trans hu
  let m : PullRequest := ⟨"g", "library/i", .manifest "t", none⟩
  let b : PullRequest := ⟨"g", "library/i", .blob digest.text, none⟩
  obtain ⟨stored, hstored, hread, hhit, hread', hmiss⟩ : ∃ stored : World,
      stored = ((g.serve b).run ((g.serve m).run w.ticked).2.ticked).2 ∧
        stored.disk.read (s.payloadPath "g" "library/i" digest) = .ok [1] ∧
        ((g.serve b).run stored.ticked).1.map (fun a => (a.source, a.body)) =
          .ok (.hit, .file (s.blobPath "g" "library/i" digest)) ∧
        (stored.disk.set (s.locationOf (.payload "g" "library/i" digest)) (.file [2])).read
          (s.payloadPath "g" "library/i" digest) = .ok [2] ∧
        ((g.serve m).run ({ stored with
          disk := stored.disk.set (s.locationOf (.payload "g" "library/i" digest)) (.file [2])
          } : World).ticked).1.map (fun a => a.digest) = .ok digest :=
    ⟨_, rfl, by decide +kernel⟩
  have hbefore : before = stored := by
    rw [show before = g.after w [manifest, blob] from rfl, after_cons, after_cons, after_nil,
      hrun (.manifest "t") w rfl, hrun (.blob digest.text) _ (hclock m w rfl), hstored]
  have hkept : stored.clock = w.clock := by
    rw [hstored]
    exact hclock b _ (hclock m w rfl)
  rw [← hrun (.blob digest.text) stored hkept, ← hbefore] at hhit
  rw [← hrun (.manifest "t") _ (by exact hkept), ← hbefore] at hmiss
  rw [← hbefore] at hread hread'
  obtain ⟨hsound, hwhole, -⟩ :=
    handle_integrity g hempty [manifest, blob] blob (List.forall_mem_cons.2 ⟨hb, hplain⟩)
  obtain ⟨-, -, hmanifest⟩ :=
    handle_integrity g hempty [manifest, blob] manifest (List.forall_mem_cons.2 ⟨hm, hplain⟩)
  exact ⟨hempty, hplain, hread, hsound, hhit, hwhole, hread', hmiss,
    fun a w' => hmanifest altered a w' "t" rfl⟩

end Gateway

end PullThrough
