import PullThrough.Proofs.Cache.Outages
import PullThrough.Proofs.Store.Damage
/-
  Whether fetching a manifest repairs what was damaged in the cache.

  After a manifest was fetched it is served out of the cache, whatever was damaged before
  (`Cache.Serves`), unless the place of its payload is blocked: there the damaged payload is left as
  it is, so the manifest is fetched anew each time, and an outage is answered with the failure
  (`Cache.Forgets`). The main result says that this is the only exception
  (`Cache.resolveManifest_repairs`). No run of resolutions ends it, because what is in the way stays
  there (`Cache.resolveAll_isBlocked`).
-/
namespace PullThrough.Cache

/-- On a disk a manifest is at hand for a reference: it is a hit while the origin names its digest,
and it is served while the origin is out of service. -/
structure Serves (c : Cache) (r : ManifestRef) (record : ManifestRecord) (data : Bytes) (d : Disk) :
    Prop where
  hit : ∀ w requests token w', w.disk = d →
    c.Asks r.image r.tag w requests (.ok (token, some record.digest)) w' →
      (c.resolveManifest r.group r.image r.tag).run.run w = (.ok ⟨record, data, .hit⟩, w')
  stale : ∀ w requests failure w', w.disk = d →
    c.Asks r.image r.tag w requests (.error failure) w' → failure.isUnavailable = true →
      (c.resolveManifest r.group r.image r.tag).run.run w = (.ok ⟨record, data, .stale⟩, w')

/-- On a disk there is no manifest at hand for a reference: whatever is answered was fetched just
now, and while the origin is out of service the failure is answered. -/
structure Forgets (c : Cache) (r : ManifestRef) (d : Disk) : Prop where
  miss : ∀ w found w', w.disk = d →
    (c.resolveManifest r.group r.image r.tag).run.run w = (.ok found, w') → found.source = .miss
  outage : ∀ w requests failure w', w.disk = d →
    c.Asks r.image r.tag w requests (.error failure) w' → failure.isUnavailable = true →
      (c.resolveManifest r.group r.image r.tag).run.run w = (.error failure, w')

variable {c : Cache} {r : ManifestRef} {record : ManifestRecord} {data : Bytes} {d : Disk}
  {group image tag : String} {digest : Digest} {w w' : World} {requests : List OriginRequest}
  {log : ResolutionLog} {rs : List ManifestRef}

theorem serves_of_manifestAt (hmay : MayStandFor r.tag record.digest)
    (h : c.store.manifestAt r.group r.image r.tag d = .ok (some (record, data))) :
    c.Serves r record data d := by
  have hheld : c.store.held r.group r.image r.tag d = some (record, data) := by
    rw [Store.held, h]
    rfl
  constructor
  · rintro w requests token w' rfl ha
    exact (Resolves.hit ha hheld rfl hmay).run
  · rintro w requests failure w' rfl ha hf
    exact (Resolves.stale ha hf hheld).run

theorem forgets_of_manifestAt (hr : r.IsValid)
    (h : ∀ found, c.store.manifestAt r.group r.image r.tag d ≠ .ok (some found)) :
    c.Forgets r d := by
  have hheld : c.store.held r.group r.image r.tag d = none := by
    cases hm : c.store.held r.group r.image r.tag d with
    | none => rfl
    | some found => exact absurd (manifestAt_of_held hm) (h found)
  constructor
  · rintro w found w' rfl hrun
    obtain ⟨requests, hres, -⟩ :=
      (resolveManifest_refines c hr.group hr.image hr.tag w _ _).1 hrun
    cases hres with
    | stale ha hf hh =>
      rw [hheld] at hh
      cases hh
    | hit ha hh hc hp =>
      rw [hheld] at hh
      cases hh
    | fetched ha hc hf =>
      cases hf
      rfl
  · rintro w requests failure w' rfl ha hf
    exact (Resolves.outage ha hf hheld).run

/-! ## One resolution -/

/-- The manifest that a resolution fetched was kept on the disk that it began with. -/
theorem Resolves.kept (h : c.Resolves group image tag w requests (.ok ⟨record, data, .miss⟩) w') :
    ∃ contentType w₁, w₁.disk = w.disk ∧ w₁.clock = w.clock ∧ MayStandFor tag record.digest ∧
      record.digest = Digest.of data ∧
      (c.store.writeManifest group image tag (Digest.of data) contentType data).run.run w₁ =
        (.ok record, w') := by
  cases h with
  | @fetched requests token current answer w₁ _ ha hc hf =>
    cases hf with
    | kept hg hp hc hw hr =>
      obtain ⟨created, updated, rfl⟩ := hr
      refine ⟨_, _, ?_, ?_, hp, rfl, hw⟩
      · rw [World.sent_disk, ha.disk]
      · rw [World.sent_clock, ha.fixed.2]

/-- What is in the way of a payload is left there by every resolution. -/
theorem Resolves.isBlocked {r : ManifestRef} (hr : r.IsValid)
    {answer : Except Failure ResolvedManifest}
    (h : c.Resolves r.group r.image r.tag w requests answer w') (hg : Name.isGroup group = true)
    (hi : Name.isImage image = true) (hb : c.store.IsBlocked group image digest w.disk) :
    c.store.IsBlocked group image digest w'.disk := by
  have hg' := Name.isGroup_of_check hr.group
  have hi' := Name.isImage_of_check hr.image
  cases h with
  | stale ha hf hh => rwa [ha.disk]
  | outage ha hf hh => rwa [ha.disk]
  | refused ha hf => rwa [ha.disk]
  | hit ha hh hc hp => rwa [ha.disk]
  | fetched ha hc hf =>
    rw [← ha.disk] at hb
    cases hf with
    | failed hget => rwa [World.sent_disk]
    | notPinned hget htag hp => rwa [World.sent_disk]
    | notClaimed hget hp hc hd => rwa [World.sent_disk]
    | kept hget hp hc hw hr' =>
      rw [← World.sent_disk] at hb
      exact hb.writeManifest hg hi hg' hi' hr.tag hw
    | unkept hget hp hc hw =>
      rw [← World.sent_disk] at hb
      exact hb.writeManifest hg hi hg' hi' hr.tag hw

/-- What is in the way of a payload keeps its digest from being a hit or stale. -/
theorem Resolves.miss_of_isBlocked {found : ResolvedManifest}
    (h : c.Resolves group image tag w requests (.ok found) w')
    (hb : c.store.IsBlocked group image found.record.digest w.disk) : found.source = .miss := by
  cases h with
  | stale ha hf hh => exact absurd rfl (hb.digest_ne (manifestAt_of_held hh))
  | hit ha hh hc hp => exact absurd rfl (hb.digest_ne (manifestAt_of_held hh))
  | fetched ha hc hf =>
    cases hf
    rfl

/-! ## Runs -/

/-- In a log each answer of a digest under an image was fetched just then. -/
def OnlyMisses (group image : String) (digest : Digest) (log : ResolutionLog) : Prop :=
  ∀ r found, (r, .ok found) ∈ log → r.group = group → r.image = image →
    found.record.digest = digest → found.source = .miss

theorem OnlyMisses.next (hlog : OnlyMisses group image digest log) (hr : r.IsValid)
    (hg : Name.isGroup group = true) (hi : Name.isImage image = true)
    (hb : c.store.IsBlocked group image digest w.disk) :
    OnlyMisses group image digest (c.resolveNext (log, w) r).1 ∧
      c.store.IsBlocked group image digest (c.resolveNext (log, w) r).2.disk := by
  obtain ⟨requests, answer, w', hres, hnext⟩ := c.resolveNext_eq hr log w
  rw [hnext]
  refine ⟨?_, hres.isBlocked hr hg hi hb⟩
  intro r' found hmem
  rcases List.mem_cons.1 hmem with heq | hmem
  · obtain ⟨rfl, rfl⟩ := Prod.mk.inj heq
    rintro rfl rfl rfl
    exact hres.miss_of_isBlocked hb
  · exact hlog r' found hmem

/-- What is in the way of a payload stays there over any run, and its digest is only fetched. -/
theorem resolveAll_isBlocked (hrs : ∀ r ∈ rs, ManifestRef.IsValid r)
    (hg : Name.isGroup group = true)
    (hi : Name.isImage image = true) (hb : c.store.IsBlocked group image digest w.disk) :
    OnlyMisses group image digest (c.resolveAll w rs).1 ∧
      c.store.IsBlocked group image digest (c.resolveAll w rs).2.disk := by
  have hrun : ∀ log w, OnlyMisses group image digest log →
      c.store.IsBlocked group image digest w.disk →
        OnlyMisses group image digest (rs.foldl c.resolveNext (log, w)).1 ∧
          c.store.IsBlocked group image digest (rs.foldl c.resolveNext (log, w)).2.disk := by
    intro log w hlog hb
    induction rs generalizing log w with
    | nil => exact ⟨hlog, hb⟩
    | cons r rs ih =>
      obtain ⟨hlog', hb'⟩ := hlog.next (hrs r (by simp)) hg hi hb
      exact ih (fun r' hr' => hrs r' (by simp [hr'])) _ _ hlog' hb'
  exact hrun [] w (fun _ _ hmem => by cases hmem) hb

/-- A manifest that was kept is read, and one that was fetched is served from then on, whatever was
on the disk before and however damaged, unless something else is in the place of its payload. Then
it is not read although it was kept, and it is fetched anew each time, in any run from there on. -/
theorem resolveManifest_repairs (c : Cache) {w : World} (hclock : ∀ n, (w.clock n).IsShown)
    {r : ManifestRef} (hr : r.IsValid) {data : Bytes} (hsize : data.length < 2 ^ 64)
    (hdistinct : ∀ l content, w.disk.get? l = some (.file content) →
      Digest.of content = Digest.of data → content = data) :
    (∀ contentType record w',
      (c.store.writeManifest r.group r.image r.tag (Digest.of data) contentType data).run.run w =
          (.ok record, w') →
        ((c.store.readManifest r.group r.image r.tag).run.run w' = (.ok (some (record, data)), w') ↔
          ¬ c.store.IsBlocked r.group r.image (Digest.of data) w.disk)) ∧
    ∀ record w',
      (c.resolveManifest r.group r.image r.tag).run.run w = (.ok ⟨record, data, .miss⟩, w') →
        (¬ c.store.IsBlocked r.group r.image (Digest.of data) w.disk →
          c.Serves r record data w'.disk) ∧
        (c.store.IsBlocked r.group r.image (Digest.of data) w.disk →
          c.Forgets r w'.disk ∧ ∀ rs : List ManifestRef, (∀ r' ∈ rs, r'.IsValid) →
            OnlyMisses r.group r.image (Digest.of data) (c.resolveAll w' rs).1) := by
  have hg := Name.isGroup_of_check hr.group
  have hi := Name.isImage_of_check hr.image
  constructor
  · intro contentType record w' hw
    rw [(c.store.readManifest_comesTo r.group r.image r.tag w').run]
    constructor
    · intro hread hb
      exact hb.not_read_of_kept hg hi hr.tag hw _ (Prod.mk.inj hread).1
    · intro hfree
      rw [Store.manifestAt_of_kept hg hi hr.tag hw hclock hsize hdistinct hfree]
  · intro record w' hrun
    obtain ⟨requests, hres, -⟩ := (resolveManifest_refines c hr.group hr.image hr.tag w _ _).1 hrun
    obtain ⟨contentType, w₁, hdisk, hclock₁, hmay, hdigest, hw⟩ := hres.kept
    constructor
    · intro hfree
      rw [← hdisk] at hfree hdistinct
      refine serves_of_manifestAt hmay
        (Store.manifestAt_of_kept hg hi hr.tag hw ?_ hsize hdistinct hfree)
      rwa [hclock₁]
    · intro hb
      have hb' := hres.isBlocked hr hg hi hb
      rw [← hdisk] at hb
      exact ⟨forgets_of_manifestAt hr (hb.not_read_of_kept hg hi hr.tag hw),
        fun rs hrs => (resolveAll_isBlocked hrs hg hi hb').1⟩

/-- The empty manifest is fetched into a cache in which one file has rotted. If it was the record,
the manifest is served from then on; if it was the payload, it is fetched again and again. -/
theorem resolveManifest_repairs_of_rot :
    let c : Cache := ⟨{ base := [""] }, ⟨"registry", "token", "service", 1, none⟩⟩
    let origin : List OriginRequest → OriginRequest → Exchange := fun _ r =>
      if r.url = "token" then .reply ⟨.ok, [], [Bytes.ofText "\x7b\"token\":\"t\"\x7d"], .complete⟩
      else .reply ⟨.ok, [], [], .complete⟩
    let digest : Digest := ⟨"e3b0c44298fc1c149afbf4c8996fb92427ae41e4649b934ca495991b7852b855",
      by decide +kernel, by decide +kernel⟩
    let image : Location := ["groups", "g", "manifests", "i"]
    let world : Location → World := fun rotten =>
      { disk := ⟨[(Slot.of ["groups"], .folder), (Slot.of ["groups", "g"], .folder),
          (Slot.of ["groups", "g", "manifests"], .folder), (Slot.of image, .folder),
          (Slot.of (image ++ ["sha256"]), .folder), (Slot.of (image ++ ["tags"]), .folder),
          (Slot.of rotten, .file [0x21])]⟩
        clock := fun _ => ⟨0, 0⟩, origin := origin }
    let r : ManifestRef := ⟨"g", "i", "t"⟩
    (∃ record w', (c.resolveManifest r.group r.image r.tag).run.run
          (world (image ++ ["tags", "t.json"])) = (.ok ⟨record, [], .miss⟩, w') ∧
        c.Serves r record [] w'.disk) ∧
      ∃ record w', (c.resolveManifest r.group r.image r.tag).run.run
          (world (image ++ ["sha256", digest.hex])) = (.ok ⟨record, [], .miss⟩, w') ∧
        c.Forgets r w'.disk ∧ OnlyMisses "g" "i" digest (c.resolveAll w' [r, r]).1 := by
  intro c origin digest image world r
  have hr : r.IsValid := ⟨by decide +kernel, by decide +kernel, by decide +kernel⟩
  have hempty : Digest.of [] = digest := by decide +kernel
  have hepoch : Instant.IsShown ⟨0, 0⟩ := ⟨by decide +kernel, .inl (by decide)⟩
  -- the only file there is has another digest
  have hrotten : Digest.of [0x21] ≠ Digest.of [] := by decide +kernel
  have hdistinct : ∀ rotten l content, (world rotten).disk.get? l = some (.file content) →
      Digest.of content = Digest.of [] → content = [] := by
    intro rotten l content hget hdigest
    have hcontent : content = [0x21] := by
      unfold Disk.get? at hget
      split at hget
      · cases hget
      · obtain ⟨before, after, hentries, -⟩ := List.lookup_eq_some_iff.1 hget
        have hmem : (Slot.of l, Entry.file content) ∈ (world rotten).disk.entries := by
          rw [hentries]
          simp
        have hlast : l = rotten ∧ content = [0x21] := by simpa [world] using hmem
        exact hlast.2
    rw [hcontent] at hdigest
    exact absurd hdigest hrotten
  have hfetched : ∀ rotten, ((c.resolveManifest r.group r.image r.tag).run.run
      (world rotten)).1.toOption.any (fun found => found.source = .miss ∧ found.data = []) = true →
      ∃ record w', (c.resolveManifest r.group r.image r.tag).run.run (world rotten) =
        (.ok ⟨record, [], .miss⟩, w') := by
    intro rotten hrun
    rcases h : (c.resolveManifest r.group r.image r.tag).run.run (world rotten) with
      ⟨failure | ⟨record, data, source⟩, w'⟩
    · rw [h] at hrun
      cases hrun
    · rw [h] at hrun
      obtain ⟨rfl, rfl⟩ : source = .miss ∧ data = [] := by simpa [Except.toOption] using hrun
      exact ⟨record, w', rfl⟩
  have hrepairs := fun rotten =>
    (resolveManifest_repairs c (w := world rotten) (fun _ => hepoch) hr (by decide)
      (hdistinct rotten)).2
  constructor
  · obtain ⟨record, w', hrun⟩ := hfetched (image ++ ["tags", "t.json"]) (by decide +kernel)
    have hnone : (world (image ++ ["tags", "t.json"])).disk.find
        (c.store.payloadPath "g" "i" digest) = .error .missing := by decide +kernel
    refine ⟨record, w', hrun, (hrepairs _ record w' hrun).1 ?_⟩
    rintro ⟨e, hf, -⟩
    rw [hempty, hnone] at hf
    cases hf
  · obtain ⟨record, w', hrun⟩ := hfetched (image ++ ["sha256", digest.hex]) (by decide +kernel)
    have hfound : (world (image ++ ["sha256", digest.hex])).disk.find
        (c.store.payloadPath "g" "i" digest) = .ok (.file [0x21]) := by decide +kernel
    have hblocked : c.store.IsBlocked "g" "i" (Digest.of [])
        (world (image ++ ["sha256", digest.hex])).disk := by
      rw [hempty]
      refine ⟨.file [0x21], hfound, ?_⟩
      rintro _ ⟨⟩
      rw [← hempty]
      exact hrotten
    obtain ⟨hforgets, hruns⟩ := (hrepairs _ record w' hrun).2 hblocked
    rw [hempty] at hruns
    exact ⟨record, w', hrun, hforgets, hruns [r, r] (by simpa using hr)⟩

end PullThrough.Cache
