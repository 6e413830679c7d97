import PullThrough.Proofs.Cache.Effects
/-
  How far a digest as a reference pins the content, over whole runs.

  The record of a tag lies in a file whose name has underscores for the colons of the tag, so
  `sha256:<hex>` shares its file with the plain tag `sha256_<hex>`, and with no other
  (`Name.tagName_eq_iff`). A hit and a fetched manifest are checked against the pin, but what
  answers during an outage is not: it is the manifest that was kept last under either tag. The
  invariant of a run is that each record file holds the record that was kept last under its name
  (`Cache.Tracks`), and the result says exactly when an answer has another digest than the one it
  was asked for by (`Cache.resolveManifest_pin_fails_iff`).
-/
namespace PullThrough

/-- What a manifest is asked for by. -/
structure ManifestRef where
  group : String
  image : String
  tag : String
  deriving DecidableEq

structure ManifestRef.IsValid (r : ManifestRef) : Prop where
  group : Name.checkGroup r.group = .ok ()
  image : Name.checkImage r.image = .ok ()
  tag : Name.checkTag r.tag = .ok ()

/-- What a run was asked and answered, the last one first. -/
abbrev ResolutionLog := List (ManifestRef × Except Failure ResolvedManifest)

namespace ResolutionLog

/-- The record that an answer has left in the cache. -/
def keptBy : Except Failure ResolvedManifest → Option ManifestRecord
  | .ok found => if found.source = .miss then some found.record else none
  | .error _ => none

/-- The record that was kept last under a name. -/
def lastKept (log : ResolutionLog) (group image name : String) : Option ManifestRecord :=
  log.findSome? fun (r, answer) =>
    if r.group = group ∧ r.image = image ∧ Store.tagName r.tag = name then keptBy answer else none

theorem lastKept_cons_same (log : ResolutionLog) (r : ManifestRef)
    (answer : Except Failure ResolvedManifest) :
    lastKept ((r, answer) :: log) r.group r.image (Store.tagName r.tag) =
      (keptBy answer).or (log.lastKept r.group r.image (Store.tagName r.tag)) := by
  simp only [lastKept, List.findSome?_cons, and_self, if_true]
  cases keptBy answer <;> rfl

theorem lastKept_cons_other {log : ResolutionLog} {r : ManifestRef}
    {answer : Except Failure ResolvedManifest} {group image name : String}
    (h : ¬ (group = r.group ∧ image = r.image ∧ name = Store.tagName r.tag)) :
    lastKept ((r, answer) :: log) group image name = log.lastKept group image name := by
  have hr : ¬ (r.group = group ∧ r.image = image ∧ Store.tagName r.tag = name) :=
    fun ⟨hg, hi, hn⟩ => h ⟨hg.symm, hi.symm, hn.symm⟩
  simp only [lastKept, List.findSome?_cons, if_neg hr]

end ResolutionLog

namespace Cache

open Store (SameFile IsOfTag)

/-- Resolves one reference more. -/
def resolveNext (c : Cache) (before : ResolutionLog × World) (r : ManifestRef) :
    ResolutionLog × World :=
  let (answer, w) := (c.resolveManifest r.group r.image r.tag).run.run before.2
  ((r, answer) :: before.1, w)

/-- Resolves references one after the other. -/
def resolveAll (c : Cache) (w : World) (rs : List ManifestRef) : ResolutionLog × World :=
  rs.foldl c.resolveNext ([], w)

variable {c : Cache} {group image tag : String} {w w' : World} {log : ResolutionLog}

/-! ## One resolution -/

/-- What a resolution does to the record of its tag: it keeps the record that it answers, or
leaves the file as it is. -/
theorem Resolves.record (hg : Name.isGroup group = true) (hi : Name.isImage image = true)
    (ht : Name.checkTag tag = .ok ()) {requests : List OriginRequest}
    {answer : Except Failure ResolvedManifest}
    (h : c.Resolves group image tag w requests answer w') :
    match ResolutionLog.keptBy answer with
    | some kept => kept.tag = tag ∧ MayStandFor tag kept.digest ∧
        w'.disk.find (c.store.recordPath group image tag) = .ok (.file kept.encode)
    | none => SameFile (c.store.locationOf (.record group image tag)) w.disk w'.disk := by
  have hsame : ∀ {w'' : World}, w''.disk = w.disk →
      SameFile (c.store.locationOf (.record group image tag)) w.disk w''.disk := by
    intro w'' hd
    rw [hd]
    exact SameFile.refl _ _
  cases h with
  | stale ha hf hh => exact hsame ha.disk
  | outage ha hf hh => exact hsame ha.disk
  | refused ha hf => exact hsame ha.disk
  | hit ha hh hc hp => exact hsame ha.disk
  | @fetched requests token current answer w₁ _ ha hc hf =>
    have hsent := World.sent_disk w₁ (c.origin.manifestRequest .get image tag token)
    cases hf with
    | failed hget => exact hsame (hsent.trans ha.disk)
    | notPinned hget htag hp => exact hsame (hsent.trans ha.disk)
    | notClaimed hget hp hc hd => exact hsame (hsent.trans ha.disk)
    | @kept fetched record _ hget hp hc hw hr =>
      have hend := c.store.writeManifest_end hg hi ht (Digest.of fetched.data) (typeOf fetched)
        fetched.data (w₁.sent (c.origin.manifestRequest .get image tag token))
      rw [hw] at hend
      obtain ⟨created, updated, rfl⟩ := hr
      exact ⟨rfl, hp, hend.2.2⟩
    | @unkept fetched fault _ hget hp hc hw =>
      have hend := c.store.writeManifest_end hg hi ht (Digest.of fetched.data) (typeOf fetched)
        fetched.data (w₁.sent (c.origin.manifestRequest .get image tag token))
      rw [hw, hsent, ha.disk] at hend
      exact hend.2

/-- A resolution leaves the records at other places as they are. -/
theorem resolveManifest_sameRecord (c : Cache) (hg : Name.isGroup group = true)
    (hi : Name.isImage image = true) (ht : Name.checkTag tag = .ok ()) {group' image' tag' : String}
    (hne : (Place.record group' image' tag').names ≠ (Place.record group image tag).names)
    (w : World) :
    SameFile (c.store.locationOf (.record group' image' tag')) w.disk
      ((c.resolveManifest group image tag).run.run w).2.disk := by
  have hleaves := Store.leaves_of_does (c.resolveManifest_does hg hi ht w)
  refine hleaves.file _ (Place.isOwn_record group' image' tag') ?_
  rintro x (rfl | ⟨digest, rfl⟩)
  · exact hne
  · exact Place.record_ne_payload group' image' tag' group image digest

/-! ## Runs of resolutions -/

/-- Each file of a record holds the record that was kept last under its name, and that is one
that its tag may stand for. -/
def Tracks (s : Store) (log : ResolutionLog) (d : Disk) : Prop :=
  ∀ group image tag content, d.get? (s.locationOf (.record group image tag)) =
    some (.file content) →
    ∃ kept, log.lastKept group image (Store.tagName tag) = some kept ∧ content = kept.encode ∧
      Name.checkTag kept.tag = .ok () ∧ Store.tagName kept.tag = Store.tagName tag ∧
        MayStandFor kept.tag kept.digest

theorem tracks_of_isEmpty {s : Store} {d : Disk} (h : s.IsEmpty d) : Tracks s [] d := by
  intro group image tag content hc
  rw [h.place] at hc
  cases hc

/-- The record of the tag that is resolved: it is kept now, or it was kept before. -/
theorem Tracks.same (h : Tracks c.store log w.disk) (hg : Name.isGroup group = true)
    (hi : Name.isImage image = true) (ht : Name.checkTag tag = .ok ())
    {requests : List OriginRequest} {answer : Except Failure ResolvedManifest}
    (hres : c.Resolves group image tag w requests answer w') {content : Bytes}
    (hc : w'.disk.get? (c.store.locationOf (.record group image tag)) = some (.file content)) :
    ∃ kept, (ResolutionLog.keptBy answer).or (log.lastKept group image (Store.tagName tag)) =
        some kept ∧ content = kept.encode ∧ Name.checkTag kept.tag = .ok () ∧
      Store.tagName kept.tag = Store.tagName tag ∧ MayStandFor kept.tag kept.digest := by
  have hrecord := hres.record hg hi ht
  cases hk : ResolutionLog.keptBy answer with
  | some kept =>
    rw [hk] at hrecord
    obtain ⟨htag, hmay, hfind⟩ := hrecord
    have hget := (Disk.find_eq_ok hfind).2
    rw [c.store.recordPath_eq hg hi ht,
      Store.location_pathOf _ (Place.isPlain_record hg hi tag), hc] at hget
    cases hget
    rw [← htag] at hmay ht
    exact ⟨kept, rfl, rfl, ht, by rw [htag], hmay⟩
  | none =>
    rw [hk] at hrecord
    exact h _ _ _ _ ((hrecord content).1 hc)

theorem Tracks.next {r : ManifestRef} (hr : r.IsValid) (h : Tracks c.store log w.disk) :
    Tracks c.store (c.resolveNext (log, w) r).1 (c.resolveNext (log, w) r).2.disk := by
  have hg := Name.isGroup_of_check hr.group
  have hi := Name.isImage_of_check hr.image
  obtain ⟨requests, answer, w', hres⟩ := Resolves.total c hg hi hr.tag w
  have hnext : c.resolveNext (log, w) r = ((r, answer) :: log, w') := by
    rw [resolveNext, hres.run]
  rw [hnext]
  intro group image tag content hc
  by_cases hn : (Place.record group image tag).names = (Place.record r.group r.image r.tag).names
  · obtain ⟨rfl, rfl, ht⟩ := Place.names_record_iff.1 hn
    have hl : c.store.locationOf (.record r.group r.image tag) =
        c.store.locationOf (.record r.group r.image r.tag) := by
      rw [Store.locationOf, hn, ← Store.locationOf]
    rw [hl] at hc
    rw [ht, ResolutionLog.lastKept_cons_same]
    exact h.same hg hi hr.tag hres hc
  · rw [ResolutionLog.lastKept_cons_other fun hr' => hn (Place.names_record_iff.2 hr')]
    have hsame := c.resolveManifest_sameRecord hg hi hr.tag hn w
    rw [hres.run] at hsame
    exact h _ _ _ _ ((hsame content).1 hc)

/-- The files of records are tracked over any run. -/
theorem resolveAll_tracks (c : Cache) (hw : c.store.IsEmpty w.disk) {rs : List ManifestRef}
    (hrs : ∀ r ∈ rs, r.IsValid) :
    Tracks c.store (c.resolveAll w rs).1 (c.resolveAll w rs).2.disk := by
  have hrun : ∀ {log : ResolutionLog} {w : World}, Tracks c.store log w.disk →
      Tracks c.store (rs.foldl c.resolveNext (log, w)).1
        (rs.foldl c.resolveNext (log, w)).2.disk := by
    intro log w h
    induction rs generalizing log w with
    | nil => exact h
    | cons r rs ih =>
      exact ih (fun r' hr' => hrs r' (by simp [hr'])) (h.next (hrs r (by simp)))
  exact hrun (tracks_of_isEmpty hw)

/-! ## The pin -/

/-- A manifest that is held under a digest was kept last under the name of the digest. -/
theorem Tracks.held (h : Tracks c.store log w.disk) (hg : Name.isGroup group = true)
    (hi : Name.isImage image = true) {digest : Digest} {record : ManifestRecord} {data : Bytes}
    (hh : c.store.held group image digest.text w.disk = some (record, data)) :
    ∃ kept, log.lastKept group image (Name.underscored digest) = some kept ∧
      kept.digest = record.digest ∧
      (kept.digest ≠ digest → kept.tag = Name.underscored digest) := by
  have ht := Name.checkTag_text digest
  obtain ⟨content, hread, hdec⟩ := (Store.manifestAt_eq_some (manifestAt_of_held hh)).2
  have hget := (Disk.find_eq_ok (Disk.read_eq_ok hread)).2
  rw [c.store.recordPath_eq hg hi ht,
    Store.location_pathOf _ (Place.isPlain_record hg hi digest.text)] at hget
  obtain ⟨kept, hlast, rfl, hcheck, hname, hmay⟩ := h _ _ _ _ hget
  rw [Name.tagName_text] at hlast
  refine ⟨kept, hlast, (ManifestRecord.decode?_encode hdec).2.2.2.1.symm, fun hne => ?_⟩
  rcases (Name.tagName_eq_iff hcheck digest).1 hname with htag | htag
  · exact absurd (hmay digest htag).symm hne
  · exact htag

/-- A manifest that is asked for by a digest is whole, and it has that digest unless the origin is
out of service and the manifest that was kept last in the file of the digest came under the plain
tag that shares the file. -/
theorem resolveManifest_pin_fails_iff (c : Cache) {w : World} (hw : c.store.IsEmpty w.disk)
    {earlier : List ManifestRef} (hrs : ∀ r ∈ earlier, r.IsValid) {group image : String}
    (hg : Name.checkGroup group = .ok ()) (hi : Name.checkImage image = .ok ()) (digest : Digest)
    {found : ResolvedManifest} {w' : World}
    (h : (c.resolveManifest group image digest.text).run.run (c.resolveAll w earlier).2 =
      (.ok found, w')) :
    Digest.of found.data = found.record.digest ∧
      (found.record.digest ≠ digest ↔ found.source = .stale ∧
        ∃ kept, (c.resolveAll w earlier).1.lastKept group image
          (Name.underscored digest) = some kept ∧
          kept.tag = Name.underscored digest ∧ kept.digest ≠ digest) := by
  have hg := Name.isGroup_of_check hg
  have hi := Name.isImage_of_check hi
  obtain ⟨requests, answer, w'', hres⟩ :=
    Resolves.total c hg hi (Name.checkTag_text digest) (c.resolveAll w earlier).2
  rw [hres.run] at h
  obtain ⟨rfl, rfl⟩ : answer = .ok found ∧ w'' = w' := by simpa using h
  refine ⟨hres.whole, ?_⟩
  cases hres with
  | stale ha hf hh =>
    obtain ⟨kept, hlast, hdigest, htag⟩ := (c.resolveAll_tracks hw hrs).held hg hi hh
    constructor
    · intro hne
      rw [← hdigest] at hne
      exact ⟨rfl, kept, hlast, htag hne, hne⟩
    · rintro ⟨-, kept', hlast', -, hne⟩
      rw [hlast] at hlast'
      cases hlast'
      exact hdigest ▸ hne
  | hit ha hh hc hp => simp [hp digest rfl]
  | fetched ha hc hf =>
    cases hf with
    | kept hget hp hc hwrite hr =>
      obtain ⟨created, updated, rfl⟩ := hr
      simp [← hp digest rfl]

/-- An origin serves the empty manifest under the plain tag that shares its file with another
digest, and then is gone. The other digest is answered with the empty manifest. -/
theorem resolveManifest_pin_fails :
    let c : Cache := ⟨{ base := [""] }, ⟨"registry", "token", "service", 1, none⟩⟩
    let origin : List OriginRequest → OriginRequest → Exchange := fun seen r =>
      if 3 ≤ seen.length then .failed
      else if r.url = "token" then
        .reply ⟨.ok, [], [Bytes.ofText "\x7b\"token\":\"t\"\x7d"], .complete⟩
      else .reply ⟨.ok, [], [], .complete⟩
    let w : World :=
      { disk := ⟨[(Slot.of ["groups"], .folder)]⟩, clock := fun _ => ⟨0, 0⟩, origin := origin }
    let digest : Digest :=
      ⟨"0000000000000000000000000000000000000000000000000000000000000000", by decide, by decide⟩
    let earlier : List ManifestRef := [⟨"g", "i", Name.underscored digest⟩]
    c.store.IsEmpty w.disk ∧ (∀ r ∈ earlier, r.IsValid) ∧
      ∃ found w', (c.resolveManifest "g" "i" digest.text).run.run (c.resolveAll w earlier).2 =
          (.ok found, w') ∧
        found.source = .stale ∧ Digest.of found.data = found.record.digest ∧
          found.record.digest ≠ digest := by
  intro c origin w digest earlier
  have hw : c.store.IsEmpty w.disk := Store.isEmpty_of_new
  have hrs : ∀ r ∈ earlier, r.IsValid := by
    intro r hr
    rw [List.mem_singleton.1 hr]
    exact ⟨by decide +kernel, by decide +kernel, by decide +kernel⟩
  obtain ⟨hrun, hlast⟩ :
      ((c.resolveManifest "g" "i" digest.text).run.run
        (c.resolveAll w earlier).2).1.toOption.any (fun found => found.source = .stale) = true ∧
      ((c.resolveAll w earlier).1.lastKept "g" "i" (Name.underscored digest)).any
        (fun kept => kept.tag = Name.underscored digest ∧ kept.digest ≠ digest) = true := by
    decide +kernel
  refine ⟨hw, hrs, ?_⟩
  cases h : (c.resolveManifest "g" "i" digest.text).run.run (c.resolveAll w earlier).2 with
  | mk answer w' =>
    rw [h] at hrun
    cases answer with
    | error failure => cases hrun
    | ok found =>
      have hstale : found.source = .stale := by simpa [Except.toOption] using hrun
      obtain ⟨kept, hkept, hdiff⟩ := (Option.any_eq_true _ _).1 hlast
      have hpin := resolveManifest_pin_fails_iff c hw hrs rfl rfl digest h
      exact ⟨found, w', rfl, hstale, hpin.1,
        hpin.2.2 ⟨hstale, kept, hkept, of_decide_eq_true hdiff⟩⟩

end Cache

end PullThrough
