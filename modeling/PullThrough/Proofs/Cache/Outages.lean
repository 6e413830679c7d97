import PullThrough.Proofs.Cache.Pinning
/-
  The last known good manifest.

  While the origin is out of service, a reference is answered with what it was answered last,
  and with the failure only if there was no answer before (`Cache.resolveManifest_outage`). The
  invariant of a run is that the cache holds for each reference the manifest of the last
  answer, record and payload, and no record for a reference that was never answered
  (`Cache.Remembers`). Payloads are shared by all tags of an image: what lies under a digest is
  always a payload that the origin sent, so as long as no two of these have one digest it is
  the right one, whichever tag it came by.

  A resolution may fail at any step of the disk. Nothing is said of references that share the file
  of their record (`ManifestRef.IsAlone`); for these see `Cache.resolveManifest_pin_fails_iff`.
-/
namespace PullThrough

/-- A reference whose record has a file of its own. -/
structure ManifestRef.IsAlone (r : ManifestRef) : Prop extends r.IsValid where
  folders : "sha256" ∉ Path.ofText r.image
  plain : ∀ digest, r.tag ≠ Name.underscored digest

namespace ManifestRef.IsAlone

variable {r r' : ManifestRef}

theorem isGroup (h : r.IsAlone) : Name.isGroup r.group = true := Name.isGroup_of_check h.group

theorem isImage (h : r.IsAlone) : Name.isImage r.image = true := Name.isImage_of_check h.image

theorem record_inj (h : r.IsAlone) (h' : r'.IsAlone)
    (hn : (Place.record r.group r.image r.tag).names =
      (Place.record r'.group r'.image r'.tag).names) :
    r = r' := by
  obtain ⟨hg, hi, ht⟩ := Place.names_record_iff.1 hn
  rcases Name.tagName_inj h.tag h'.tag ht with htag | ⟨digest, ⟨-, htag⟩ | ⟨htag, -⟩⟩
  · cases r
    cases r'
    simp_all
  · exact absurd htag (h'.plain digest)
  · exact absurd htag (h.plain digest)

end ManifestRef.IsAlone

namespace ResolutionLog

/-- The manifest that a reference was answered last. -/
def lastAnswer (log : ResolutionLog) (r : ManifestRef) : Option ResolvedManifest :=
  log.findSome? fun (r', answer) => if r' = r then answer.toOption else none

theorem lastAnswer_cons_same (log : ResolutionLog) (r : ManifestRef)
    (answer : Except Failure ResolvedManifest) :
    lastAnswer ((r, answer) :: log) r = answer.toOption.or (log.lastAnswer r) := by
  simp only [lastAnswer, List.findSome?_cons, if_true]
  cases answer.toOption <;> rfl

theorem lastAnswer_cons_other {log : ResolutionLog} {r r' : ManifestRef}
    {answer : Except Failure ResolvedManifest} (h : r' ≠ r) :
    lastAnswer ((r, answer) :: log) r' = log.lastAnswer r' := by
  simp only [lastAnswer, List.findSome?_cons, if_neg h.symm]

end ResolutionLog

namespace Cache

open Store (SameFile IsOfManifest)

/-- A payload that the origin sent after the requests of a world: the body of a reply to a request
for a manifest that is on record since. -/
def Sent (c : Cache) (w : World) (record : List OriginRequest) (data : Bytes) : Prop :=
  ∃ image tag token earlier fetched, w.requests <:+ earlier ∧
    c.origin.manifestRequest .get image tag token :: earlier <:+ record ∧
      c.origin.manifestOutcome image tag
        (w.origin earlier (c.origin.manifestRequest .get image tag token)) = .ok fetched ∧
        fetched.data = data

/-- The disk holds the record and the payload of a manifest under a reference. -/
structure Holds (s : Store) (r : ManifestRef) (found : ResolvedManifest) (d : Disk) : Prop where
  isProper : found.record.IsProper
  digest : Digest.of found.data = found.record.digest
  record : d.find (s.recordPath r.group r.image r.tag) = .ok (.file found.record.encode)
  payload : d.find (s.payloadPath r.group r.image found.record.digest) = .ok (.file found.data)

/-- The disk holds for each reference what it was answered last, and only payloads of one kind. -/
structure Remembers (s : Store) (known : Bytes → Prop) (log : ResolutionLog) (d : Disk) : Prop where
  isKept : s.IsKept d
  payloads : ∀ group image digest content,
    d.get? (s.locationOf (.payload group image digest)) = some (.file content) → known content
  answered : ∀ r : ManifestRef, r.IsAlone → ∀ found, log.lastAnswer r = some found →
    Holds s r found d
  unanswered : ∀ r : ManifestRef, r.IsAlone → log.lastAnswer r = none → ∀ content,
    d.get? (s.locationOf (.record r.group r.image r.tag)) ≠ some (.file content)

variable {c : Cache} {s : Store} {r r' : ManifestRef} {w w' : World} {log : ResolutionLog}
  {known : Bytes → Prop} {d d' : Disk} {found : ResolvedManifest} {rs : List ManifestRef}

/-! ## What is held -/

theorem Holds.held (h : Holds s r found d) :
    s.held r.group r.image r.tag d = some (found.record, found.data) := by
  unfold Store.held
  rw [Store.manifestAt_of_find h.isProper h.record h.payload h.digest]
  rfl

/-- What the cache holds for a reference is what it was answered last. -/
theorem Remembers.held (h : Remembers s known log d) (hr : r.IsAlone) :
    s.held r.group r.image r.tag d =
      (log.lastAnswer r).map fun found => (found.record, found.data) := by
  cases hlast : log.lastAnswer r with
  | some found => exact (h.answered r hr found hlast).held
  | none =>
    cases hheld : s.held r.group r.image r.tag d with
    | none => rfl
    | some held =>
      obtain ⟨-, content, hread, -⟩ := Store.manifestAt_eq_some (manifestAt_of_held hheld)
      have hget := (Disk.find_eq_ok (Disk.read_eq_ok hread)).2
      rw [s.recordPath_eq hr.isGroup hr.isImage hr.tag,
        Store.location_pathOf s (Place.isPlain_record hr.isGroup hr.isImage r.tag)] at hget
      exact absurd hget (h.unanswered r hr hlast content)

/-- A manifest stays as long as no folder goes away and its two files stay. -/
theorem Holds.of_sameFile (h : Holds s r found d) (hr : r.IsAlone)
    (hfolder : ∀ l, d.get? l = some .folder → d'.get? l = some .folder)
    (hrecord : SameFile (s.locationOf (.record r.group r.image r.tag)) d d')
    (hpayload : SameFile (s.locationOf (.payload r.group r.image found.record.digest)) d d') :
    Holds s r found d' where
  isProper := h.isProper
  digest := h.digest
  record := by
    have hf := h.record
    rw [s.recordPath_eq hr.isGroup hr.isImage hr.tag] at hf ⊢
    exact Store.find_of_sameFile (Place.isPlain_record hr.isGroup hr.isImage r.tag)
      hfolder hrecord hf
  payload := by
    have hf := h.payload
    rw [s.payloadPath_eq hr.isGroup hr.isImage] at hf ⊢
    exact Store.find_of_sameFile (Place.isPlain_payload hr.isGroup hr.isImage _) hfolder hpayload hf

/-! ## What the origin sent -/

theorem Asks.fixed {image tag : String} {requests : List OriginRequest}
    {asked : Except Failure (String × Option Digest)} (h : c.Asks image tag w requests asked w') :
    w'.origin = w.origin ∧ w'.clock = w.clock := by
  have hfixed := Job.run_fixed (c.asking image tag).run w
  rwa [h.comesTo.run] at hfixed

/-- A manifest that is fetched has been sent. -/
theorem sent_of_fetches {requests : List OriginRequest} {image tag token : String}
    {current : Option Digest} {asked : Except Failure (String × Option Digest)}
    {answer : Except Failure ResolvedManifest} {w₁ : World} {group : String}
    (ha : c.Asks image tag w requests asked w₁)
    (hf : c.Fetches group image tag w₁ token current answer w') {fetched : FetchedManifest}
    (hget : c.origin.manifestOutcome image tag
      (w₁.exchange (c.origin.manifestRequest .get image tag token)) = .ok fetched) :
    c.Sent w w'.requests fetched.data := by
  have hsend : (c.origin.manifestRequest .get image tag token).isSendable = true := by
    rw [World.exchange] at hget
    split at hget
    · assumption
    · cases hget
  rw [World.exchange, if_pos hsend, ha.fixed.1] at hget
  refine ⟨image, tag, token, w₁.requests, fetched, ?_, ?_, hget, rfl⟩
  · rw [ha.requests]
    exact List.suffix_append _ _
  · rw [hf.requests, onRecord, List.filter_cons_of_pos hsend]
    exact List.suffix_refl _

theorem Sent.mono {record record' : List OriginRequest} {data : Bytes} (h : c.Sent w record data)
    (hr : record <:+ record') : c.Sent w record' data := by
  obtain ⟨image, tag, token, earlier, fetched, hw, hrecord, hget⟩ := h
  exact ⟨image, tag, token, earlier, fetched, hw, hrecord.trans hr, hget⟩

theorem Sent.before {record : List OriginRequest} {data : Bytes} (h : c.Sent w' record data)
    (hr : w.requests <:+ w'.requests) (ho : w'.origin = w.origin) : c.Sent w record data := by
  obtain ⟨image, tag, token, earlier, fetched, hw, hrecord, hget⟩ := h
  rw [ho] at hget
  exact ⟨image, tag, token, earlier, fetched, hr.trans hw, hrecord, hget⟩

/-! ## One resolution -/

/-- An answer out of the cache, or none, with the disk as it was. -/
theorem Remembers.answer (h : Remembers s known log d) (hr : r.IsAlone)
    {answer : Except Failure ResolvedManifest}
    (ha : ∀ found, answer = .ok found →
      s.held r.group r.image r.tag d = some (found.record, found.data)) :
    Remembers s known ((r, answer) :: log) d where
  isKept := h.isKept
  payloads := h.payloads
  answered r' hr' found' hlast := by
    by_cases hne : r' = r
    · subst hne
      rw [ResolutionLog.lastAnswer_cons_same] at hlast
      cases answer with
      | error failure => exact h.answered r' hr' found' hlast
      | ok found =>
        obtain rfl : found = found' := by simpa [Except.toOption] using hlast
        have hheld := ha found rfl
        rw [h.held hr'] at hheld
        obtain ⟨before, hbefore, hsame⟩ := Option.map_eq_some_iff.1 hheld
        obtain ⟨hrecord, hdata⟩ := Prod.mk.inj hsame
        have hb := h.answered r' hr' before hbefore
        exact ⟨hrecord ▸ hb.isProper, hrecord ▸ hdata ▸ hb.digest, hrecord ▸ hb.record,
          hrecord ▸ hdata ▸ hb.payload⟩
    · rw [ResolutionLog.lastAnswer_cons_other hne] at hlast
      exact h.answered r' hr' found' hlast
  unanswered r' hr' hlast := by
    by_cases hne : r' = r
    · subst hne
      rw [ResolutionLog.lastAnswer_cons_same, Option.or_eq_none_iff] at hlast
      exact h.unanswered r' hr' hlast.2
    · rw [ResolutionLog.lastAnswer_cons_other hne] at hlast
      exact h.unanswered r' hr' hlast

/-- The payload of a manifest that was kept is in its place: it was put there, or it was there
before and is the same. -/
theorem Remembers.payload (h : Remembers s known log d) (hr : r.IsAlone) {data : Bytes}
    (hdistinct : ∀ data', known data' → Digest.of data' = Digest.of data → data' = data)
    {record : ManifestRecord}
    (hp : s.PayloadKept r.group r.image (Digest.of data) data d d' (.ok record))
    (hfolder : ∀ l, d.get? l = some .folder → d'.get? l = some .folder) :
    d'.find (s.payloadPath r.group r.image (Digest.of data)) = .ok (.file data) := by
  obtain ⟨e, hthere, rfl | hbefore⟩ := hp.there hr.isGroup hr.isImage hfolder
  · exact hthere
  · have hget := (Disk.find_eq_ok hbefore).2
    rw [s.payloadPath_eq hr.isGroup hr.isImage,
      Store.location_pathOf s (Place.isPlain_payload hr.isGroup hr.isImage
        (Digest.of data))] at hget
    cases e with
    | folder => exact absurd hget (h.isKept.hasPlainFolders.payload _ _ _)
    | file content =>
      have hknown := h.payloads _ _ _ _ hget
      rw [Store.locationOf_eq] at hget
      obtain rfl := hdistinct content hknown (h.isKept.isTidy.hashed _ _ _ hget)
      exact hthere

/-- Keeping a manifest that the origin sent, whether that works or not. -/
theorem Remembers.keep (h : Remembers s known log w.disk) (hr : r.IsAlone)
    (hclock : ∀ n, (w.clock n).IsShown) {data : Bytes} (hknown : known data)
    (hsize : data.length < 2 ^ 64)
    (hdistinct : ∀ data', known data' → Digest.of data' = Digest.of data → data' = data)
    {contentType : String} {result : Except Failure ManifestRecord}
    (hw : (s.writeManifest r.group r.image r.tag (Digest.of data) contentType data).run.run w =
      (result, w')) :
    Remembers s known ((r, result.map fun record => ⟨record, data, .miss⟩) :: log) w'.disk := by
  have hdoes := Store.writeManifest_does (s := s) hr.isGroup hr.isImage hr.tag (Digest.of data)
    contentType data w
  have hleaves := Store.leaves_of_does hdoes
  have hfair : ∀ x, IsOfManifest r.group r.image r.tag (Digest.of data) x → Store.IsFair x :=
    fun x hx => hx.isOfTag.isFair hr.isGroup hr.isImage hr.folders
  have hkept := (hdoes.keeps (fun _ _ hd hc => hd.change (hc.mono hfair)) h.isKept).run.2
  obtain ⟨hmanifest, hpayload⟩ := hdoes.run
  have htimed : ∀ record, ((s.writeManifest r.group r.image r.tag (Digest.of data) contentType
      data).run.run w).1 = .ok record → s.IsTimed w record := fun record hok =>
    Store.writeManifest_isTimed hr.isGroup hr.isImage hr.tag hok
  rw [hw] at hleaves hkept hmanifest hpayload htimed
  dsimp only at hleaves hkept hmanifest hpayload htimed
  have hother : ∀ r' : ManifestRef, r'.IsAlone → r' ≠ r →
      SameFile (s.locationOf (.record r'.group r'.image r'.tag)) w.disk w'.disk :=
    fun r' hr' hne => hleaves.otherRecord fun hn => hne (hr'.record_inj hr hn)
  have hstays : ∀ r' : ManifestRef, r'.IsAlone →
      SameFile (s.locationOf (.record r'.group r'.image r'.tag)) w.disk w'.disk →
        ∀ found', Holds s r' found' w.disk → Holds s r' found' w'.disk := fun r' hr' hs found' hf =>
    hf.of_sameFile hr' hleaves.folder hs (hpayload.sameFile hleaves hf.payload)
  refine ⟨hkept, hpayload.known hleaves hr.isGroup hr.isImage hknown h.payloads, ?_, ?_⟩
  · intro r' hr' found' hlast
    by_cases hne : r' = r
    · subst hne
      rw [ResolutionLog.lastAnswer_cons_same] at hlast
      cases result with
      | error failure => exact hstays r' hr' hmanifest.2 found' (h.answered r' hr' found' hlast)
      | ok record =>
        obtain rfl : (⟨record, data, .miss⟩ : ResolvedManifest) = found' := by
          simpa [Except.map, Except.toOption] using hlast
        obtain ⟨hdigest, ⟨created, updated, rfl⟩, hfound⟩ := hmanifest
        exact ⟨(htimed _ rfl).isProper hclock hsize, rfl, hfound,
          h.payload hr hdistinct hpayload hleaves.folder⟩
    · rw [ResolutionLog.lastAnswer_cons_other hne] at hlast
      exact hstays r' hr' (hother r' hr' hne) found' (h.answered r' hr' found' hlast)
  · intro r' hr' hlast content hget
    by_cases hne : r' = r
    · subst hne
      rw [ResolutionLog.lastAnswer_cons_same, Option.or_eq_none_iff] at hlast
      cases result with
      | error failure => exact h.unanswered r' hr' hlast.2 content ((hmanifest.2 content).1 hget)
      | ok record => cases hlast.1
    · rw [ResolutionLog.lastAnswer_cons_other hne] at hlast
      exact h.unanswered r' hr' hlast content ((hother r' hr' hne content).1 hget)

/-- A resolution more. -/
theorem Remembers.next (h : Remembers c.store known log w.disk) (hr : r.IsAlone)
    (hclock : ∀ n, (w.clock n).IsShown) (hsize : ∀ data, known data → data.length < 2 ^ 64)
    (hdistinct : ∀ data data', known data → known data' → Digest.of data' = Digest.of data →
      data' = data)
    {requests : List OriginRequest} {answer : Except Failure ResolvedManifest}
    (hres : c.Resolves r.group r.image r.tag w requests answer w')
    (hsent : ∀ data, c.Sent w w'.requests data → known data) :
    Remembers c.store known ((r, answer) :: log) w'.disk := by
  cases hres with
  | stale ha hf hh =>
    rw [ha.disk]
    exact h.answer hr (by rintro found ⟨⟩; exact hh)
  | outage ha hf hh =>
    rw [ha.disk]
    exact h.answer hr (by rintro found ⟨⟩)
  | refused ha hf =>
    rw [ha.disk]
    exact h.answer hr (by rintro found ⟨⟩)
  | hit ha hh hc hp =>
    rw [ha.disk]
    exact h.answer hr (by rintro found ⟨⟩; exact hh)
  | @fetched requests token current answer w₁ _ ha hc hf =>
    have hdisk := (w₁.sent_disk (c.origin.manifestRequest .get r.image r.tag token)).trans ha.disk
    have hclock' : ∀ n,
        ((w₁.sent (c.origin.manifestRequest .get r.image r.tag token)).clock n).IsShown := by
      rw [World.sent_clock, ha.fixed.2]
      exact hclock
    have hknown : ∀ fetched, c.origin.manifestOutcome r.image r.tag
        (w₁.exchange (c.origin.manifestRequest .get r.image r.tag token)) = .ok fetched →
          known fetched.data := fun fetched hget => hsent _ (sent_of_fetches ha hf hget)
    cases hf with
    | failed hget =>
      rw [hdisk]
      exact h.answer hr (by rintro found ⟨⟩)
    | notPinned hget htag hp =>
      rw [hdisk]
      exact h.answer hr (by rintro found ⟨⟩)
    | notClaimed hget hp hc hd =>
      rw [hdisk]
      exact h.answer hr (by rintro found ⟨⟩)
    | @kept fetched record _ hget hp hc hw _ =>
      have hdata := hknown _ hget
      rw [← hdisk] at h
      exact h.keep hr hclock' hdata (hsize _ hdata) (fun data' => hdistinct _ data' hdata) hw
    | @unkept fetched fault _ hget hp hc hw =>
      have hdata := hknown _ hget
      rw [← hdisk] at h
      exact h.keep hr hclock' hdata (hsize _ hdata) (fun data' => hdistinct _ data' hdata) hw

/-! ## Runs -/

theorem remembers_of_isEmpty (h : s.IsEmpty d) : Remembers s known [] d where
  isKept := h.isKept
  payloads group image digest content hget := by
    rw [h.place] at hget
    cases hget
  answered _ _ _ hlast := by cases hlast
  unanswered r _ _ content hget := by
    rw [h.place] at hget
    cases hget

/-- A resolution in a run, by its specification. -/
theorem resolveNext_eq (hr : r.IsValid) (log : ResolutionLog) (w : World) :
    ∃ requests answer w', c.Resolves r.group r.image r.tag w requests answer w' ∧
      c.resolveNext (log, w) r = ((r, answer) :: log, w') := by
  obtain ⟨requests, answer, w', hres⟩ := Resolves.total c (Name.isGroup_of_check hr.group)
    (Name.isImage_of_check hr.image) hr.tag w
  exact ⟨requests, answer, w', hres, by rw [resolveNext, hres.run]⟩

/-- A run has one origin. -/
theorem resolveAll_origin (c : Cache) (w : World) (rs : List ManifestRef) :
    (c.resolveAll w rs).2.origin = w.origin := by
  have hrun : ∀ log w, (rs.foldl c.resolveNext (log, w)).2.origin = w.origin := by
    intro log w
    induction rs generalizing log w with
    | nil => rfl
    | cons r rs ih =>
      rw [List.foldl_cons]
      exact (ih _ _).trans (Job.run_fixed (c.resolveManifest r.group r.image r.tag).run w).1
  exact hrun [] w

/-- The requests of a run are put on record, and none is taken off. -/
theorem requests_resolveNext (hrs : ∀ r ∈ rs, ManifestRef.IsValid r) :
    w.requests <:+ (rs.foldl c.resolveNext (log, w)).2.requests := by
  induction rs generalizing log w with
  | nil => exact List.suffix_refl _
  | cons r rs ih =>
    obtain ⟨requests, answer, w', hres, hnext⟩ := c.resolveNext_eq (hrs r (by simp)) log w
    rw [List.foldl_cons, hnext]
    refine List.IsSuffix.trans ?_ (ih fun r' hr' => hrs r' (by simp [hr']))
    rw [hres.requests]
    exact List.suffix_append _ _

/-- The cache remembers each last answer over any run. -/
theorem Remembers.run (h : Remembers c.store known log w.disk) {rs : List ManifestRef}
    (hrs : ∀ r ∈ rs, r.IsAlone) (hclock : ∀ n, (w.clock n).IsShown)
    (hsize : ∀ data, known data → data.length < 2 ^ 64)
    (hdistinct : ∀ data data', known data → known data' → Digest.of data' = Digest.of data →
      data' = data)
    (hsent : ∀ data, c.Sent w (rs.foldl c.resolveNext (log, w)).2.requests data → known data) :
    Remembers c.store known (rs.foldl c.resolveNext (log, w)).1
      (rs.foldl c.resolveNext (log, w)).2.disk := by
  induction rs generalizing log w with
  | nil => exact h
  | cons r rs ih =>
    have hvalid : ∀ r' ∈ rs, r'.IsValid := fun r' hr' => (hrs r' (by simp [hr'])).toIsValid
    obtain ⟨requests, answer, w', hres, hnext⟩ :=
      c.resolveNext_eq (hrs r (by simp)).toIsValid log w
    have hfixed := Job.run_fixed (c.resolveManifest r.group r.image r.tag).run w
    rw [hres.run] at hfixed
    rw [List.foldl_cons, hnext] at hsent ⊢
    have hsuffix : w.requests <:+ w'.requests := by
      rw [hres.requests]
      exact List.suffix_append _ _
    refine ih (h.next (hrs r (by simp)) hclock hsize hdistinct hres fun data hd => ?_)
      (fun r' hr' => hrs r' (by simp [hr'])) (by rw [hfixed.2]; exact hclock) fun data hd => ?_
    · exact hsent _ (hd.mono (requests_resolveNext hvalid))
    · exact hsent _ (hd.before hsuffix hfixed.1)

/-- While the origin is out of service a reference is answered with the manifest that it was
answered last, and with the failure if it was never answered. -/
theorem resolveManifest_outage (c : Cache) {w : World} (hw : c.store.IsEmpty w.disk)
    (hclock : ∀ n, (w.clock n).IsShown) {earlier : List ManifestRef}
    (hrs : ∀ r ∈ earlier, r.IsAlone)
    (hsize : ∀ data, c.Sent w (c.resolveAll w earlier).2.requests data → data.length < 2 ^ 64)
    (hdistinct : ∀ data data', c.Sent w (c.resolveAll w earlier).2.requests data →
      c.Sent w (c.resolveAll w earlier).2.requests data' →
        Digest.of data' = Digest.of data → data' = data)
    {r : ManifestRef} (hr : r.IsAlone) {requests : List OriginRequest} {failure : Failure}
    {w' : World}
    (ha : c.Asks r.image r.tag (c.resolveAll w earlier).2 requests (.error failure) w')
    (hf : failure.isUnavailable = true) :
    (c.resolveManifest r.group r.image r.tag).run.run (c.resolveAll w earlier).2 =
      (match (c.resolveAll w earlier).1.lastAnswer r with
        | some found => .ok { found with source := .stale }
        | none => .error failure, w') := by
  have hremembers := (remembers_of_isEmpty hw).run hrs hclock hsize hdistinct fun _ hd => hd
  have hheld : c.store.held r.group r.image r.tag (c.resolveAll w earlier).2.disk =
      ((c.resolveAll w earlier).1.lastAnswer r).map fun found => (found.record, found.data) :=
    hremembers.held hr
  cases hlast : (c.resolveAll w earlier).1.lastAnswer r with
  | some found =>
    rw [hlast] at hheld
    exact (Resolves.stale ha hf hheld).run
  | none =>
    rw [hlast] at hheld
    exact (Resolves.outage ha hf hheld).run

/-- An origin serves a manifest and then is gone. The manifest is served on. -/
theorem resolveManifest_outage_of_gone :
    let c : Cache := ⟨{ base := [""] }, ⟨"registry", "token", "service", 1, none⟩⟩
    let origin : List OriginRequest → OriginRequest → Exchange := fun seen r =>
      if 3 ≤ seen.length then .failed
      else if r.url = "token" then
        .reply ⟨.ok, [], [Bytes.ofText "\x7b\"token\":\"t\"\x7d"], .complete⟩
      else .reply ⟨.ok, [], [], .complete⟩
    let w : World :=
      { disk := ⟨[(Slot.of ["groups"], .folder)]⟩, clock := fun _ => ⟨0, 0⟩, origin := origin }
    let r : ManifestRef := ⟨"g", "i", "t"⟩
    c.store.IsEmpty w.disk ∧ r.IsAlone ∧ ∃ found requests failure w',
      (c.resolveAll w [r]).1.lastAnswer r = some found ∧
        c.Asks r.image r.tag (c.resolveAll w [r]).2 requests (.error failure) w' ∧
        failure.isUnavailable = true ∧
        (c.resolveManifest r.group r.image r.tag).run.run (c.resolveAll w [r]).2 =
          (.ok { found with source := .stale }, w') := by
  intro c origin w r
  have hw : c.store.IsEmpty w.disk := Store.isEmpty_of_new
  have hr : r.IsAlone :=
    ⟨⟨by decide +kernel, by decide +kernel, by decide +kernel⟩, by decide +kernel,
      fun digest h => by
      have hlength := congrArg (fun tag : String => tag.toList.length) h
      simp [r, Name.underscored] at hlength⟩
  -- all that is sent is empty
  have hsent : ∀ data, c.Sent w (c.resolveAll w [r]).2.requests data → data = [] := by
    rintro data ⟨image, tag, token, earlier, fetched, -, -, hget, rfl⟩
    dsimp only [w, origin] at hget
    split at hget
    · cases hget
    · cases hget
      rfl
  obtain ⟨hlength, hlast⟩ : (c.resolveAll w [r]).2.requests.length = 3 ∧
      ((c.resolveAll w [r]).1.lastAnswer r).isSome = true := by
    decide +kernel
  obtain ⟨found, hfound⟩ := Option.isSome_iff_exists.1 hlast
  have horigin : (c.resolveAll w [r]).2.origin = origin :=
    c.resolveAll_origin w [r]
  have ha : c.Asks r.image r.tag (c.resolveAll w [r]).2 [c.origin.tokenRequest r.image]
      (.error (.unavailable (.failed .tokenRequest)))
      ((c.resolveAll w [r]).2.sent (c.origin.tokenRequest r.image)) := by
    refine .noToken ?_
    have hgone : (c.resolveAll w [r]).2.exchange (c.origin.tokenRequest r.image) = .failed := by
      rw [World.exchange, horigin]
      split
      · exact if_pos (by omega)
      · rfl
    rw [hgone]
    rfl
  have hepoch : Instant.IsShown ⟨0, 0⟩ := ⟨by decide +kernel, .inl (by decide)⟩
  have hserved := resolveManifest_outage c hw (fun _ => hepoch) (by simpa using hr)
    (fun data hd => by rw [hsent data hd]; decide)
    (fun data data' hd hd' _ => by rw [hsent data hd, hsent data' hd']) hr ha rfl
  rw [hfound] at hserved
  exact ⟨hw, hr, found, _, _, _, hfound, ha, rfl, hserved⟩

end Cache

end PullThrough
