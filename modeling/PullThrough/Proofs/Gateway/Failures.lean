import PullThrough.Http.Server
import PullThrough.Proofs.Cache.Failures
import PullThrough.Proofs.Gateway.Access
import PullThrough.Proofs.Gateway.Integrity
/-
  What clients learn of failures.

  A rejection has one of five kinds, and together with the request and the time the kind says all
  that a client is told (`Gateway.handle_failures`): whatever the origin says, and whatever the
  cache holds, nothing else comes through. Behind the check of access the kind follows from what
  happened (`Gateway.serve_yields`): a name that is none, a manifest or a blob that the origin does
  not have, a step on the disk that failed, or anything else that the origin can be blamed for. In
  a cache that only requests have written to no step fails but by the device, if no image has a
  part `tags` or `sha256`.
-/
namespace PullThrough

/-! ## Kinds of rejections -/

/-- The kinds of rejections. -/
inductive Rejection.Kind where
  | unauthorized
  | badRequest
  | notFound
  | badGateway
  | internal
  deriving DecidableEq, Repr

def Rejection.kind : Rejection → Rejection.Kind
  | unauthorized _ _ => .unauthorized
  | badRequest _ _ => .badRequest
  | notFound _ _ => .notFound
  | badGateway _ => .badGateway
  | internal _ => .internal

/-- An answer is a rejection of some kind. -/
def FailsAs (answer : Except Rejection α) (kind : Rejection.Kind) : Prop :=
  ∃ rejection, answer = .error rejection ∧ rejection.kind = kind

namespace Resource

/-- What a resource is turned down for if its tag or digest is none. -/
def flaw? : Resource → Option Rejection
  | manifest tag =>
    match Name.checkTag tag with
    | .error fault => some (.ofName "TAG_INVALID" fault)
    | .ok _ => none
  | blob text =>
    match Gateway.digestOf text with
    | .error rejection => some rejection
    | .ok _ => none

/-- What a client is told if a resource is not there. -/
def unknownCode : Resource → String
  | manifest _ => "MANIFEST_UNKNOWN"
  | blob _ => "BLOB_UNKNOWN"

/-- The tag or the digest is one. -/
def IsNamed : Resource → Prop
  | manifest tag => Name.checkTag tag = .ok ()
  | blob text => ∃ digest, Digest.parse text = .ok digest

theorem flaw?_eq_none_iff {resource : Resource} : resource.flaw? = none ↔ resource.IsNamed := by
  cases resource with
  | manifest tag =>
    unfold flaw? IsNamed
    dsimp only
    cases Name.checkTag tag <;> simp
  | blob text =>
    unfold flaw? IsNamed Gateway.digestOf
    dsimp only
    cases Digest.parse text <;> simp [Except.mapError]

theorem kind_of_flaw? {resource : Resource} {rejection : Rejection}
    (h : resource.flaw? = some rejection) : rejection.kind = .badRequest := by
  cases resource with
  | manifest tag =>
    unfold flaw? at h
    dsimp only at h
    split at h
    · cases h; rfl
    · cases h
  | blob text =>
    unfold flaw? Gateway.digestOf at h
    dsimp only at h
    cases hd : Digest.parse text with
    | error fault => rw [hd] at h; cases h; rfl
    | ok digest => rw [hd] at h; cases h

end Resource

namespace Gateway

variable {g : Gateway} {r : PullRequest} {w w' : World}

/-! ## Behind the check -/

/-- What a request is answered behind the check, by the events of its run. -/
inductive Accounts (g : Gateway) (r : PullRequest) (t : List Event) :
    Except Rejection PullResponse → Prop
  | served {response : PullResponse} (h : r.resource.flaw? = none)
      (hn : ¬ g.cache.origin.Lacked t) : Accounts g r t (.ok response)
  | flawed {rejection : Rejection} (h : r.resource.flaw? = some rejection)
      (hn : ¬ g.cache.origin.Lacked t) : Accounts g r t (.error rejection)
  | lacked (h : r.resource.flaw? = none) (hl : g.cache.origin.Lacked t) :
      Accounts g r t (.error (.notFound r.resource.unknownCode "resource not found upstream"))
  | broken {fault : CacheFault} (h : r.resource.flaw? = none) (hn : ¬ g.cache.origin.Lacked t)
      (hf : ∃ e ∈ t, e.isFailure = true) : Accounts g r t (.error (.internal (.cache fault)))
  | upstream {failure : Failure} (h : r.resource.flaw? = none)
      (hn : ¬ g.cache.origin.Lacked t) : Accounts g r t (.error (.badGateway failure))

/-- A failure to resolve, as the client is told of it. -/
theorem accounts_of_explains {α : Type} {t : List Event} {failure : Failure}
    (hnone : r.resource.flaw? = none)
    (h : g.cache.origin.Explains t (.error failure : Except Failure α)) :
    g.Accounts r t (.error (.ofFailure r.resource.unknownCode failure)) := by
  cases h with
  | lacked hl => exact .lacked hnone hl
  | broken hn hf => exact .broken hnone hn hf
  | upstream hn hf =>
    have hgateway : Rejection.ofFailure r.resource.unknownCode failure = .badGateway failure := by
      cases failure with
      | unavailable cause => rfl
      | denied cause => rfl
      | unexpectedStatus status url => rfl
      | digestMismatch expected actual => rfl
      | _ => cases hf
    rw [hgateway]
    exact .upstream hnone hn

/-- A resolution that is explained, and the answer that is made of it. -/
theorem resolved_yields {α : Type} {x : Attempt α}
    {answer : Except Failure α → Job (Except Rejection PullResponse)}
    (hnone : r.resource.flaw? = none) (hx : g.cache.origin.IsExplained [] x)
    (herror : ∀ failure,
      answer (.error failure) = .done (.error (.ofFailure r.resource.unknownCode failure)))
    (hok : ∀ a, ∃ response, answer (.ok a) = .done (.ok response)) :
    (x.run >>= answer).Yields fun answer t => g.Accounts r t answer := by
  rw [Job.yields_bind]
  refine hx.post ?_
  rintro (failure | a) t h
  · rw [herror, Job.yields_done, List.append_nil]
    exact accounts_of_explains hnone h
  · obtain ⟨response, ha⟩ := hok a
    rw [ha, Job.yields_done, List.append_nil]
    exact .served hnone h.not_lacked

theorem serve_yields (g : Gateway) (r : PullRequest) :
    (g.serve r).Yields fun answer t => g.Accounts r t answer := by
  have hflaw : ∀ {rejection}, r.resource.flaw? = some rejection →
      g.Accounts r [] (.error rejection) := fun h => .flawed h OriginClient.not_lacked_nil
  unfold serve
  cases hr : r.resource with
  | manifest tag =>
    dsimp only
    unfold serveManifest
    cases ht : Name.checkTag tag with
    | error fault => exact hflaw (by rw [hr, Resource.flaw?, ht])
    | ok _ =>
      exact resolved_yields (by rw [hr, Resource.flaw?, ht])
        (g.cache.resolveManifest_isExplained r.group r.image tag) (fun _ => by rw [hr]; rfl)
        fun _ => ⟨_, rfl⟩
  | blob text =>
    dsimp only
    unfold serveBlob
    cases hd : digestOf text with
    | error rejection => exact hflaw (by rw [hr, Resource.flaw?, hd])
    | ok digest =>
      exact resolved_yields (by rw [hr, Resource.flaw?, hd])
        (g.cache.resolveBlob_isExplained r.group r.image digest) (fun _ => by rw [hr]; rfl)
        fun _ => ⟨_, rfl⟩

namespace Accounts

variable {t t' : List Event} {answer answer' : Except Rejection PullResponse}

/-- A local event before the others changes nothing. -/
theorem cons {e : Event} (hl : e.1.IsLocal) (h : g.Accounts r t answer) :
    g.Accounts r (e :: t) answer := by
  have hlacked : g.cache.origin.Lacked (e :: t) ↔ g.cache.origin.Lacked t := by
    have he : ¬ g.cache.origin.Lacked [e] := OriginClient.not_lacked_of_isLocal (by simpa using hl)
    rw [← List.singleton_append, OriginClient.lacked_append, or_iff_right he]
  cases h with
  | served h hn => exact .served h (mt hlacked.1 hn)
  | flawed h hn => exact .flawed h (mt hlacked.1 hn)
  | lacked h hl => exact .lacked h (hlacked.2 hl)
  | broken h hn hf =>
    obtain ⟨e', he', hf⟩ := hf
    exact .broken h (mt hlacked.1 hn) ⟨e', List.mem_cons_of_mem _ he', hf⟩
  | upstream h hn => exact .upstream h (mt hlacked.1 hn)

theorem not_unauthorized (h : g.Accounts r t answer) : ¬ FailsAs answer .unauthorized := by
  rintro ⟨rejection, rfl, hk⟩
  cases h with
  | flawed h => rw [Resource.kind_of_flaw? h] at hk; cases hk
  | _ => cases hk

theorem notFound_iff (h : g.Accounts r t answer) :
    FailsAs answer .notFound ↔ g.cache.origin.Lacked t := by
  constructor
  · rintro ⟨rejection, rfl, hk⟩
    cases h with
    | flawed h => rw [Resource.kind_of_flaw? h] at hk; cases hk
    | lacked _ hl => exact hl
    | _ => cases hk
  · intro hl
    cases h with
    | lacked _ _ => exact ⟨_, rfl, rfl⟩
    | served _ hn => exact absurd hl hn
    | flawed _ hn => exact absurd hl hn
    | broken _ hn _ => exact absurd hl hn
    | upstream _ hn => exact absurd hl hn

theorem badRequest_iff (h : g.Accounts r t answer) :
    FailsAs answer .badRequest ↔ ¬ r.resource.IsNamed := by
  rw [← Resource.flaw?_eq_none_iff]
  constructor
  · rintro ⟨rejection, rfl, hk⟩
    cases h with
    | flawed h => simp [h]
    | _ => cases hk
  · intro hflaw
    cases h with
    | flawed h => exact ⟨_, rfl, Resource.kind_of_flaw? h⟩
    | served h => exact absurd h hflaw
    | lacked h => exact absurd h hflaw
    | broken h => exact absurd h hflaw
    | upstream h => exact absurd h hflaw

theorem of_internal (h : g.Accounts r t answer) (hi : FailsAs answer .internal) :
    (∃ fault, answer = .error (.internal (.cache fault))) ∧ ∃ e ∈ t, e.isFailure = true := by
  obtain ⟨rejection, rfl, hk⟩ := hi
  cases h with
  | flawed h => rw [Resource.kind_of_flaw? h] at hk; cases hk
  | broken _ _ hf => exact ⟨⟨_, rfl⟩, hf⟩
  | _ => cases hk

/-- The kind of a rejection and what was asked for say all that the client is told. -/
theorem response_eq {rejection rejection' : Rejection} (h : g.Accounts r t (.error rejection))
    (h' : g.Accounts r t' (.error rejection')) (hk : rejection.kind = rejection'.kind) :
    rejection.response = rejection'.response := by
  cases h with
  | flawed h =>
    cases h' with
    | flawed h' => rw [Option.some.inj (h.symm.trans h')]
    | _ => rw [Resource.kind_of_flaw? h] at hk; cases hk
  | _ =>
    cases h' with
    | flawed h' => rw [Resource.kind_of_flaw? h'] at hk; cases hk
    | _ => first | rfl | cases hk

end Accounts

/-! ## Whole requests -/

/-- The check turns requests down for their names or for lack of access. -/
theorem kind_of_permit {now : Int64} {rejection : Rejection}
    (h : g.permit r now = .error rejection) :
    rejection.kind = .unauthorized ∨ rejection.kind = .badRequest := by
  cases hg : Name.checkGroup r.group with
  | error fault =>
    unfold permit at h
    rw [hg] at h
    cases h
    exact .inr rfl
  | ok _ =>
    cases hi : Name.checkImage r.image with
    | error fault =>
      unfold permit at h
      rw [hg, hi] at h
      cases h
      exact .inr rfl
    | ok _ =>
      rw [permit_of_names hg hi] at h
      split at h
      · cases h
      · cases h
        exact .inl rfl

theorem handle_of_permit_error {rejection : Rejection} (h : g.permit r w.now = .error rejection) :
    ((g.handle r).run w).1 = .error rejection := by
  rw [(isTurnedDown_of_permit h g.cache w rfl).1]

/-- Behind the check the events account for the answer, the reading of the clock among them. -/
theorem handle_accounts (h : g.permit r w.now = .ok ()) :
    g.Accounts r ((g.handle r).trace w) ((g.handle r).run w).1 := by
  have hserve := (g.serve_yields r).run w.ticked
  have htrace : (g.handle r).trace w =
      ⟨.clock, w.clock w.readings⟩ :: (g.serve r).trace w.ticked := by
    have hp : g.permit r (Int64.ofInt (Instant.seconds (w.perform .clock).1)) = .ok () := h
    rw [handle_eq, Job.trace]
    rw [hp]
    rfl
  rw [htrace, (isServed_of_permit h).1]
  exact hserve.cons trivial

/-! ## In a cache that only requests have written to -/

/-- A resolution that spares the cache, and the answer that is made of it. -/
theorem resolved_smoothly {α : Type} {x : Attempt α}
    {answer : Except Failure α → Job (Except Rejection PullResponse)} {code : String}
    (hx : x.run.Smoothly w fun a _ => SparesCache a)
    (herror : ∀ failure, answer (.error failure) = .done (.error (.ofFailure code failure)))
    (hok : ∀ a, ∃ response, answer (.ok a) = .done (.ok response)) :
    (x.run >>= answer).Smoothly w fun answer _ =>
      ∀ fault, answer ≠ .error (.internal (.cache fault)) := by
  refine Job.Smoothly.bind (hx.post ?_)
  rintro (failure | a) w' hs
  · rw [herror, Job.smoothly_done]
    intro fault hf
    cases failure with
    | cache fault => exact hs fault rfl
    | _ => cases hf
  · obtain ⟨response, ha⟩ := hok a
    rw [ha, Job.smoothly_done]
    exact fun _ hf => by cases hf

/-- Every step of a request writes to regular places. -/
theorem serve_isRegular (g : Gateway) (hu : Store.IsUsual r.group r.image) (w : World) :
    (g.serve r).Does (g.cache.store.Change Place.IsRegular) w fun _ _ => True := by
  unfold serve
  cases r.resource with
  | manifest tag =>
    dsimp only
    unfold serveManifest
    cases ht : Name.checkTag tag with
    | error fault => trivial
    | ok _ =>
      dsimp only
      rw [Job.does_bind]
      refine (g.cache.resolveManifest_does hu.isGroup hu.isImage ht w).mono
        (fun _ _ hc => hc.mono ?_) ?_
      · rintro _ (rfl | ⟨digest, rfl⟩)
        · exact hu.record ht
        · exact hu.payload digest
      · rintro (failure | found) w' - <;> trivial
  | blob text =>
    dsimp only
    unfold serveBlob
    cases digestOf text with
    | error rejection => trivial
    | ok digest =>
      dsimp only
      rw [Job.does_bind]
      refine (g.cache.resolveBlob_does hu.isGroup hu.isImage digest w).mono
        (fun _ _ hc => hc.mono ?_) ?_
      · rintro _ rfl
        exact hu.blob digest
      · rintro (failure | found) w' - <;> trivial

/-- Where files and folders do not get in each other's way, the cache is not to blame. -/
theorem serve_smoothly (hu : Store.IsUsual r.group r.image) (h : g.cache.store.IsLaidOut w.disk) :
    (g.serve r).Smoothly w fun answer _ => ∀ fault, answer ≠ .error (.internal (.cache fault)) := by
  unfold serve
  cases r.resource with
  | manifest tag =>
    dsimp only
    unfold serveManifest
    cases ht : Name.checkTag tag with
    | error fault => exact Job.smoothly_done.2 fun _ hf => by cases hf
    | ok _ =>
      exact resolved_smoothly (Cache.resolveManifest_smoothly hu ht h) (fun _ => rfl)
        fun _ => ⟨_, rfl⟩
  | blob text =>
    dsimp only
    unfold serveBlob digestOf
    cases Digest.parse text with
    | error fault => exact Job.smoothly_done.2 fun _ hf => by cases hf
    | ok digest =>
      exact resolved_smoothly (Cache.resolveBlob_smoothly hu digest h) (fun _ => rfl)
        fun _ => ⟨_, rfl⟩

end Gateway

/-- No part of an image is named like a folder of files. -/
def PullRequest.IsFlat (r : PullRequest) : Prop :=
  "tags" ∉ Path.ofText r.image ∧ "sha256" ∉ Path.ofText r.image

namespace Gateway

variable {g : Gateway} {r : PullRequest} {w : World}

theorem isUsual_of_permit {now : Int64} (hr : r.IsFlat) (h : g.permit r now = .ok ()) :
    Store.IsUsual r.group r.image :=
  ⟨(names_of_permit h).1, (names_of_permit h).2, hr.1, hr.2⟩

theorem handle_isLaidOut (hr : r.IsFlat) (h : g.cache.store.IsLaidOut w.disk) :
    g.cache.store.IsLaidOut ((g.handle r).run w).2.disk := by
  cases hp : g.permit r w.now with
  | error rejection =>
    rw [(isTurnedDown_of_permit hp g.cache w rfl).1]
    exact h
  | ok _ =>
    rw [(isServed_of_permit hp).1]
    exact ((g.serve_isRegular (isUsual_of_permit hr hp) w.ticked).keeps
      (fun _ _ hk hc => hk.change (fun _ hx => hx) hc) h).run.2

theorem after_isLaidOut (g : Gateway) {rs : List PullRequest} (hrs : ∀ r ∈ rs, r.IsFlat)
    (h : g.cache.store.IsLaidOut w.disk) : g.cache.store.IsLaidOut (g.after w rs).disk := by
  induction rs generalizing w with
  | nil => exact h
  | cons r rs ih =>
    exact ih (fun r' hr' => hrs r' (by simp [hr'])) (handle_isLaidOut (hrs r (by simp)) h)

theorem isSmooth_of_permit (h : g.permit r w.now = .ok ()) :
    (g.handle r).isSmooth w = (g.serve r).isSmooth w.ticked := by
  have hp : g.permit r (Int64.ofInt (Instant.seconds (w.perform .clock).1)) = .ok () := h
  rw [handle_eq, Job.isSmooth]
  rw [hp]
  rfl

/-- In such a cache no request is answered that the proxy failed, but by the device. -/
theorem handle_smoothly (hr : r.IsFlat) (h : g.cache.store.IsLaidOut w.disk)
    (hsmooth : (g.handle r).isSmooth w = true) : ¬ FailsAs ((g.handle r).run w).1 .internal := by
  intro hi
  cases hp : g.permit r w.now with
  | error rejection =>
    obtain ⟨_, he, hk⟩ := hi
    rw [handle_of_permit_error hp] at he
    cases he
    rcases kind_of_permit hp with hk' | hk' <;> simp [hk'] at hk
  | ok _ =>
    obtain ⟨⟨fault, hf⟩, -⟩ := (handle_accounts hp).of_internal hi
    rw [(isServed_of_permit hp).1] at hf
    rw [isSmooth_of_permit hp] at hsmooth
    exact serve_smoothly (isUsual_of_permit hr hp) (w := w.ticked) h hsmooth fault hf

/-- A client learns of a failure no more than its kind. Two requests for the same at the same
time whose rejections are of one kind get the same response, whatever the origin says and the
caches hold. The proxy is said to have failed only if a step on the disk failed. Behind the
check nothing is found just if the origin said so of a manifest or a blob, and a request is
called bad just for its tag or digest. In a cache that only requests have written to, the proxy
fails by the device only. -/
theorem handle_failures (g : Gateway) (r : PullRequest) :
    (∀ (w w' : World) (rejection rejection' : Rejection), w.now = w'.now →
      ((g.handle r).run w).1 = .error rejection → ((g.handle r).run w').1 = .error rejection' →
      rejection.kind = rejection'.kind → rejection.response = rejection'.response) ∧
    (∀ w : World, FailsAs ((g.handle r).run w).1 .internal →
      ∃ e ∈ (g.handle r).trace w, e.isFailure = true) ∧
    (∀ w : World, g.IsAuthorized r w.now →
      ¬ FailsAs ((g.handle r).run w).1 .unauthorized ∧
      (FailsAs ((g.handle r).run w).1 .notFound ↔ g.cache.origin.Lacked ((g.handle r).trace w)) ∧
      (FailsAs ((g.handle r).run w).1 .badRequest ↔ ¬ r.resource.IsNamed)) ∧
    ∀ (w : World) (earlier : List PullRequest), g.cache.store.IsEmpty w.disk →
      (∀ r' ∈ r :: earlier, r'.IsFlat) → (g.handle r).isSmooth (g.after w earlier) = true →
      ¬ FailsAs ((g.handle r).run (g.after w earlier)).1 .internal := by
  refine ⟨?_, ?_, ?_, ?_⟩
  · intro w w' rejection rejection' hnow h h' hk
    cases hp : g.permit r w.now with
    | error rejection₀ =>
      rw [handle_of_permit_error hp] at h
      rw [handle_of_permit_error (hnow ▸ hp)] at h'
      cases h
      cases h'
      rfl
    | ok _ =>
      have hw := handle_accounts hp
      have hw' := handle_accounts (hnow ▸ hp)
      rw [h] at hw
      rw [h'] at hw'
      exact hw.response_eq hw' hk
  · intro w hi
    cases hp : g.permit r w.now with
    | error rejection =>
      obtain ⟨_, he, hk⟩ := hi
      rw [handle_of_permit_error hp] at he
      cases he
      rcases kind_of_permit hp with hk' | hk' <;> simp [hk'] at hk
    | ok _ => exact ((handle_accounts hp).of_internal hi).2
  · intro w hauth
    have h := handle_accounts (permit_eq_ok_iff.2 hauth)
    exact ⟨h.not_unauthorized, h.notFound_iff, h.badRequest_iff⟩
  · intro w earlier hw hflat hsmooth
    refine handle_smoothly (hflat r (by simp)) ?_ hsmooth
    exact g.after_isLaidOut (fun r' hr' => hflat r' (by simp [hr'])) (.of_isEmpty hw)

/-- An origin that is gone and one that is too busy are the same to a client, who is still served
what was stored before. Next to that, a tag that the origin does not have and a digest that is
none. -/
theorem handle_failures_of_outages :
    let g : Gateway :=
      ⟨⟨Bytes.ofText "secret", 300⟩, ⟨{ base := [""] }, ⟨"registry", "token", "service", 1, none⟩⟩,
        ⟨[]⟩, true, "proxy"⟩
    let w : World :=
      { disk := ⟨[(Slot.of ["groups"], .folder)]⟩, clock := fun _ => ⟨0, 0⟩
        origin := fun _ r =>
          if r.url = "token" then
            .reply ⟨.ok, [], [Bytes.ofText "\x7b\"token\":\"t\"\x7d"], .complete⟩
          else if r.url = g.cache.origin.manifestUrl "library/i" "t" then
            .reply ⟨.ok, [], [[1]], .complete⟩
          else .reply ⟨.notFound, [], [], .complete⟩ }
    let request : Resource → PullRequest := fun resource => g.withToken "g" "library/i" resource 0
    let before := g.after w [request (.manifest "t")]
    let gone : World := { before with origin := fun _ _ => .failed }
    let busy : World := { before with origin := fun _ _ => .reply ⟨⟨503⟩, [], [], .complete⟩ }
    g.cache.store.IsEmpty w.disk ∧
      (∀ r ∈ [request (.manifest "u"), request (.manifest "t")], r.IsFlat) ∧
      (∀ resource, g.IsAuthorized (request resource) before.now) ∧
      ((g.handle (request (.manifest "t"))).run gone).1.map (fun a => a.source) = .ok .stale ∧
      (∃ rejection rejection',
        ((g.handle (request (.manifest "u"))).run gone).1 = .error rejection ∧
          ((g.handle (request (.manifest "u"))).run busy).1 = .error rejection' ∧
          rejection ≠ rejection' ∧ rejection.kind = .badGateway ∧ rejection'.kind = .badGateway ∧
          rejection.response = rejection'.response) ∧
      (g.handle (request (.manifest "u"))).isSmooth before = true ∧
      ¬ FailsAs ((g.handle (request (.manifest "u"))).run before).1 .internal ∧
      FailsAs ((g.handle (request (.manifest "u"))).run before).1 .notFound ∧
      g.cache.origin.Lacked ((g.handle (request (.manifest "u"))).trace before) ∧
      FailsAs ((g.handle (request (.blob "d"))).run before).1 .badRequest := by
  intro g w request before gone busy
  have hempty : g.cache.store.IsEmpty w.disk := Store.isEmpty_of_new
  have hflat : ∀ r ∈ [request (.manifest "u"), request (.manifest "t")], r.IsFlat := by
    refine List.forall_mem_cons.2 ⟨?_, List.forall_mem_singleton.2 ?_⟩ <;>
      constructor <;> decide +kernel
  have hg : Name.checkGroup "g" = .ok () := by decide +kernel
  have hi : Name.checkImage "library/i" = .ok () := by decide +kernel
  have hfits : g.signer.Fits 0 := by constructor <;> decide +kernel
  have hlive : (0 : Int64).toInt < (0 : Int64).toInt + g.signer.ttl.toNat := by decide +kernel
  have hpermit (resource : Resource) (u : World) (hu : u.clock = w.clock) :
      g.permit (request resource) u.now = .ok () :=
    permit_withToken hg hi hfits (by rwa [World.now, hu]) resource
  have hrun (resource : Resource) (u : World) (hu : u.clock = w.clock) :
      (g.handle (request resource)).run u =
        (g.serve ⟨"g", "library/i", resource, none⟩).run u.ticked :=
    run_withToken hg hi hfits (by rwa [World.now, hu]) resource
  have hrun' (resource : Resource) (u : World)
      (origin : List OriginRequest → OriginRequest → Exchange) (hu : u.clock = w.clock) :
      (g.handle (request resource)).run { u with origin := origin } =
        (g.serve ⟨"g", "library/i", resource, none⟩).run
          ({ u with origin := origin } : World).ticked :=
    hrun resource { u with origin := origin } hu
  let t : PullRequest := ⟨"g", "library/i", .manifest "t", none⟩
  let u : PullRequest := ⟨"g", "library/i", .manifest "u", none⟩
  obtain ⟨stored, hstored, hstale, hgone, hbusy, hsmooth, hnone⟩ : ∃ stored : World,
      stored = ((g.serve t).run w.ticked).2 ∧
        ((g.serve t).run ({ stored with origin := fun _ _ => .failed } : World).ticked).1.map
          (fun a => a.source) = .ok .stale ∧
        ((g.serve u).run ({ stored with origin := fun _ _ => .failed } : World).ticked).1 =
          .error (.badGateway (.unavailable (.failed .tokenRequest))) ∧
        ((g.serve u).run ({ stored with
          origin := fun _ _ => .reply ⟨⟨503⟩, [], [], .complete⟩ } : World).ticked).1 =
          .error (.badGateway (.unavailable (.tokenEndpoint ⟨503⟩))) ∧
        (g.serve u).isSmooth stored.ticked = true ∧
        ((g.serve u).run stored.ticked).1 =
          .error (.notFound "MANIFEST_UNKNOWN" "resource not found upstream") :=
    ⟨_, rfl, by decide +kernel⟩
  have hbefore : before = stored := by
    rw [show before = g.after w [request (.manifest "t")] from rfl, after_cons, after_nil,
      hrun (.manifest "t") w rfl, hstored]
  have hclock : before.clock = w.clock := by
    rw [hbefore, hstored]
    exact ((g.serve t).run_fixed w.ticked).2
  have hnow (u : World) (origin origin' : List OriginRequest → OriginRequest → Exchange) :
      ({ u with origin := origin } : World).now = ({ u with origin := origin' } : World).now := rfl
  rw [← hbefore] at hstale hgone hbusy hsmooth hnone
  rw [← hrun' (.manifest "t") before _ hclock] at hstale
  rw [← hrun' (.manifest "u") before _ hclock] at hgone hbusy
  rw [← hrun (.manifest "u") before hclock] at hnone
  replace hsmooth := (isSmooth_of_permit (hpermit (.manifest "u") before hclock)).trans hsmooth
  obtain ⟨htold, -, hcalled, hsmoothly⟩ := handle_failures g (request (.manifest "u"))
  have hauthorized (resource : Resource) : g.IsAuthorized (request resource) before.now :=
    permit_eq_ok_iff.1 (hpermit resource before hclock)
  have hmissing : FailsAs ((g.handle (request (.manifest "u"))).run before).1 .notFound :=
    ⟨_, hnone, rfl⟩
  refine ⟨hempty, hflat, hauthorized, hstale, ⟨_, _, hgone, hbusy, by decide, rfl, rfl,
    htold gone busy _ _ (hnow before _ _) hgone hbusy rfl⟩, hsmooth,
    hsmoothly w [request (.manifest "t")] hempty hflat hsmooth, hmissing,
    (hcalled before (hauthorized _)).2.1.1 hmissing, ?_⟩
  refine ((handle_failures g (request (.blob "d"))).2.2.1 before (hauthorized _)).2.2.2 ?_
  rintro ⟨digest, hd⟩
  cases hd

end Gateway

end PullThrough
