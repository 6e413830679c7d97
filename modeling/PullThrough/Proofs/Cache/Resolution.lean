import PullThrough.Cache.Manifests
import PullThrough.Proofs.Origin.Calls
import PullThrough.Proofs.Store.Reading
import PullThrough.Proofs.Store.Writing
/-
  Resolving a tag, against its specification.

  `Cache.Asks`, `Cache.Fetches` and `Cache.Resolves` say case by case what a resolution comes to,
  over the outcomes of the calls on the origin (`Proofs.Origin.Calls`) and over what the cache holds
  at the start (`Store.held`). Each case names the requests it takes. The main result is that the
  resolution does what exactly one case says (`Cache.resolveManifest_refines`):

  * An outage before the digest of the tag is known is answered from the cache, if it can be, and
    any other failure there is passed on.
  * The cache answers for the origin if it holds the digest that the tag stands for now.
  * Otherwise the manifest is fetched and kept. From then on no failure is answered from the cache.
-/
namespace PullThrough

/-- What a cache holds for a tag. A cache that cannot be read holds nothing. -/
def Store.held (s : Store) (group image tag : String) (d : Disk) :
    Option (ManifestRecord × Bytes) :=
  (s.manifestAt group image tag d).toOption.join

namespace Cache

open Job (ComesTo)

/-- A tag may stand for a digest unless it is another digest. -/
def MayStandFor (tag : String) (digest : Digest) : Prop :=
  ∀ pinned : Digest, tag = pinned.text → pinned = digest

/-- The cache holds just what the origin says that a tag stands for. -/
def IsCurrent (tag : String) (held : Option (ManifestRecord × Bytes)) (current : Option Digest) :
    Prop :=
  ∃ record data, held = some (record, data) ∧ current = some record.digest ∧
    MayStandFor tag record.digest

/-- The type under which a fetched manifest is kept. -/
def typeOf (fetched : FetchedManifest) : String :=
  (fetched.contentType.or (ownType fetched.data)).getD defaultManifestType

section Specification

variable (c : Cache) (group image tag : String) (w : World)

/-- Asking what a tag stands for: a token, and with it the digest. -/
inductive Asks : List OriginRequest → Except Failure (String × Option Digest) → World → Prop
  | noToken {failure : Failure}
      (ht : c.origin.tokenOutcome (w.exchange (c.origin.tokenRequest image)) = .error failure) :
      Asks [c.origin.tokenRequest image] (.error failure) (w.sent (c.origin.tokenRequest image))
  | noHead {token : String} {failure : Failure} {w₁ : World}
      (ht : c.origin.tokenOutcome (w.exchange (c.origin.tokenRequest image)) = .ok token)
      (hw₁ : w₁ = w.sent (c.origin.tokenRequest image))
      (hh : c.origin.headOutcome image tag
        (w₁.exchange (c.origin.manifestRequest .head image tag token)) = .error failure) :
      Asks [c.origin.tokenRequest image, c.origin.manifestRequest .head image tag token]
        (.error failure) (w₁.sent (c.origin.manifestRequest .head image tag token))
  | answered {token : String} {current : Option Digest} {w₁ : World}
      (ht : c.origin.tokenOutcome (w.exchange (c.origin.tokenRequest image)) = .ok token)
      (hw₁ : w₁ = w.sent (c.origin.tokenRequest image))
      (hh : c.origin.headOutcome image tag
        (w₁.exchange (c.origin.manifestRequest .head image tag token)) = .ok current) :
      Asks [c.origin.tokenRequest image, c.origin.manifestRequest .head image tag token]
        (.ok (token, current)) (w₁.sent (c.origin.manifestRequest .head image tag token))

/-- Fetching a manifest. What comes has to have the digest that the tag is, if it is one, and the
digest that came with it or else the one that came before. -/
inductive Fetches (token : String) (current : Option Digest) :
    Except Failure ResolvedManifest → World → Prop
  | failed {failure : Failure}
      (hg : c.origin.manifestOutcome image tag
        (w.exchange (c.origin.manifestRequest .get image tag token)) = .error failure) :
      Fetches token current (.error failure)
        (w.sent (c.origin.manifestRequest .get image tag token))
  | notPinned {fetched : FetchedManifest} {pinned : Digest}
      (hg : c.origin.manifestOutcome image tag
        (w.exchange (c.origin.manifestRequest .get image tag token)) = .ok fetched)
      (ht : tag = pinned.text) (hp : Digest.of fetched.data ≠ pinned) :
      Fetches token current
        (.error (.digestMismatch pinned.text (Digest.of fetched.data).text))
        (w.sent (c.origin.manifestRequest .get image tag token))
  | notClaimed {fetched : FetchedManifest} {claimed : Digest}
      (hg : c.origin.manifestOutcome image tag
        (w.exchange (c.origin.manifestRequest .get image tag token)) = .ok fetched)
      (hp : MayStandFor tag (Digest.of fetched.data))
      (hc : fetched.digest.or current = some claimed) (hd : Digest.of fetched.data ≠ claimed) :
      Fetches token current
        (.error (.digestMismatch claimed.text (Digest.of fetched.data).text))
        (w.sent (c.origin.manifestRequest .get image tag token))
  | kept {fetched : FetchedManifest} {record : ManifestRecord} {w' : World}
      (hg : c.origin.manifestOutcome image tag
        (w.exchange (c.origin.manifestRequest .get image tag token)) = .ok fetched)
      (hp : MayStandFor tag (Digest.of fetched.data))
      (hc : ∀ claimed, fetched.digest.or current = some claimed → Digest.of fetched.data = claimed)
      (hw : (c.store.writeManifest group image tag (Digest.of fetched.data) (typeOf fetched)
        fetched.data).run.run (w.sent (c.origin.manifestRequest .get image tag token)) =
          (.ok record, w'))
      (hr : ∃ created updated, record = ⟨group, image, tag, Digest.of fetched.data,
        typeOf fetched, fetched.data.length, created, updated⟩) :
      Fetches token current (.ok ⟨record, fetched.data, .miss⟩) w'
  | unkept {fetched : FetchedManifest} {fault : CacheFault} {w' : World}
      (hg : c.origin.manifestOutcome image tag
        (w.exchange (c.origin.manifestRequest .get image tag token)) = .ok fetched)
      (hp : MayStandFor tag (Digest.of fetched.data))
      (hc : ∀ claimed, fetched.digest.or current = some claimed → Digest.of fetched.data = claimed)
      (hw : (c.store.writeManifest group image tag (Digest.of fetched.data) (typeOf fetched)
        fetched.data).run.run (w.sent (c.origin.manifestRequest .get image tag token)) =
          (.error (.cache fault), w')) :
      Fetches token current (.error (.cache fault)) w'

/-- Resolving a tag. -/
inductive Resolves : List OriginRequest → Except Failure ResolvedManifest → World → Prop
  | stale {requests : List OriginRequest} {failure : Failure} {record : ManifestRecord}
      {data : Bytes} {w' : World} (ha : c.Asks image tag w requests (.error failure) w')
      (hf : failure.isUnavailable = true)
      (hh : c.store.held group image tag w.disk = some (record, data)) :
      Resolves requests (.ok ⟨record, data, .stale⟩) w'
  | outage {requests : List OriginRequest} {failure : Failure} {w' : World}
      (ha : c.Asks image tag w requests (.error failure) w') (hf : failure.isUnavailable = true)
      (hh : c.store.held group image tag w.disk = none) : Resolves requests (.error failure) w'
  | refused {requests : List OriginRequest} {failure : Failure} {w' : World}
      (ha : c.Asks image tag w requests (.error failure) w') (hf : failure.isUnavailable = false) :
      Resolves requests (.error failure) w'
  | hit {requests : List OriginRequest} {token : String} {current : Option Digest}
      {record : ManifestRecord} {data : Bytes} {w' : World}
      (ha : c.Asks image tag w requests (.ok (token, current)) w')
      (hh : c.store.held group image tag w.disk = some (record, data))
      (hc : current = some record.digest) (hp : MayStandFor tag record.digest) :
      Resolves requests (.ok ⟨record, data, .hit⟩) w'
  | fetched {requests : List OriginRequest} {token : String} {current : Option Digest}
      {answer : Except Failure ResolvedManifest} {w₁ w' : World}
      (ha : c.Asks image tag w requests (.ok (token, current)) w₁)
      (hc : ¬ IsCurrent tag (c.store.held group image tag w.disk) current)
      (hf : c.Fetches group image tag w₁ token current answer w') :
      Resolves (requests ++ [c.origin.manifestRequest .get image tag token]) answer w'

end Specification

variable {c : Cache} {group image tag : String} {w w' : World}

/-! ## Digests in question -/

theorem parse_toOption_eq_some {digest : Digest} :
    (Digest.parse tag).toOption = some digest ↔ tag = digest.text := by
  rw [← Digest.parse_eq_ok_iff]
  cases Digest.parse tag <;> simp [Except.toOption]

theorem mayBe_iff {digest : Digest} : mayBe tag digest = true ↔ MayStandFor tag digest := by
  unfold mayBe MayStandFor
  simp only [← parse_toOption_eq_some]
  cases (Digest.parse tag).toOption <;> simp

theorem falseClaim_pinned {pinned actual : Digest} (h : actual ≠ pinned) (claimed : Option Digest) :
    falseClaim [some pinned, claimed] actual = some pinned := by
  simp [falseClaim, h.symm]

theorem falseClaim_claimed {pinned : Option Digest} {claimed actual : Digest}
    (hp : ∀ d, pinned = some d → d = actual) (h : actual ≠ claimed) :
    falseClaim [pinned, some claimed] actual = some claimed := by
  cases pinned with
  | none => simp [falseClaim, h.symm]
  | some d => simp [falseClaim, hp d rfl, h.symm]

theorem falseClaim_none {pinned claimed : Option Digest} {actual : Digest}
    (hp : ∀ d, pinned = some d → d = actual) (hc : ∀ d, claimed = some d → actual = d) :
    falseClaim [pinned, claimed] actual = none := by
  cases pinned with
  | none =>
    cases claimed with
    | none => rfl
    | some d => simp [falseClaim, hc d rfl]
  | some d =>
    cases claimed with
    | none => simp [falseClaim, hp d rfl]
    | some e => simp [falseClaim, hp d rfl, (hc e rfl).symm]

theorem MayStandFor.parse {digest : Digest} (h : MayStandFor tag digest) :
    ∀ d, (Digest.parse tag).toOption = some d → d = digest :=
  fun d hd => h d (parse_toOption_eq_some.1 hd)

/-! ## Asking what a tag stands for -/

/-- The first half of a resolution. -/
def asking (c : Cache) (image tag : String) : Attempt (Except Failure (String × Option Digest)) :=
  tryCatch
    (do
      let token ← c.origin.requestToken image
      let current ← c.origin.headManifest image tag token
      return .ok (token, current))
    fun failure => return .error failure

theorem Asks.comesTo {requests : List OriginRequest}
    {asked : Except Failure (String × Option Digest)} (h : c.Asks image tag w requests asked w') :
    ComesTo (c.asking image tag).run w (.ok asked) w' := by
  unfold asking
  rw [Attempt.run_tryCatch]
  have htoken := c.origin.requestToken_comesTo image w
  cases h with
  | noToken ht =>
    rw [ht] at htoken
    exact htoken.andThen_error.bind (ComesTo.done _ _)
  | @noHead token failure w₁ ht hw₁ hh =>
    rw [ht, ← hw₁] at htoken
    have hhead := c.origin.headManifest_comesTo image tag token w₁
    rw [hh] at hhead
    refine ComesTo.bind (htoken.andThen hhead.andThen_error) ?_
    exact ComesTo.done _ _
  | @answered token current w₁ ht hw₁ hh =>
    rw [ht, ← hw₁] at htoken
    have hhead := c.origin.headManifest_comesTo image tag token w₁
    rw [hh] at hhead
    refine ComesTo.bind (htoken.andThen (hhead.andThen (ComesTo.pure _ _))) ?_
    exact ComesTo.done _ _

theorem Asks.total (c : Cache) (image tag : String) (w : World) :
    ∃ requests asked w', c.Asks image tag w requests asked w' := by
  cases ht : c.origin.tokenOutcome (w.exchange (c.origin.tokenRequest image)) with
  | error failure => exact ⟨_, _, _, .noToken ht⟩
  | ok token =>
    cases hh : c.origin.headOutcome image tag ((w.sent (c.origin.tokenRequest image)).exchange
        (c.origin.manifestRequest .head image tag token)) with
    | error failure => exact ⟨_, _, _, .noHead ht rfl hh⟩
    | ok current => exact ⟨_, _, _, .answered ht rfl hh⟩

/-- Requests that can be sent, as they are on record afterwards: the last one first. -/
def onRecord (requests : List OriginRequest) : List OriginRequest :=
  (requests.filter OriginRequest.isSendable).reverse

theorem onRecord_append (requests requests' : List OriginRequest) :
    onRecord (requests ++ requests') = onRecord requests' ++ onRecord requests := by
  simp [onRecord]

theorem sent_onRecord (w : World) (r : OriginRequest) :
    (w.sent r).requests = onRecord [r] ++ w.requests := by
  rw [World.sent_requests, onRecord]
  by_cases h : r.isSendable = true
  · simp [h]
  · simp [h]

theorem Asks.disk {requests : List OriginRequest}
    {asked : Except Failure (String × Option Digest)} (h : c.Asks image tag w requests asked w') :
    w'.disk = w.disk := by
  cases h with
  | noToken ht => exact w.sent_disk _
  | noHead ht hw₁ hh => rw [World.sent_disk, hw₁, World.sent_disk]
  | answered ht hw₁ hh => rw [World.sent_disk, hw₁, World.sent_disk]

theorem Asks.requests {requests : List OriginRequest}
    {asked : Except Failure (String × Option Digest)} (h : c.Asks image tag w requests asked w') :
    w'.requests = onRecord requests ++ w.requests := by
  have hpair : ∀ r r' : OriginRequest,
      ((w.sent r).sent r').requests = onRecord [r, r'] ++ w.requests := fun r r' => by
    rw [sent_onRecord, sent_onRecord, ← List.append_assoc, ← onRecord_append]
    rfl
  cases h with
  | noToken ht => exact sent_onRecord _ _
  | noHead ht hw₁ hh => rw [hw₁, hpair]
  | answered ht hw₁ hh => rw [hw₁, hpair]

/-! ## Fetching -/

theorem refreshManifest_run {token : String} {current : Option Digest}
    {answer : Except Failure ResolvedManifest}
    (h : c.Fetches group image tag w token current answer w') :
    (c.refreshManifest group image tag token current).run.run w = (answer, w') := by
  have hget := c.origin.fetchManifest_comesTo image tag token w
  unfold refreshManifest
  rw [Attempt.run_bind, Job.run_bind, hget.run]
  cases h with
  | failed hg => rw [hg]; rfl
  | notPinned hg ht hp =>
    rw [hg]
    dsimp only [Attempt.andThen_ok]
    rw [parse_toOption_eq_some.2 ht, falseClaim_pinned hp]
    rfl
  | notClaimed hg hp hc hd =>
    rw [hg]
    dsimp only [Attempt.andThen_ok]
    rw [hc, falseClaim_claimed hp.parse hd]
    rfl
  | kept hg hp hc hw hr =>
    rw [hg]
    dsimp only [Attempt.andThen_ok]
    rw [falseClaim_none hp.parse hc]
    dsimp only
    rw [Attempt.run_bind, Job.run_bind, ← typeOf, hw]
    rfl
  | unkept hg hp hc hw =>
    rw [hg]
    dsimp only [Attempt.andThen_ok]
    rw [falseClaim_none hp.parse hc]
    dsimp only
    rw [Attempt.run_bind, Job.run_bind, ← typeOf, hw]
    rfl

theorem Fetches.total (c : Cache) {group image tag : String} (hg : Name.isGroup group = true)
    (hi : Name.isImage image = true) (ht : Name.checkTag tag = .ok ()) (w : World) (token : String)
    (current : Option Digest) :
    ∃ answer w', c.Fetches group image tag w token current answer w' := by
  cases hget : c.origin.manifestOutcome image tag
      (w.exchange (c.origin.manifestRequest .get image tag token)) with
  | error failure => exact ⟨_, _, .failed hget⟩
  | ok fetched =>
    by_cases hp : MayStandFor tag (Digest.of fetched.data)
    · by_cases hc : ∀ claimed, fetched.digest.or current = some claimed →
          Digest.of fetched.data = claimed
      · have hw := (c.store.writeManifest_end hg hi ht (Digest.of fetched.data) (typeOf fetched)
          fetched.data (w.sent (c.origin.manifestRequest .get image tag token)))
        generalize hrun : (c.store.writeManifest group image tag (Digest.of fetched.data)
          (typeOf fetched) fetched.data).run.run
            (w.sent (c.origin.manifestRequest .get image tag token)) = out at hw
        obtain ⟨failure | record, w'⟩ := out
        · rcases hw.1 with ⟨-, fault, rfl⟩ | ⟨hne, -⟩
          · exact ⟨_, _, .unkept hget hp hc hrun⟩
          · exact absurd rfl hne
        · exact ⟨_, _, .kept hget hp hc hrun hw.2.1⟩
      · simp only [Classical.not_forall] at hc
        obtain ⟨claimed, hc, hd⟩ := hc
        exact ⟨_, _, .notClaimed hget hp hc hd⟩
    · simp only [MayStandFor, Classical.not_forall] at hp
      obtain ⟨pinned, htag, hd⟩ := hp
      exact ⟨_, _, .notPinned hget htag fun h => hd h.symm⟩

/-! ## Resolving -/

theorem cachedManifest_comesTo (c : Cache) (group image tag : String) (w : World) :
    ComesTo (c.cachedManifest group image tag).run w
      (.ok (c.store.held group image tag w.disk)) w := by
  unfold cachedManifest Store.held
  rw [Attempt.run_tryCatch]
  refine (c.store.readManifest_comesTo group image tag w).bind ?_
  cases c.store.manifestAt group image tag w.disk with
  | error failure => exact ComesTo.done _ _
  | ok held => exact ComesTo.done _ _

/-- What follows the first half of a resolution. -/
def resolving (c : Cache) (group image tag : String) :
    Except Failure (String × Option Digest) → Attempt ResolvedManifest
  | .error failure =>
    if failure.isUnavailable then c.fallback group image tag failure else throw failure
  | .ok (token, current) => do
    match ← c.cachedManifest group image tag, current with
    | some (record, data), some digest =>
      if record.digest = digest ∧ mayBe tag digest then return ⟨record, data, .hit⟩
      else c.refreshManifest group image tag token current
    | _, _ => c.refreshManifest group image tag token current

theorem resolveManifest_eq (c : Cache) (group image tag : String) :
    c.resolveManifest group image tag = c.asking image tag >>= c.resolving group image tag := by
  unfold resolveManifest asking
  congr 1

theorem resolving_run_of_not_isCurrent {token : String} {current : Option Digest}
    (hc : ¬ IsCurrent tag (c.store.held group image tag w.disk) current) :
    (c.resolving group image tag (.ok (token, current))).run.run w =
      (c.refreshManifest group image tag token current).run.run w := by
  unfold resolving
  rw [Attempt.run_bind, Job.run_bind, (c.cachedManifest_comesTo group image tag w).run]
  dsimp only [Attempt.andThen_ok]
  cases hh : c.store.held group image tag w.disk with
  | none => rfl
  | some held =>
    obtain ⟨record, data⟩ := held
    cases current with
    | none => rfl
    | some digest =>
      dsimp only
      rw [if_neg]
      rintro ⟨rfl, hm⟩
      exact hc ⟨record, data, hh, rfl, mayBe_iff.1 hm⟩

theorem Resolves.run {requests : List OriginRequest} {answer : Except Failure ResolvedManifest}
    (h : c.Resolves group image tag w requests answer w') :
    (c.resolveManifest group image tag).run.run w = (answer, w') := by
  rw [resolveManifest_eq, Attempt.run_bind, Job.run_bind]
  have hcached := fun w => (c.cachedManifest_comesTo group image tag w).run
  cases h with
  | stale ha hf hh =>
    rw [ha.comesTo.run]
    dsimp only [Attempt.andThen_ok, resolving]
    rw [if_pos hf, fallback, Attempt.run_bind, Job.run_bind, hcached, ha.disk, hh]
    rfl
  | outage ha hf hh =>
    rw [ha.comesTo.run]
    dsimp only [Attempt.andThen_ok, resolving]
    rw [if_pos hf, fallback, Attempt.run_bind, Job.run_bind, hcached, ha.disk, hh]
    rfl
  | refused ha hf =>
    rw [ha.comesTo.run]
    dsimp only [Attempt.andThen_ok, resolving]
    rw [hf]
    rfl
  | hit ha hh hc hp =>
    rw [ha.comesTo.run, hc]
    dsimp only [Attempt.andThen_ok, resolving]
    rw [Attempt.run_bind, Job.run_bind, hcached, ha.disk, hh]
    dsimp only [Attempt.andThen_ok]
    rw [if_pos ⟨rfl, mayBe_iff.2 hp⟩]
    rfl
  | fetched ha hc hf =>
    rw [ha.comesTo.run]
    rw [← ha.disk] at hc
    dsimp only [Attempt.andThen_ok]
    rw [resolving_run_of_not_isCurrent hc, refreshManifest_run hf]

theorem Resolves.total (c : Cache) {group image tag : String} (hg : Name.isGroup group = true)
    (hi : Name.isImage image = true) (ht : Name.checkTag tag = .ok ()) (w : World) :
    ∃ requests answer w', c.Resolves group image tag w requests answer w' := by
  obtain ⟨requests, asked, w₁, ha⟩ := Asks.total c image tag w
  rcases asked with failure | ⟨token, current⟩
  · cases hf : failure.isUnavailable with
    | false => exact ⟨_, _, _, .refused ha hf⟩
    | true =>
      cases hh : c.store.held group image tag w.disk with
      | none => exact ⟨_, _, _, .outage ha hf hh⟩
      | some held => exact ⟨_, _, _, .stale ha hf hh⟩
  · by_cases hc : IsCurrent tag (c.store.held group image tag w.disk) current
    · obtain ⟨record, data, hh, hd, hp⟩ := hc
      exact ⟨_, _, _, .hit ha hh hd hp⟩
    · obtain ⟨answer, w', hf⟩ := Fetches.total c hg hi ht w₁ token current
      exact ⟨_, _, _, .fetched ha hc hf⟩

theorem Fetches.requests {token : String} {current : Option Digest}
    {answer : Except Failure ResolvedManifest}
    (h : c.Fetches group image tag w token current answer w') :
    w'.requests = onRecord [c.origin.manifestRequest .get image tag token] ++ w.requests := by
  have hkept : ∀ {digest contentType data w₁ result w'},
      (c.store.writeManifest group image tag digest contentType data).run.run w₁ = (result, w') →
        w'.requests = w₁.requests := by
    intro digest contentType data w₁ result w' hw
    have hreq := (c.store.writeManifest_isLocal group image tag digest contentType data).requests w₁
    rwa [hw] at hreq
  cases h with
  | failed hg => exact sent_onRecord _ _
  | notPinned hg ht hp => exact sent_onRecord _ _
  | notClaimed hg hp hc hd => exact sent_onRecord _ _
  | kept hg hp hc hw hr => rw [hkept hw, sent_onRecord]
  | unkept hg hp hc hw => rw [hkept hw, sent_onRecord]

theorem Resolves.requests {requests : List OriginRequest}
    {answer : Except Failure ResolvedManifest}
    (h : c.Resolves group image tag w requests answer w') :
    w'.requests = onRecord requests ++ w.requests := by
  cases h with
  | stale ha hf hh => exact ha.requests
  | outage ha hf hh => exact ha.requests
  | refused ha hf => exact ha.requests
  | hit ha hh hc hp => exact ha.requests
  | fetched ha hc hf => rw [hf.requests, ha.requests, onRecord_append, List.append_assoc]

/-- A resolution does what its specification says, and the origin gets the requests of that case in
their order. -/
theorem resolveManifest_refines (c : Cache) {group image tag : String}
    (hg : Name.checkGroup group = .ok ()) (hi : Name.checkImage image = .ok ())
    (ht : Name.checkTag tag = .ok ()) (w : World) (answer : Except Failure ResolvedManifest)
    (w' : World) :
    (c.resolveManifest group image tag).run.run w = (answer, w') ↔
      ∃ requests, c.Resolves group image tag w requests answer w' ∧
        w'.requests = onRecord requests ++ w.requests := by
  constructor
  · intro hrun
    obtain ⟨requests, answer', w'', h⟩ :=
      Resolves.total c (Name.isGroup_of_check hg) (Name.isImage_of_check hi) ht w
    rw [h.run] at hrun
    cases hrun
    exact ⟨requests, h, h.requests⟩
  · rintro ⟨requests, h, -⟩
    exact h.run

/-- A manifest is fetched, is found current, and is served on when the origin is gone. -/
theorem resolveManifest_of_stored :
    let c : Cache := ⟨{ base := [""] }, ⟨"registry", "token", "service", 1, none⟩⟩
    let digest := Digest.of [1]
    let w : World :=
      { disk := ⟨[(Slot.of ["groups"], .folder)]⟩, clock := fun _ => ⟨0, 0⟩
        origin := fun seen r =>
          if 5 ≤ seen.length then .failed
          else if r.url = "token" then
            .reply ⟨.ok, [], [Bytes.ofText "\x7b\"token\":\"t\"\x7d"], .complete⟩
          else
            .reply ⟨.ok, [("docker-content-digest", Bytes.ofText digest.text)], [[1]], .complete⟩ }
    let record : ManifestRecord :=
      ⟨"g", "i", "t", digest, defaultManifestType, 1, ⟨0, 0⟩, ⟨0, 0⟩⟩
    let token := c.origin.tokenRequest "i"
    let head := c.origin.manifestRequest .head "i" "t" "t"
    Name.checkGroup "g" = .ok () ∧ Name.checkImage "i" = .ok () ∧ Name.checkTag "t" = .ok () ∧
      ∃ requests w₁ w₂ w₃,
        (c.resolveManifest "g" "i" "t").run.run w = (.ok ⟨record, [1], .miss⟩, w₁) ∧
          (c.resolveManifest "g" "i" "t").run.run w₁ = (.ok ⟨record, [1], .hit⟩, w₂) ∧
          (c.resolveManifest "g" "i" "t").run.run w₂ = (.ok ⟨record, [1], .stale⟩, w₃) ∧
          c.Resolves "g" "i" "t" w requests (.ok ⟨record, [1], .miss⟩) w₁ ∧
          c.Resolves "g" "i" "t" w₁ [token, head] (.ok ⟨record, [1], .hit⟩) w₂ ∧
          c.Resolves "g" "i" "t" w₂ [token] (.ok ⟨record, [1], .stale⟩) w₃ ∧
          w₁.requests = [c.origin.manifestRequest .get "i" "t" "t", head, token] ∧
          w₃.requests = [token, head, token] ++ w₁.requests := by
  intro c digest w record token head
  obtain ⟨w₁, hw₁, hmiss, hlog, hheld, htoken, hhead, hgone⟩ : ∃ w₁ : World,
      w₁ = ((c.resolveManifest "g" "i" "t").run.run w).2 ∧
        ((c.resolveManifest "g" "i" "t").run.run w).1 = .ok ⟨record, [1], .miss⟩ ∧
        w₁.requests = [c.origin.manifestRequest .get "i" "t" "t", head, token] ∧
        c.store.held "g" "i" "t" w₁.disk = some (record, [1]) ∧
        c.origin.tokenOutcome (w₁.exchange token) = .ok "t" ∧
        c.origin.headOutcome "i" "t" ((w₁.sent token).exchange head) = .ok (some digest) ∧
        c.origin.tokenOutcome (((w₁.sent token).sent head).exchange token) =
          .error (.unavailable (.failed .tokenRequest)) :=
    ⟨_, rfl, by decide +kernel⟩
  have hg : Name.checkGroup "g" = .ok () := rfl
  have hi : Name.checkImage "i" = .ok () := rfl
  have ht : Name.checkTag "t" = .ok () := rfl
  have hrun : (c.resolveManifest "g" "i" "t").run.run w = (.ok ⟨record, [1], .miss⟩, w₁) :=
    Prod.ext hmiss hw₁.symm
  obtain ⟨requests, hfetched, -⟩ := (resolveManifest_refines c hg hi ht _ _ _).1 hrun
  have hnamed : MayStandFor "t" digest := mayBe_iff.1 (by decide +kernel)
  have hcurrent : c.Resolves "g" "i" "t" w₁ [token, head] (.ok ⟨record, [1], .hit⟩)
      ((w₁.sent token).sent head) :=
    .hit (.answered htoken rfl hhead) hheld rfl hnamed
  have hserved : c.Resolves "g" "i" "t" ((w₁.sent token).sent head) [token]
      (.ok ⟨record, [1], .stale⟩) (((w₁.sent token).sent head).sent token) :=
    .stale (.noToken hgone) rfl (by rw [World.sent_disk, World.sent_disk, hheld])
  refine ⟨hg, hi, ht, requests, w₁, _, _, hrun,
    (resolveManifest_refines c hg hi ht _ _ _).2 ⟨_, hcurrent, hcurrent.requests⟩,
    (resolveManifest_refines c hg hi ht _ _ _).2 ⟨_, hserved, hserved.requests⟩,
    hfetched, hcurrent, hserved, hlog, ?_⟩
  rw [hserved.requests, hcurrent.requests, ← List.append_assoc, ← onRecord_append]
  rfl

end Cache

end PullThrough
