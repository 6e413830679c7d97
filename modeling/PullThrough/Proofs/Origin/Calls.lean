import PullThrough.Origin.Client
import PullThrough.Proofs.Job.Amid
/-
  What the calls on the origin come to.

  Each call is one request and a function of how its exchange ends: `OriginClient.tokenOutcome`,
  `headOutcome`, `manifestOutcome` and `blobOutcome`. A request whose credential no header can carry
  stays unsent, and its exchange counts as failed (`World.exchange`, `World.sent`). No call touches
  the disk.
-/
namespace PullThrough

/-- Whether the credential of a request can stand in a header. -/
def OriginRequest.isSendable (r : OriginRequest) : Bool :=
  r.authorization.all (isHeaderValue ∘ Bytes.ofText)

namespace World

/-- How the exchange over a request ends. -/
def exchange (w : World) (r : OriginRequest) : Exchange :=
  if r.isSendable then w.origin w.requests r else .failed

/-- The world after a request was sent, if it can be sent. -/
def sent (w : World) (r : OriginRequest) : World :=
  if r.isSendable then { w with requests := r :: w.requests } else w

@[simp] theorem sent_disk (w : World) (r : OriginRequest) : (w.sent r).disk = w.disk := by
  unfold sent
  split <;> rfl

@[simp] theorem sent_clock (w : World) (r : OriginRequest) : (w.sent r).clock = w.clock := by
  unfold sent
  split <;> rfl

/-- The requests of a row that can be sent are on record, the last one first. -/
theorem sent_requests (w : World) (r : OriginRequest) :
    (w.sent r).requests = [r].filter OriginRequest.isSendable ++ w.requests := by
  unfold sent
  split
  · next h => rw [List.filter_cons_of_pos h]; rfl
  · next h => rw [List.filter_cons_of_neg h]; rfl

end World

namespace OriginClient

open Job (ComesTo)

variable (c : OriginClient) {image tag token : String} {w : World}

/-- The reply of an exchange that ended well. -/
def heard (call : Call) : Exchange → Except Failure Reply
  | .reply reply => .ok reply
  | .failed => .error (.unavailable (.failed call))
  | .timedOut => .error (.unavailable (.timedOut call c.timeout))

/-- An attempt is one request, and then a function of the reply. -/
def IsCall (x : Attempt α) (call : Call) (r : OriginRequest)
    (g : Reply → Except Failure α) : Prop :=
  ∃ f : Reply → Attempt α, x = c.send call r >>= f ∧ ∀ reply, (f reply).run = .done (g reply)

variable {c} {x : Attempt α} {call : Call} {r : OriginRequest} {g : Reply → Except Failure α}

/-- A call by its steps: a request that can be sent, and nothing else. -/
theorem IsCall.run_eq (h : c.IsCall x call r g) :
    x.run = if r.isSendable then .step (.send r) fun y => .done ((c.heard call y).bind g)
      else .done (.error (.unavailable (.failed call))) := by
  obtain ⟨f, rfl, hf⟩ := h
  unfold send OriginRequest.isSendable
  rw [Attempt.run_bind]
  cases r.authorization.all (isHeaderValue ∘ Bytes.ofText) with
  | false => rfl
  | true =>
    rw [if_pos rfl]
    show Job.step (.send r) _ = _
    congr 1
    funext y
    cases y with
    | failed => rfl
    | timedOut => rfl
    | reply reply => exact hf reply

theorem IsCall.comesTo (h : c.IsCall x call r g) (w : World) :
    ComesTo x.run w ((c.heard call (w.exchange r)).bind g) (w.sent r) := by
  rw [h.run_eq]
  unfold World.exchange World.sent
  split
  · exact ComesTo.step rfl (ComesTo.done _ _)
  · exact ComesTo.done _ _

/-- A call among other jobs leaves the disk to them. -/
theorem IsCall.amid (h : c.IsCall x call r g) {R : Disk → Disk → Prop}
    {G : Disk → Step → Disk → Prop} {d : Disk} {Q : Except Failure α → Disk → Prop}
    (hG : ∀ d', R d d' → G d' (.send r) d') (hrefl : R d d) (hQ : ∀ y d', R d d' → Q y d') :
    x.run.Amid R G d Q := by
  rw [h.run_eq]
  split
  · exact fun w hw => ⟨hG _ hw, hQ _ _ hw⟩
  · exact hQ _ _ hrefl

/-- A call that gives something has sent its request. What it fails with has to do with the
origin. -/
theorem IsCall.sends (h : c.IsCall x call r g) {P : OriginRequest → Prop} (hP : P r)
    {rest : List (OriginRequest → Prop)} {T : Except Failure α → List (OriginRequest → Prop) → Prop}
    (hsent : ∀ y, T ((c.heard call y).bind g) rest)
    (hunsent : T (.error (.unavailable (.failed call))) (P :: rest)) :
    x.run.Sends (P :: rest) T := by
  rw [h.run_eq]
  split
  · exact ⟨P, rest, rfl, hP, hsent⟩
  · exact hunsent

variable (c)

/-! ## Tokens -/

/-- The request for a token. -/
def tokenRequest (image : String) : OriginRequest where
  method := .get
  url := c.tokenUrl
  parameters := [("service", c.service),
    ("scope", "repository:" ++ Name.repository image ++ ":pull")]
  authorization := c.login.map fun l => basicCredential l.username l.password

/-- What a request for a token comes to. -/
def tokenOutcome (x : Exchange) : Except Failure String :=
  (c.heard .tokenRequest x).bind fun reply => do
    checkTokenStatus reply.status
    tokenOf (← c.wholeBody .tokenResponse reply)

theorem requestToken_isCall (image : String) :
    c.IsCall (c.requestToken image) .tokenRequest (c.tokenRequest image) (fun reply => do
      checkTokenStatus reply.status
      tokenOf (← c.wholeBody .tokenResponse reply)) := by
  refine ⟨_, rfl, fun reply => ?_⟩
  show ExceptT.run (liftM (checkTokenStatus reply.status) >>= _) =
    Job.done (checkTokenStatus reply.status >>= _)
  cases checkTokenStatus reply.status with
  | error e => rfl
  | ok _ =>
    cases c.wholeBody .tokenResponse reply with
    | error e => rfl
    | ok body => rfl

theorem requestToken_comesTo (image : String) (w : World) :
    ComesTo (c.requestToken image).run w (c.tokenOutcome (w.exchange (c.tokenRequest image)))
      (w.sent (c.tokenRequest image)) :=
  (c.requestToken_isCall image).comesTo w

/-! ## Manifests -/

/-- What asking for the digest of a tag comes to. -/
def headOutcome (image tag : String) (x : Exchange) : Except Failure (Option Digest) :=
  (c.heard .manifestHead x).bind fun reply => do
    checkStatus reply.status (c.manifestUrl image tag)
    return claimedDigest reply

theorem headManifest_isCall (image tag token : String) :
    c.IsCall (c.headManifest image tag token) .manifestHead
      (c.manifestRequest .head image tag token) (fun reply => do
        checkStatus reply.status (c.manifestUrl image tag)
        return claimedDigest reply) := by
  refine ⟨_, rfl, fun reply => ?_⟩
  show ExceptT.run (liftM (checkStatus reply.status (c.manifestUrl image tag)) >>= _) =
    Job.done (checkStatus reply.status (c.manifestUrl image tag) >>= _)
  cases checkStatus reply.status (c.manifestUrl image tag) with
  | error e => rfl
  | ok _ => rfl

theorem headManifest_comesTo (image tag token : String) (w : World) :
    ComesTo (c.headManifest image tag token).run w
      (c.headOutcome image tag (w.exchange (c.manifestRequest .head image tag token)))
      (w.sent (c.manifestRequest .head image tag token)) :=
  (c.headManifest_isCall image tag token).comesTo w

/-- What asking for a manifest comes to. -/
def manifestOutcome (image tag : String) (x : Exchange) : Except Failure FetchedManifest :=
  (c.heard .manifestGet x).bind fun reply => do
    checkStatus reply.status (c.manifestUrl image tag)
    let data ← c.wholeBody .manifestBody reply
    return ⟨claimedDigest reply, reply.header? "content-type", data⟩

theorem fetchManifest_isCall (image tag token : String) :
    c.IsCall (c.fetchManifest image tag token) .manifestGet
      (c.manifestRequest .get image tag token) (fun reply => do
        checkStatus reply.status (c.manifestUrl image tag)
        let data ← c.wholeBody .manifestBody reply
        return ⟨claimedDigest reply, reply.header? "content-type", data⟩) := by
  refine ⟨_, rfl, fun reply => ?_⟩
  show ExceptT.run (liftM (checkStatus reply.status (c.manifestUrl image tag)) >>= _) =
    Job.done (checkStatus reply.status (c.manifestUrl image tag) >>= _)
  cases checkStatus reply.status (c.manifestUrl image tag) with
  | error e => rfl
  | ok _ =>
    cases c.wholeBody .manifestBody reply with
    | error e => rfl
    | ok data => rfl

theorem fetchManifest_comesTo (image tag token : String) (w : World) :
    ComesTo (c.fetchManifest image tag token).run w
      (c.manifestOutcome image tag (w.exchange (c.manifestRequest .get image tag token)))
      (w.sent (c.manifestRequest .get image tag token)) :=
  (c.fetchManifest_isCall image tag token).comesTo w

/-! ## Blobs -/

/-- The request for a blob. -/
def blobRequest (image : String) (digest : Digest) (token : String) : OriginRequest where
  method := .get
  url := c.blobUrl image digest
  authorization := some (bearerCredential token)

/-- What asking for a blob comes to. -/
def blobOutcome (image : String) (digest : Digest) (x : Exchange) :
    Except Failure (List (Except Failure Bytes)) :=
  (c.heard .blobGet x).bind fun reply => do
    checkStatus reply.status (c.blobUrl image digest)
    return c.bodyStream reply

theorem fetchBlob_isCall (image : String) (digest : Digest) (token : String) :
    c.IsCall (c.fetchBlob image digest token) .blobGet (c.blobRequest image digest token)
      (fun reply => do
        checkStatus reply.status (c.blobUrl image digest)
        return c.bodyStream reply) := by
  refine ⟨_, rfl, fun reply => ?_⟩
  show ExceptT.run (liftM (checkStatus reply.status (c.blobUrl image digest)) >>= _) =
    Job.done (checkStatus reply.status (c.blobUrl image digest) >>= _)
  cases checkStatus reply.status (c.blobUrl image digest) with
  | error e => rfl
  | ok _ => rfl

theorem fetchBlob_comesTo (image : String) (digest : Digest) (token : String) (w : World) :
    ComesTo (c.fetchBlob image digest token).run w
      (c.blobOutcome image digest (w.exchange (c.blobRequest image digest token)))
      (w.sent (c.blobRequest image digest token)) :=
  (c.fetchBlob_isCall image digest token).comesTo w

end OriginClient

end PullThrough
