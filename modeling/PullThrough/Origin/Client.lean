import PullThrough.Config.Basic
import PullThrough.Job.Basic
import PullThrough.Json.Reader
import PullThrough.Name
/-!
Asking the origin registry: for a token, for what a tag stands for, for a manifest, for a
blob. Every reply is sorted into what it means for the cache: an outage, a denial,
nothing there, or an answer.
-/
namespace PullThrough

/-- How the origin is asked. The time limit is in seconds. -/
structure OriginClient where
  registryUrl : String
  tokenUrl : String
  service : String
  timeout : Nat
  login : Option OriginLogin
  deriving DecidableEq, Repr

/-- A manifest as the origin sent it. -/
structure FetchedManifest where
  digest : Option Digest
  contentType : Option String
  data : Bytes
  deriving DecidableEq

namespace OriginClient

open Attempt (ask)

def ofConfig (c : OriginConfig) : OriginClient :=
  ⟨Config.trimmedUrl c.registryUrl, c.tokenUrl, c.service, c.timeout, c.login⟩

/-- The manifest formats that the proxy passes on. -/
def manifestFormats : String :=
  "application/vnd.docker.distribution.manifest.list.v2+json, " ++
    "application/vnd.oci.image.index.v1+json, " ++
    "application/vnd.docker.distribution.manifest.v2+json, " ++
    "application/vnd.oci.image.manifest.v1+json"

def manifestUrl (c : OriginClient) (image tag : String) : String :=
  c.registryUrl ++ "/v2/" ++ Name.repository image ++ "/manifests/" ++ tag

def blobUrl (c : OriginClient) (image : String) (digest : Digest) : String :=
  c.registryUrl ++ "/v2/" ++ Name.repository image ++ "/blobs/" ++ digest.text

/-! ## What replies mean -/

/-- Statuses under which the origin counts as out of service. -/
def isOutage (s : Status) : Bool := s == .tooManyRequests || s.isServerError

/-- What the status of a registry's reply means. -/
def checkStatus (status : Status) (url : String) : Except Failure Unit :=
  if status.isSuccess then .ok ()
  else if status = .notFound then .error (.notFound url)
  else if status = .unauthorized ∨ status = .forbidden then .error (.denied (.answered url status))
  else if isOutage status then .error (.unavailable (.answered url status))
  else .error (.unexpectedStatus status url)

/-- What the status of a token endpoint's reply means. -/
def checkTokenStatus (status : Status) : Except Failure Unit :=
  if status.isSuccess then .ok ()
  else if isOutage status then .error (.unavailable (.tokenEndpoint status))
  else .error (.denied (.tokenEndpoint status))

/-- The whole body of a reply. -/
def wholeBody (c : OriginClient) (call : Call) (r : Reply) : Except Failure Bytes :=
  match r.ending with
  | .complete => .ok r.chunks.flatten
  | .broken => .error (.unavailable (.failed call))
  | .stalled => .error (.unavailable (.timedOut call c.timeout))

/-- The body of a reply piece by piece, and how it ends if not well. -/
def bodyStream (c : OriginClient) (r : Reply) : List (Except Failure Bytes) :=
  r.chunks.map .ok ++
    match r.ending with
    | .complete => []
    | .broken => [.error (.unavailable (.failed .blobBody))]
    | .stalled => [.error (.unavailable (.stalled c.timeout))]

/-- The digest that a reply claims for its content. One that cannot be read counts as none. -/
def claimedDigest (r : Reply) : Option Digest :=
  (r.header? "docker-content-digest").bind fun s => (Digest.parse s).toOption

/-- The token in the body of a reply. The newer name for it counts only where the older one is
missing. -/
def tokenOf (body : Bytes) : Except Failure String :=
  let text? (j : Json) : Option (Option String) :=
    match j with
    | .null => some none
    | j => j.text?.map some
  let malformed : Except Failure String := .error (.denied .malformedToken)
  match (Json.parse? body).bind (·.fieldsOrItems? ["token", "access_token"]) with
  | some [older, newer] =>
    match (older.map text?).getD (some none), (newer.map text?).getD (some none) with
    | some older, some newer =>
      match older.or newer with
      | some token => if token = "" then .error (.denied .noToken) else .ok token
      | none => .error (.denied .noToken)
    | _, _ => malformed
  | _ => malformed

/-! ## Calls -/

/-- Sends a request and waits for the head of the reply. A credential that no header can carry
cannot be sent at all. -/
def send (c : OriginClient) (call : Call) (r : OriginRequest) : Attempt Reply := do
  if !r.authorization.all (isHeaderValue ∘ Bytes.ofText) then
    throw (.unavailable (.failed call))
  match ← ask (.send r) with
  | .reply reply => return reply
  | .failed => throw (.unavailable (.failed call))
  | .timedOut => throw (.unavailable (.timedOut call c.timeout))

/-- A token for pulling an image. -/
def requestToken (c : OriginClient) (image : String) : Attempt String := do
  let reply ← c.send .tokenRequest {
    method := .get
    url := c.tokenUrl
    parameters := [("service", c.service),
      ("scope", "repository:" ++ Name.repository image ++ ":pull")]
    authorization := c.login.map fun l => basicCredential l.username l.password }
  checkTokenStatus reply.status
  tokenOf (← c.wholeBody .tokenResponse reply)

/-- A request for a manifest. -/
def manifestRequest (c : OriginClient) (method : Method) (image tag token : String) :
    OriginRequest where
  method := method
  url := c.manifestUrl image tag
  authorization := some (bearerCredential token)
  accept := some manifestFormats

/-- What a tag stands for now, if the origin says so. -/
def headManifest (c : OriginClient) (image tag token : String) : Attempt (Option Digest) := do
  let request := c.manifestRequest .head image tag token
  let reply ← c.send .manifestHead request
  checkStatus reply.status request.url
  return claimedDigest reply

def fetchManifest (c : OriginClient) (image tag token : String) : Attempt FetchedManifest := do
  let request := c.manifestRequest .get image tag token
  let reply ← c.send .manifestGet request
  checkStatus reply.status request.url
  let data ← c.wholeBody .manifestBody reply
  return ⟨claimedDigest reply, reply.header? "content-type", data⟩

/-- A blob as it arrives. -/
def fetchBlob (c : OriginClient) (image : String) (digest : Digest) (token : String) :
    Attempt (List (Except Failure Bytes)) := do
  let url := c.blobUrl image digest
  let reply ← c.send .blobGet {
    method := .get
    url := url
    authorization := some (bearerCredential token) }
  checkStatus reply.status url
  return c.bodyStream reply

end OriginClient

end PullThrough
