import PullThrough.Http.Message
import PullThrough.Http.Route
import PullThrough.Store.Stats
import PullThrough.Time.Rfc3339
/-!
Answering HTTP requests. A request for the head of a page gets the headers of the page and no body.
-/
namespace PullThrough

/-! ## Responses -/

def Rejection.status : Rejection → Status
  | unauthorized _ _ => .unauthorized
  | badRequest _ _ => .badRequest
  | notFound _ _ => .notFound
  | badGateway _ => .badGateway
  | internal _ => .internalServerError

/-- The document that tells of a rejection. -/
def Rejection.document (r : Rejection) : Json :=
  .record
    [("errors", .array [.record [("code", .text r.code), ("message", .text r.publicMessage)]])]

def Rejection.response (r : Rejection) : HttpResponse :=
  let response := HttpResponse.json r.status r.document
  match r with
  | unauthorized _ challenge => response.withHeader "www-authenticate" challenge.text
  | _ => response

/-- The document that hands out a token. -/
def Token.document (t : Token) : Json :=
  let issuedAt := (Instant.ofSeconds? t.claims.issuedAt.toInt).getD .epoch
  .record [("token", .text t.text), ("access_token", .text t.text),
    ("expires_in", .integer t.expiresIn.toInt),
    ("issued_at", .text (Rfc3339.text "+00:00" issuedAt))]

def CacheStats.document (s : CacheStats) : Json :=
  .record [("manifests", .nat s.manifests), ("blobs", .nat s.blobs),
    ("blob_bytes", .nat s.blobOctets)]

/-- The answer to the question whether this is a registry. -/
def versionResponse : HttpResponse :=
  ⟨.ok, [("content-type", "application/json"), ("docker-distribution-api-version", "registry/2.0")],
    (Json.record []).compact⟩

/-- The head of an answer with content, and the content. -/
def PullResponse.response (r : PullResponse) (body : Bytes) : HttpResponse :=
  (HttpResponse.mk .ok
    [("content-length", toString r.contentLength), ("docker-content-digest", r.digest.text),
      ("x-cache", r.source.text)] body).withHeader "content-type" r.contentType

namespace Gateway

/-! ## Places -/

/-- The answer with its content, which for a file is read now. For a head no file is opened. -/
def sendContent (isHead : Bool) (r : PullResponse) : Job HttpResponse := do
  if isHead then return r.response []
  else
    match r.body with
    | .octets data => return r.response data
    | .file path =>
      match ← Job.ask (.read path) with
      | .ok data => return r.response data
      | .error _ => return (Rejection.internal (.cache (.reported "unreadable file"))).response

def registryPage (g : Gateway) (isHead : Bool) (r : HttpRequest) : Job HttpResponse := do
  match PullRequest.ofPath r.target.path r.authorization with
  | .error rejection => return rejection.response
  | .ok request =>
    match ← g.handle request with
    | .error rejection => return rejection.response
    | .ok response => sendContent isHead response

def versionPage (g : Gateway) (r : HttpRequest) : Job HttpResponse := do
  match ← g.ping r.authorization with
  | .ok _ => return versionResponse
  | .error rejection => return rejection.response

/-- The only value of a parameter of a query. -/
def parameter? (query : Option (List Char)) (name : String) : Except HttpResponse (Option String) :=
  let octets := Bytes.ofText (String.ofList (query.getD []))
  match (Form.pairs octets).filter (·.1 == name) with
  | [] => .ok none
  | [(_, value)] => .ok (some value)
  | _ =>
    .error (.plain .badRequest
      ("Failed to deserialize query string: duplicate field `" ++ name ++ "`"))

/-- The group in a path, with its escapes undone. -/
def groupName (group : List Char) : Except HttpResponse String :=
  match Bytes.text? (Form.unescape (Bytes.ofText (String.ofList group))) with
  | some name => .ok name
  | none => .error (.plain .badRequest "Invalid URL: Invalid UTF-8 in `group`")

/-- Group and scope that a request for a token names. -/
def tokenParameters (group : Option (List Char)) (query : Option (List Char)) :
    Except HttpResponse (Option String × Option String) := do
  let group ← group.mapM groupName
  let scope ← parameter? query "scope"
  return (group, scope)

def tokenPage (g : Gateway) (group : Option (List Char)) (r : HttpRequest) : Job HttpResponse := do
  match tokenParameters group r.target.query with
  | .error response => return response
  | .ok (group, scope) =>
    match ← g.authorize group scope r.authorization with
    | .ok token => return .json .ok token.document
    | .error rejection => return rejection.response

def statsPage (g : Gateway) : Job HttpResponse := do
  match ← g.cache.store.stats.run with
  | .ok stats => return .json .ok stats.document
  | .error failure => return (Rejection.internal failure).response

/-- The page at a place. -/
def page (g : Gateway) (isHead : Bool) (r : HttpRequest) : Route → Job HttpResponse
  | .version => g.versionPage r
  | .registry => g.registryPage isHead r
  | .token group => g.tokenPage group r
  | .stats => g.statsPage
  | .health => return .plain .ok "ok"

/-- Answers a request. -/
def respond (g : Gateway) (r : HttpRequest) : Job HttpResponse := do
  match Route.ofPath? r.target.path with
  | none =>
    let response := HttpResponse.withLength ⟨.notFound, [], []⟩
    return if r.method = "HEAD" then response.headOnly else response
  | some route =>
    if r.method = "GET" then return (← g.page false r route).withLength
    else if r.method = "HEAD" then return (← g.page true r route).withLength.headOnly
    else return HttpResponse.withLength ⟨.methodNotAllowed, [("allow", "GET,HEAD")], []⟩

end Gateway

end PullThrough
