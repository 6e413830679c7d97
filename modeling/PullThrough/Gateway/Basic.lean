import PullThrough.Cache.Blobs
import PullThrough.Credentials
import PullThrough.Gateway.Scope
import PullThrough.Token.Signer
/-!
The gateway: every request for an image passes one check of its token before anything is looked up,
and tokens are handed out to those who may have them.
-/
namespace PullThrough

/-- What is asked for. -/
inductive Resource where
  | manifest (tag : String)
  | blob (digest : String)
  deriving DecidableEq, Repr

/-- A request for a part of an image. -/
structure PullRequest where
  group : String
  image : String
  resource : Resource
  authorization : Option String
  deriving DecidableEq, Repr

/-- The content of an answer: octets at hand, or a file. -/
inductive Body where
  | octets (data : Bytes)
  | file (path : Path)
  deriving DecidableEq

structure PullResponse where
  contentType : String
  contentLength : Nat
  digest : Digest
  source : CacheSource
  body : Body
  deriving DecidableEq

structure Gateway where
  signer : Signer
  cache : Cache
  credentials : Credentials
  allowAnonymous : Bool
  externalUrl : String

namespace Gateway

/-- What the proxy calls itself in challenges. -/
def serviceName : String := "dependency_proxy"

def blobType : String := "application/octet-stream"

/-- Blobs are found by their digest alone; a text that is none finds nothing. -/
def digestOf (s : String) : Except Rejection Digest :=
  (Digest.parse s).mapError (.ofName "DIGEST_INVALID")

/-- The challenge that sends a client to the token endpoint, that of a group if one is named. -/
def challenge (g : Gateway) (group : Option String) (scope : Option String) : Challenge :=
  let realm :=
    match group with
    | some group => g.externalUrl ++ "/" ++ group ++ "/authorize"
    | none => g.externalUrl ++ "/authorize"
  .bearer realm serviceName scope none

/-- The token that an authorization header presents. -/
def bearerToken (authorization : Option String) : Option String :=
  (authorization.bind fun h => credentialsOf h.toList "bearer").map String.ofList

/-- The subject of a header whose token grants a scope. -/
def authenticate (g : Gateway) (authorization : Option String) (scope : String) (now : Int64) :
    Except AccessFault String :=
  match bearerToken authorization with
  | none => .error .unauthenticated
  | some token => g.signer.validate token scope now

/-- The rejection of a request for lack of access. It tells the client which scope to ask for. -/
def refuse (g : Gateway) (group scope : String) (fault : AccessFault) : Rejection :=
  let challenge := g.challenge (some group) (some scope)
  .unauthorized fault
    (if fault = .unauthenticated then challenge else challenge.withInvalidToken)

/-- The present time in seconds. -/
def now : Job Int64 := do
  return Int64.ofInt (← Job.ask .clock).seconds

/-- Names are checked first, and then access, before the resource is looked at. -/
def permit (g : Gateway) (r : PullRequest) (now : Int64) : Except Rejection Unit := do
  (Name.checkGroup r.group).mapError (.ofName "NAME_INVALID")
  (Name.checkImage r.image).mapError (.ofName "NAME_INVALID")
  let scope := Name.pullScope r.group r.image
  let _ ← (g.authenticate r.authorization scope now).mapError (g.refuse r.group scope)

/-- The manifest of a tag as an answer. -/
def serveManifest (g : Gateway) (group image tag : String) :
    Job (Except Rejection PullResponse) := do
  match Name.checkTag tag with
  | .error fault => return .error (.ofName "TAG_INVALID" fault)
  | .ok _ =>
    match ← (g.cache.resolveManifest group image tag).run with
    | .error failure => return .error (.ofFailure "MANIFEST_UNKNOWN" failure)
    | .ok found =>
      return .ok ⟨found.record.contentType, found.data.length, found.record.digest, found.source,
        .octets found.data⟩

/-- A blob as an answer. -/
def serveBlob (g : Gateway) (group image digest : String) :
    Job (Except Rejection PullResponse) := do
  match digestOf digest with
  | .error rejection => return .error rejection
  | .ok digest =>
    match ← (g.cache.resolveBlob group image digest).run with
    | .error failure => return .error (.ofFailure "BLOB_UNKNOWN" failure)
    | .ok found =>
      return .ok ⟨blobType, found.record.size, found.record.digest, found.source,
        .file found.record.path⟩

/-- Answers a request. -/
def handle (g : Gateway) (r : PullRequest) : Job (Except Rejection PullResponse) := do
  match g.permit r (← now) with
  | .error rejection => return .error rejection
  | .ok _ =>
    match r.resource with
    | .manifest tag => g.serveManifest r.group r.image tag
    | .blob digest => g.serveBlob r.group r.image digest

/-! ## Handing out tokens -/

/-- A rejection that asks for a user name and a password. -/
def askPassword (fault : AccessFault) : Rejection := .unauthorized fault (.basic serviceName)

/-- User name and password in the payload of the basic scheme. -/
def passwordOf? (encoded : List Char) : Option (String × String) := do
  let decoded ← (Base64.decodePadded? .standard encoded).bind Bytes.text?
  let (username, password) ← Text.cutFirst? ':' decoded.toList
  some (String.ofList username, String.ofList password)

/-- Who asks for a token: anyone if that is allowed, a user with a password, or the owner of a live
token. -/
def subjectOf (g : Gateway) (authorization : Option String) (now : Int64) :
    Except Rejection String :=
  match authorization with
  | none => if g.allowAnonymous then .ok Claims.anonymous else .error (askPassword .unauthenticated)
  | some header =>
    match credentialsOf header.toList "basic" with
    | some encoded =>
      match (passwordOf? encoded).bind fun (u, p) => g.credentials.verify u p with
      | some subject => .ok subject
      | none => .error (askPassword .invalidCredentials)
    | none =>
      match credentialsOf header.toList "bearer" with
      | some token =>
        ((g.signer.decode (String.ofList token) now).map Claims.subject).mapError askPassword
      | none => .error (askPassword .invalidCredentials)

/-- Group and image for which a token is asked. A token endpoint of a group gives
tokens for that group only. -/
def wantedOf (pathGroup scope : Option String) : Except Rejection (String × String) :=
  match scope with
  | none => .error (.badRequest "SCOPE_INVALID" "scope parameter is required")
  | some scope => do
    let (group, image) ← Scope.parse scope
    match pathGroup with
    | some pathGroup =>
      if pathGroup = group then return (group, image)
      else
        .error (.badRequest "SCOPE_INVALID"
          ("scope " ++ scope ++ " is outside group " ++ pathGroup))
    | none => return (group, image)

/-- A token for a scope at a time. -/
def authorizeAt (g : Gateway) (pathGroup scope authorization : Option String) (now : Int64) :
    Except Rejection Token := do
  let (group, image) ← wantedOf pathGroup scope
  let subject ← g.subjectOf authorization now
  return g.signer.issue subject (Name.pullScope group image) now

/-- A token for a scope. -/
def authorize (g : Gateway) (pathGroup scope authorization : Option String) :
    Job (Except Rejection Token) := do
  return g.authorizeAt pathGroup scope authorization (← now)

/-- Whether a header presents a live token, whatever its scope. -/
def checkPing (g : Gateway) (authorization : Option String) (now : Int64) : Except Rejection Unit :=
  let verdict : Except AccessFault Unit :=
    match bearerToken authorization with
    | some token => (g.signer.decode token now).map fun _ => ()
    | none => .error .unauthenticated
  verdict.mapError fun fault => .unauthorized fault (g.challenge none none)

/-- Answers the question whether this is a registry. -/
def ping (g : Gateway) (authorization : Option String) : Job (Except Rejection Unit) := do
  return g.checkPing authorization (← now)

end Gateway

end PullThrough
