import PullThrough.Origin.Client
import PullThrough.Store.Manifests
/-!
Resolving tags: the origin says what a tag stands for, the cache answers if it has just that, and
what the origin sends is kept. While the origin is out of service the last known manifest answers.
-/
namespace PullThrough

/-- A manifest and where it came from. -/
structure ResolvedManifest where
  record : ManifestRecord
  data : Bytes
  source : CacheSource
  deriving DecidableEq

/-- A cache in front of an origin. -/
structure Cache where
  store : Store
  origin : OriginClient

namespace Cache

/-- The content type of a manifest that nobody named one for. -/
def defaultManifestType : String := "application/vnd.docker.distribution.manifest.v2+json"

/-- The type that a manifest names itself. -/
def ownType (data : Bytes) : Option String :=
  (Json.parseWhole? data).bind fun
    | .object members =>
      -- Of members with one name the last counts.
      (members.reverse.lookup (Bytes.ofText "mediaType")).bind Json.text?
    | _ => none

/-- The cached manifest of a tag. A cache that cannot be read has none. -/
def cachedManifest (c : Cache) (group image tag : String) :
    Attempt (Option (ManifestRecord × Bytes)) :=
  tryCatch (c.store.readManifest group image tag) fun _ => return none

/-- The answer while the origin is out of service. -/
def fallback (c : Cache) (group image tag : String) (cause : Failure) :
    Attempt ResolvedManifest := do
  match ← c.cachedManifest group image tag with
  | some (record, data) => return ⟨record, data, .stale⟩
  | none => throw cause

/-- The first of the digests claimed for some content that is not its digest. -/
def falseClaim (claims : List (Option Digest)) (actual : Digest) : Option Digest :=
  (claims.filterMap id).find? (· ≠ actual)

/-- Fetches a manifest and keeps it. A tag that is a digest pins the content. Otherwise the digest
that comes with the manifest counts, or else the one that came before it. -/
def refreshManifest (c : Cache) (group image tag token : String) (current : Option Digest) :
    Attempt ResolvedManifest := do
  let fetched ← c.origin.fetchManifest image tag token
  let actual := Digest.of fetched.data
  let requested := (Digest.parse tag).toOption
  if let some claimed := falseClaim [requested, fetched.digest.or current] actual then
    throw (.digestMismatch claimed.text actual.text)
  let contentType :=
    (fetched.contentType.or (ownType fetched.data)).getD defaultManifestType
  let record ← c.store.writeManifest group image tag actual contentType fetched.data
  return ⟨record, fetched.data, .miss⟩

/-- Whether a tag may stand for a digest: a tag that is a digest stands for itself only. -/
def mayBe (tag : String) (digest : Digest) : Bool :=
  ((Digest.parse tag).toOption).all (· == digest)

/-- The manifest of a tag. -/
def resolveManifest (c : Cache) (group image tag : String) : Attempt ResolvedManifest := do
  let asked : Except Failure (String × Option Digest) ← tryCatch
    (do
      let token ← c.origin.requestToken image
      let current ← c.origin.headManifest image tag token
      return .ok (token, current))
    fun failure => return .error failure
  match asked with
  | .error failure =>
    if failure.isUnavailable then c.fallback group image tag failure else throw failure
  | .ok (token, current) =>
    match ← c.cachedManifest group image tag, current with
    | some (record, data), some digest =>
      if record.digest = digest ∧ mayBe tag digest then return ⟨record, data, .hit⟩
      else c.refreshManifest group image tag token current
    | _, _ => c.refreshManifest group image tag token current

end Cache

end PullThrough
