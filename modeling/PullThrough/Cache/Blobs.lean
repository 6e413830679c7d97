import PullThrough.Cache.Manifests
import PullThrough.Store.Blobs
/-!
Resolving blobs: from the cache if it has them, and otherwise by one download.
-/
namespace PullThrough

/-- A blob and where it came from. -/
structure ResolvedBlob where
  record : BlobRecord
  source : CacheSource

namespace Cache

/-- The key under which callers share the download of a blob. -/
def blobKey (group image : String) (digest : Digest) : String :=
  group ++ "/" ++ image ++ "@" ++ digest.text

/-- Downloads a blob, unless an earlier download has just brought it. -/
def downloadBlob (c : Cache) (group image : String) (digest : Digest) : Attempt BlobRecord := do
  match ← c.store.blob group image digest with
  | some record => return record
  | none =>
    let token ← c.origin.requestToken image
    let stream ← c.origin.fetchBlob image digest token
    c.store.writeBlobStream group image digest stream

/-- The blob of a digest, for a caller that has the download to itself. -/
def resolveBlob (c : Cache) (group image : String) (digest : Digest) : Attempt ResolvedBlob := do
  match ← c.store.blob group image digest with
  | some record => return ⟨record, .hit⟩
  | none => return ⟨← c.downloadBlob group image digest, .miss⟩

end Cache

end PullThrough
