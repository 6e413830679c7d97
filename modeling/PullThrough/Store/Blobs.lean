import PullThrough.Store.Record
import PullThrough.Store.Scratch
/-!
Blobs in the cache. A blob is written piece by piece as it arrives and kept only if all of it has
the digest it was asked for by; once kept it is never written again.
-/
namespace PullThrough.Store

open Attempt (ask)

/-- The blob of a digest, if it is a file. -/
def blob (s : Store) (group image : String) (digest : Digest) : Attempt (Option BlobRecord) := do
  let path := s.blobPath group image digest
  match ← ask (.find path) with
  | .ok (.file content) => return some ⟨group, image, digest, content.length, path⟩
  | .ok .folder => return none
  | .error .missing => return none
  | .error _ => throw (.cache (.statBlob path.text))

/-- Adds the pieces of a stream to a scratch file and gives all that was added. The first failure of
the stream ends it. -/
def writePieces (scratch : Path) (seen : Bytes) : List (Except Failure Bytes) → Attempt Bytes
  | [] => return seen
  | .error failure :: _ => do
    let _ ← ask (.remove scratch)
    throw failure
  | .ok piece :: rest => do
    orDiscard scratch (.cache .writeBlob) (← ask (.append scratch piece))
    writePieces scratch (seen ++ piece) rest

/-- Keeps the blob that a stream carries. -/
def writeBlobStream (s : Store) (group image : String) (digest : Digest)
    (stream : List (Except Failure Bytes)) : Attempt BlobRecord := do
  let path := s.blobPath group image digest
  orFail .blobFolder (← ask (.makeFolders path.parent))
  let scratch ← s.newScratch path
  orFail .blobFile (← ask (.create scratch))
  let data ← writePieces scratch [] stream
  orDiscard scratch (.cache .syncBlob) (← ask (.sync scratch))
  let actual := Digest.of data
  if actual ≠ digest then
    let _ ← ask (.remove scratch)
    throw (.digestMismatch digest.text actual.text)
  if ← isPresent path then
    let _ ← ask (.remove scratch)
  else
    orDiscard scratch (.cache (.rename path.text)) (← ask (.rename scratch path))
  return ⟨group, image, digest, data.length, path⟩

/-- Keeps a blob that is there in one piece. -/
def writeBlob (s : Store) (group image : String) (digest : Digest) (data : Bytes) :
    Attempt BlobRecord :=
  s.writeBlobStream group image digest [.ok data]

end PullThrough.Store
