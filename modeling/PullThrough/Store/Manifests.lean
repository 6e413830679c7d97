import PullThrough.Store.Record
import PullThrough.Store.Scratch
/-!
Manifests in the cache: a payload by its digest, and for each tag a record that names the payload.
What does not hash to the digest in its record is no manifest.
-/
namespace PullThrough.Store

open Attempt (ask)

/-- The content of a file that may be missing. -/
def readIfThere (fault : CacheFault) (p : Path) : Attempt (Option Bytes) := do
  match ← ask (.read p) with
  | .ok content => return some content
  | .error .missing => return none
  | .error _ => throw (.cache fault)

/-- The record and the payload of a tag. A broken record, a missing payload and a damaged one
count as no manifest. -/
def readManifest (s : Store) (group image tag : String) :
    Attempt (Option (ManifestRecord × Bytes)) := do
  let recordPath := s.recordPath group image tag
  let some content ← readIfThere (.readRecord recordPath.text) recordPath | return none
  let some record := ManifestRecord.decode? content | return none
  let payloadPath := s.payloadPath group image record.digest
  let some payload ← readIfThere (.readPayload payloadPath.text) payloadPath | return none
  if Digest.of payload = record.digest then return some (record, payload) else return none

/-- The record at a path, if there is a readable one. -/
def readRecord (p : Path) : Attempt (Option ManifestRecord) := do
  return (← ask (.read p)).toOption.bind ManifestRecord.decode?

/-- Keeps a manifest under a tag. The payload has to have the digest that is claimed for it. A
record that is replaced hands on the time of its creation. -/
def writeManifest (s : Store) (group image tag : String) (digest : Digest) (contentType : String)
    (data : Bytes) : Attempt ManifestRecord := do
  let actual := Digest.of data
  if actual ≠ digest then throw (.digestMismatch digest.text actual.text)
  let payloadPath := s.payloadPath group image digest
  if !(← isPresent payloadPath) then s.writeWhole payloadPath data
  let recordPath := s.recordPath group image tag
  let now ← ask .clock
  let createdAt :=
    match ← readRecord recordPath with
    | some existing => existing.createdAt
    | none => now
  let record : ManifestRecord :=
    ⟨group, image, tag, digest, contentType, data.length, createdAt, now⟩
  s.writeWhole recordPath record.encode
  return record

end PullThrough.Store
