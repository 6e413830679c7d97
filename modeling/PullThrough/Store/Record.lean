import PullThrough.Digest
import PullThrough.Disk.Path
import PullThrough.Json.Printer
import PullThrough.Json.Reader
import PullThrough.Time.Rfc3339
/-!
What the cache knows about what it keeps. Tag records are kept as JSON.
-/
namespace PullThrough

/-- What a tag stood for when it was last fetched. -/
structure ManifestRecord where
  group : String
  image : String
  tag : String
  digest : Digest
  contentType : String
  size : Nat
  createdAt : Instant
  updatedAt : Instant
  deriving DecidableEq

/-- A blob in the cache. -/
structure BlobRecord where
  group : String
  image : String
  digest : Digest
  size : Nat
  path : Path
  deriving DecidableEq

/-- How much the cache holds. -/
structure CacheStats where
  manifests : Nat := 0
  blobs : Nat := 0
  blobOctets : Nat := 0
  deriving DecidableEq, Repr

/-- Where an answer came from. -/
inductive CacheSource where
  | hit
  | miss
  | stale
  deriving DecidableEq, Repr

def CacheSource.text : CacheSource → String
  | hit => "HIT"
  | miss => "MISS"
  | stale => "STALE"

/-- A digest in JSON is its text. -/
def Digest.ofJson? (j : Json) : Option Digest :=
  j.text?.bind fun s => (Digest.parse s).toOption

namespace ManifestRecord

def fieldNames : List String :=
  ["group", "image", "tag", "digest", "content_type", "size", "created_at", "updated_at"]

def toJson (r : ManifestRecord) : Json :=
  .record [("group", .text r.group), ("image", .text r.image), ("tag", .text r.tag),
    ("digest", .text r.digest.text), ("content_type", .text r.contentType), ("size", .nat r.size),
    ("created_at", .text (Rfc3339.text "Z" r.createdAt)),
    ("updated_at", .text (Rfc3339.text "Z" r.updatedAt))]

/-- A size in octets has sixty-four bits. -/
def size? (j : Json) : Option Nat := (j.integer? 0 18446744073709551615).map Int.toNat

def instant? (j : Json) : Option Instant := j.text?.bind Rfc3339.parse?

/-- A record out of an object with all its fields, or out of an array of them. -/
def ofJson? (j : Json) : Option ManifestRecord :=
  match j.fieldsOrItems? fieldNames with
  | some [some group, some image, some tag, some digest, some contentType, some size,
      some createdAt, some updatedAt] => do
    some ⟨← group.text?, ← image.text?, ← tag.text?, ← Digest.ofJson? digest, ← contentType.text?,
      ← size? size, ← instant? createdAt, ← instant? updatedAt⟩
  | _ => none

/-- The content of a record's file. -/
def encode (r : ManifestRecord) : Bytes := r.toJson.pretty

/-- Reads the content of a record's file. -/
def decode? (content : Bytes) : Option ManifestRecord := (Json.parse? content).bind ofJson?

end ManifestRecord

end PullThrough
