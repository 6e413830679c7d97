import PullThrough.Sha256
/-!
Keyed hashing: HMAC with SHA-256.
-/
namespace PullThrough.Hmac

/-- A key as one block: a key longer than a block is hashed first. -/
def blockKey (key : Bytes) : Bytes :=
  let k := if key.length > 64 then Sha256.digest key else key
  k ++ List.replicate (64 - k.length) 0

/-- The authentication code of a message under a key. -/
def sha256 (key message : Bytes) : Bytes :=
  let k := blockKey key
  Sha256.digest (k.map (· ^^^ 0x5c) ++ Sha256.digest (k.map (· ^^^ 0x36) ++ message))

end PullThrough.Hmac
