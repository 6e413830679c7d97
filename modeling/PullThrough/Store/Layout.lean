import PullThrough.Digest
import PullThrough.Disk.Path
/-!
Where the cache keeps what. Below the base folder each group has its folder, and in it tag records
and manifest payloads under `manifests`, and blobs under `blobs`.
-/
namespace PullThrough

/-- A cache: its base folder, and a number that tells its scratch files from those of other
processes. -/
structure Store where
  base : Path
  process : Nat := 1000
  deriving DecidableEq, Repr

namespace Store

def groupsFolder (s : Store) : Path := s.base.join "groups"

def manifestsFolder (s : Store) (group image : String) : Path :=
  ((s.groupsFolder.join group).join "manifests").join image

/-- A tag as part of a file name: its colons are underscores. -/
def tagName (tag : String) : String :=
  String.ofList (tag.toList.map fun c => if c = ':' then '_' else c)

def recordPath (s : Store) (group image tag : String) : Path :=
  ((s.manifestsFolder group image).join "tags").join (tagName tag ++ ".json")

def payloadPath (s : Store) (group image : String) (digest : Digest) : Path :=
  ((s.manifestsFolder group image).join "sha256").join digest.hex

def blobPath (s : Store) (group image : String) (digest : Digest) : Path :=
  ((((s.groupsFolder.join group).join "blobs").join image).join "sha256").join digest.hex

/-- The scratch file beside a target, by a label of its own. -/
def scratchBeside (target : Path) (label : String) : Path :=
  target.parent ++ [target.lastPart ++ "." ++ label ++ ".tmp"]

/-- The label of a scratch file. -/
def scratchLabel (s : Store) (serial : Nat) : String :=
  toString s.process ++ "-" ++ toString serial

/-- The text for the scratch files beside a target in messages. -/
def scratchPattern (target : Path) : String := (scratchBeside target "*").text

end Store

end PullThrough
