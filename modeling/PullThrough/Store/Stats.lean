import PullThrough.Store.Record
import PullThrough.Store.Scratch
/-!
Making a cache ready, and counting what it holds: records by the ending of their names, and blobs as
all files that are no scratch files.
-/
namespace PullThrough.Store

open Attempt (ask)

/-- Makes the folders of a cache. -/
def prepare (s : Store) : Attempt Unit := do
  orFail .cacheFolder (← ask (.makeFolders s.groupsFolder))

/-- The ending of a file's name. -/
def endingOf (names : Location) : Option String :=
  (names.getLast?.bind fun name => Path.suffix? name.toList).map String.ofList

/-- The counts with the records among some files. -/
def countRecords (stats : CacheStats) (files : List (Location × Nat)) : CacheStats :=
  { stats with
    manifests := stats.manifests + files.countP fun f => endingOf f.1 == some "json" }

/-- The octets in some files. -/
def octetsOf : List (Location × Nat) → Nat
  | [] => 0
  | f :: rest => f.2 + octetsOf rest

/-- The counts with the blobs among some files. -/
def countBlobs (stats : CacheStats) (files : List (Location × Nat)) : CacheStats :=
  let blobs := files.filter fun f => endingOf f.1 != some "tmp"
  { stats with
    blobs := stats.blobs + blobs.length
    blobOctets := stats.blobOctets + octetsOf blobs }

/-- The counts over some groups, added to earlier ones. -/
def countGroups (s : Store) (stats : CacheStats) : List String → Attempt CacheStats
  | [] => return stats
  | group :: rest => do
    let folder := s.groupsFolder ++ [group]
    let stats := countRecords stats (← ask (.filesBelow (folder ++ ["manifests"])))
    let stats := countBlobs stats (← ask (.filesBelow (folder ++ ["blobs"])))
    countGroups s stats rest

/-- How much the cache holds. -/
def stats (s : Store) : Attempt CacheStats := do
  s.countGroups {} (← ask (.children s.groupsFolder))

end PullThrough.Store
