import PullThrough.Cache.Blobs
import PullThrough.Job.World
/-!
Sharing downloads. A caller that finds no blob in the cache joins the download of its key, or starts
one if none is listed. The download goes on whatever becomes of its callers; when it is over it is
taken off the list, and then its outcome is published to those who joined it.
-/
namespace PullThrough

/-- How far a download is. Only one under way is listed. -/
inductive FlightStage where
  | flying (download : Job (Except Failure BlobRecord))
  | unlisted (outcome : Except Failure BlobRecord)
  | published (outcome : Except Failure BlobRecord)

/-- A download that callers share, and who joined it. -/
structure Flight where
  key : String
  stage : FlightStage
  passengers : List Nat := []

namespace Flight

def isListed (f : Flight) : Bool :=
  match f.stage with
  | .flying _ => true
  | _ => false

/-- The outcome, once it is published. -/
def published? (f : Flight) : Option (Except Failure BlobRecord) :=
  match f.stage with
  | .published outcome => some outcome
  | _ => none

/-- One step further. -/
def advance (f : Flight) (w : World) : Flight × World :=
  match f.stage with
  | .flying (.step s next) =>
    let (x, w) := w.perform s
    ({ f with stage := .flying (next x) }, w)
  | .flying (.done outcome) => ({ f with stage := .unlisted outcome }, w)
  | .unlisted outcome => ({ f with stage := .published outcome }, w)
  | .published _ => (f, w)

/-- All steps at once. -/
def land (f : Flight) (w : World) : Flight × World :=
  match f.stage with
  | .flying download =>
    let (outcome, w) := download.run w
    ({ f with stage := .published outcome }, w)
  | .unlisted outcome => ({ f with stage := .published outcome }, w)
  | .published _ => (f, w)

end Flight

/-- Who wants a blob: one who looks into the cache, one who found nothing there, one who waits for a
flight by its number, one who has an answer, and one who left. -/
inductive Caller where
  | looking (key : String) (lookup : Job (Except Failure (Option BlobRecord)))
    (download : Job (Except Failure BlobRecord))
  | joining (key : String) (download : Job (Except Failure BlobRecord))
  | waiting (flight : Nat)
  | answered (answer : Except Failure ResolvedBlob)
  | gone

namespace Caller

/-- A caller that has looked. -/
def afterLookup (key : String) (download : Job (Except Failure BlobRecord)) :
    Except Failure (Option BlobRecord) → Caller
  | .ok (some record) => answered (.ok ⟨record, .hit⟩)
  | .ok none => joining key download
  | .error failure => answered (.error failure)

/-- A caller that has the outcome of its flight. -/
def afterFlight (outcome : Except Failure BlobRecord) : Caller :=
  answered (outcome.map fun record => ⟨record, .miss⟩)

def answer? : Caller → Option (Except Failure ResolvedBlob)
  | answered answer => some answer
  | _ => none

end Caller

/-- A caller for a blob of a cache. -/
def Cache.caller (c : Cache) (group image : String) (digest : Digest) : Caller :=
  .looking (blobKey group image digest) (c.store.blob group image digest).run
    (c.downloadBlob group image digest).run

/-- Callers and their flights in one world. Flights are numbered in the order in which they
started. -/
structure Flights where
  world : World
  flights : List Flight := []
  callers : List Caller := []

/-- What can happen next. -/
inductive FlightMove where
  | advance (caller : Nat)
  | fly (flight : Nat)
  | leave (caller : Nat)

namespace Flights

/-- The flight that a caller joins, and the flights after it joined. -/
def join (flights : List Flight) (caller : Nat) (key : String)
    (download : Job (Except Failure BlobRecord)) : Nat × List Flight :=
  match flights.findIdx? fun f => f.isListed && f.key == key with
  | some f =>
    (f, flights.modify f fun flight => { flight with passengers := caller :: flight.passengers })
  | none => (flights.length, flights ++ [⟨key, .flying download, [caller]⟩])

/-- A caller that waits gets the outcome of its flight once it is published. One that is not among
the passengers gets none. -/
def deliver (flights : List Flight) (caller : Nat) : Caller → Caller
  | .waiting f =>
    match flights[f]? with
    | none => .waiting f
    | some flight =>
      match flight.published? with
      | none => .waiting f
      | some outcome =>
        if caller ∈ flight.passengers then .afterFlight outcome
        else .answered (.error (.cache .closedDownload))
  | c => c

/-- One step of a caller. Only a lookup and the start of a flight are more than a look. -/
def advance (s : Flights) (i : Nat) : Caller → Flights
  | .looking key (.step step next) download =>
    let (x, w) := s.world.perform step
    { s with world := w, callers := s.callers.set i (.looking key (next x) download) }
  | .looking key (.done found) download =>
    { s with callers := s.callers.set i (.afterLookup key download found) }
  | .joining key download =>
    let (f, flights) := join s.flights i key download
    { s with flights := flights, callers := s.callers.set i (.waiting f) }
  | c => { s with callers := s.callers.set i (deliver s.flights i c) }

/-- One move. A move of nobody changes nothing. -/
def move (s : Flights) : FlightMove → Flights
  | .advance i =>
    match s.callers[i]? with
    | some c => s.advance i c
    | none => s
  | .fly f =>
    match s.flights[f]? with
    | some flight =>
      let (flight, w) := flight.advance s.world
      { s with world := w, flights := s.flights.set f flight }
    | none => s
  | .leave i => { s with callers := s.callers.set i .gone }

/-- The state after some moves. -/
def run (s : Flights) (moves : List FlightMove) : Flights := moves.foldl move s

/-! ## One order of the moves

All callers look, then all join, then the flights run one after the other, and then all that
wait get their answers. -/

def lookAll : List Caller → World → List Caller × World
  | [], w => ([], w)
  | .looking key lookup download :: rest, w =>
    let (found, w) := lookup.run w
    let (rest, w) := lookAll rest w
    (.afterLookup key download found :: rest, w)
  | c :: rest, w =>
    let (rest, w) := lookAll rest w
    (c :: rest, w)

/-- The first argument is the number of the first caller. -/
def joinAll (i : Nat) : List Caller → List Flight → List Caller × List Flight
  | [], flights => ([], flights)
  | .joining key download :: rest, flights =>
    let (f, flights) := join flights i key download
    let (rest, flights) := joinAll (i + 1) rest flights
    (.waiting f :: rest, flights)
  | c :: rest, flights =>
    let (rest, flights) := joinAll (i + 1) rest flights
    (c :: rest, flights)

def landAll : List Flight → World → List Flight × World
  | [], w => ([], w)
  | f :: rest, w =>
    let (f, w) := f.land w
    let (rest, w) := landAll rest w
    (f :: rest, w)

/-- The state when nothing is left to do. -/
def settle (s : Flights) : Flights :=
  let (callers, w) := lookAll s.callers s.world
  let (callers, flights) := joinAll 0 callers s.flights
  let (flights, w) := landAll flights w
  ⟨w, flights, callers.mapIdx (deliver flights)⟩

end Flights

end PullThrough
