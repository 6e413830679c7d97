import PullThrough.Job.Basic
/-!
The surroundings of jobs: a disk, a clock, a source of secrets, a network and an origin registry.
Clock, secrets, origin and the troubles of the disk are functions of how often they were asked, so
they can be anything, but a run is determined by them.
-/
namespace PullThrough

structure World where
  disk : Disk := {}
  /-- The time at each reading. -/
  clock : Nat → Instant
  readings : Nat := 0
  /-- The next number that was not given out. -/
  serial : Nat := 0
  /-- The octets of each drawing. -/
  entropy : Nat → Bytes := fun _ => []
  drawings : Nat := 0
  /-- The addresses to listen at. -/
  listens : String → Bool := fun _ => true
  /-- What the origin says to a request after those it has seen, the last one first. -/
  origin : List OriginRequest → OriginRequest → Exchange
  requests : List OriginRequest := []
  /-- Which of the writes to the disk fail for no reason of their own. -/
  trouble : Nat → Bool := fun _ => false
  writes : Nat := 0

namespace World

/-- An operation on the disk that may meet trouble. -/
def write (w : World) (op : Disk → Except DiskFault Unit × Disk) : Except DiskFault Unit × World :=
  let w' := { w with writes := w.writes + 1 }
  if w.trouble w.writes then (.error .trouble, w')
  else
    let (r, d) := op w.disk
    (r, { w' with disk := d })

/-- An operation that changes the disk only if it succeeds. -/
def change (op : Disk → Except DiskFault Disk) (d : Disk) : Except DiskFault Unit × Disk :=
  match op d with
  | .ok d' => (.ok (), d')
  | .error e => (.error e, d)

/-- The names in a folder, none if there is no folder. -/
def childrenAt (d : Disk) (p : Path) : List String :=
  match d.find p, d.locate p with
  | .ok .folder, .ok l => d.children l
  | _, _ => []

/-- The files below a folder, none if there is no folder. -/
def filesAt (d : Disk) (p : Path) : List (Location × Nat) :=
  match d.find p, d.locate p with
  | .ok .folder, .ok l => (d.filesBelow l).map fun (names, content) => (names, content.length)
  | _, _ => []

/-- Answers a step. Removing a file meets no trouble of its own. A piece that a file does not take
is reported by the append itself: a device that holds the error of the last piece back until after
the sync, or never tells, is left out. -/
def perform (w : World) : (s : Step) → s.Answer × World
  | .clock => (w.clock w.readings, { w with readings := w.readings + 1 })
  | .serial => (w.serial, { w with serial := w.serial + 1 })
  | .entropy => (w.entropy w.drawings, { w with drawings := w.drawings + 1 })
  | .listen address => (w.listens address, w)
  | .read p => (w.disk.read p, w)
  | .find p => (w.disk.find p, w)
  | .makeFolders p => w.write fun d => d.makeFolders p
  | .create p => w.write (change fun d => d.create p)
  | .append p data => w.write (change fun d => d.append p data)
  | .sync p => w.write fun d => ((d.read p).map fun _ => (), d)
  | .rename source target => w.write (change fun d => d.rename source target)
  | .remove p =>
    let (r, d) := change (fun d => d.remove p) w.disk
    (r, { w with disk := d })
  | .children p => (childrenAt w.disk p, w)
  | .filesBelow p => (filesAt w.disk p, w)
  | .send r => (w.origin w.requests r, { w with requests := r :: w.requests })

end World

/-- Runs a job to its end. -/
def Job.run : Job α → World → α × World
  | done a, w => (a, w)
  | step s next, w =>
    let (x, w) := w.perform s
    (next x).run w

@[simp] theorem Job.run_done (a : α) (w : World) : (Job.done a).run w = (a, w) := rfl

theorem Job.run_bind (j : Job α) (f : α → Job β) (w : World) :
    (j >>= f).run w = (f (j.run w).1).run (j.run w).2 := by
  induction j generalizing w with
  | done a => rfl
  | step s next ih => exact ih _ _

end PullThrough
