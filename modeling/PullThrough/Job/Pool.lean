import PullThrough.Job.World
/-!
Jobs that take turns in one world. A job that is given up between two steps takes back the files
that it made and has not yet moved to where they belong.
-/
namespace PullThrough

/-- A job under way, and the files that it holds: those it made and neither moved nor removed. -/
structure Running (α : Type) where
  job : Job α
  held : List Path := []

namespace Running

/-- The files that a job holds after a step. -/
def heldAfter (held : List Path) : (s : Step) → s.Answer → List Path
  | .create p, Except.ok _ => p :: held
  | .rename source _, Except.ok _ => held.erase source
  | .remove p, _ => held.erase p
  | _, _ => held

/-- One step further. A job that is done stays as it is. -/
def advance (r : Running α) (w : World) : Running α × World :=
  match r.job with
  | .done _ => (r, w)
  | .step s next =>
    let (x, w) := w.perform s
    (⟨next x, heldAfter r.held s x⟩, w)

/-- The world after a job was given up. -/
def abandon (r : Running α) (w : World) : World :=
  r.held.foldl (fun w p => (w.perform (.remove p)).2) w

end Running

/-- A place in a pool: a job under way or done, or one that was given up. -/
inductive Member (α : Type) where
  | running (r : Running α)
  | gone

/-- Jobs in one world. -/
structure Pool (α : Type) where
  world : World
  members : List (Member α)

/-- Whose turn it is, and whether to go on or to give up. -/
inductive Turn where
  | advance (i : Nat)
  | abandon (i : Nat)
  deriving DecidableEq, Repr

namespace Pool

/-- The pool of some jobs, none of them begun. -/
def start (w : World) (jobs : List (Job α)) : Pool α := ⟨w, jobs.map fun job => .running ⟨job, []⟩⟩

/-- One turn. A turn of nobody changes nothing. -/
def take (p : Pool α) : Turn → Pool α
  | .advance i =>
    match p.members[i]? with
    | some (.running r) =>
      let (r, w) := r.advance p.world
      ⟨w, p.members.set i (.running r)⟩
    | _ => p
  | .abandon i =>
    match p.members[i]? with
    | some (.running r) => ⟨r.abandon p.world, p.members.set i .gone⟩
    | _ => p

/-- The pool after some turns. -/
def run (p : Pool α) (turns : List Turn) : Pool α := turns.foldl take p

/-- What a job came to, if it is done. -/
def outcome? (p : Pool α) (i : Nat) : Option α :=
  match p.members[i]? with
  | some (.running ⟨.done a, _⟩) => some a
  | _ => none

end Pool

end PullThrough
