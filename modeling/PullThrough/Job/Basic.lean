import PullThrough.Disk.Basic
import PullThrough.Failure
import PullThrough.Origin.Message
import PullThrough.Time.Instant
/-!
Jobs: computations that ask their surroundings for one thing at a time. A job between two steps is a
value, so that several can run in turns and one can be given up halfway.
-/
namespace PullThrough

/-- One thing to ask for. -/
inductive Step where
  /-- The present time. -/
  | clock
  /-- A number that no other step got. -/
  | serial
  /-- Thirty-two octets that nobody can guess. -/
  | entropy
  /-- Whether connections to an address can be accepted. -/
  | listen (address : String)
  | read (p : Path)
  | find (p : Path)
  | makeFolders (p : Path)
  | create (p : Path)
  | append (p : Path) (data : Bytes)
  | sync (p : Path)
  | rename (source target : Path)
  | remove (p : Path)
  /-- The names in a folder. -/
  | children (p : Path)
  /-- The files below a folder, each with the names on the way to it, and their sizes. -/
  | filesBelow (p : Path)
  | send (r : OriginRequest)

/-- What comes back. -/
def Step.Answer : Step → Type
  | clock => Instant
  | serial => Nat
  | entropy => Bytes
  | listen _ => Bool
  | read _ => Except DiskFault Bytes
  | find _ => Except DiskFault Entry
  | makeFolders _ => Except DiskFault Unit
  | create _ => Except DiskFault Unit
  | append _ _ => Except DiskFault Unit
  | sync _ => Except DiskFault Unit
  | rename _ _ => Except DiskFault Unit
  | remove _ => Except DiskFault Unit
  | children _ => List String
  | filesBelow _ => List (Location × Nat)
  | send _ => Exchange

/-- A job is done or goes on with the answer to a step. -/
inductive Job (α : Type) where
  | done (a : α)
  | step (s : Step) (next : s.Answer → Job α)

namespace Job

def bind : Job α → (α → Job β) → Job β
  | done a, f => f a
  | step s next, f => step s fun x => (next x).bind f

instance : Monad Job where
  pure := done
  bind := bind

@[simp] theorem pure_eq (a : α) : (pure a : Job α) = done a := rfl

@[simp] theorem done_bind (a : α) (f : α → Job β) : (done a >>= f) = f a := rfl

@[simp] theorem step_bind (s : Step) (next : s.Answer → Job α) (f : α → Job β) :
    (step s next >>= f) = step s fun x => next x >>= f := rfl

/-- Asks for one thing. -/
def ask (s : Step) : Job s.Answer := step s done

@[simp] theorem ask_bind (s : Step) (f : s.Answer → Job β) : (ask s >>= f) = step s f := rfl

end Job

/-- A job that can fail. -/
abbrev Attempt (α : Type) := ExceptT Failure Job α

/-- A step inside an attempt. -/
def Attempt.ask (s : Step) : Attempt s.Answer := ExceptT.lift (Job.ask s)

end PullThrough
