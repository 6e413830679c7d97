import PullThrough.Job.Basic
import PullThrough.Store.Layout
/-!
Writing files so that readers see them whole or not at all: into a scratch file beside the target,
which takes the target's place at the end. An attempt that fails leaves no scratch file.
-/
namespace PullThrough.Store

open Attempt (ask)

/-- Goes on after a step that worked, and fails with a fault of the cache after one that did not. -/
def orFail (fault : CacheFault) (r : Except DiskFault α) : Attempt α :=
  match r with
  | .ok a => return a
  | .error _ => throw (.cache fault)

/-- Goes on after a step that worked. After one that did not, the scratch file is removed first. -/
def orDiscard (scratch : Path) (failure : Failure) (r : Except DiskFault α) : Attempt α :=
  match r with
  | .ok a => return a
  | .error _ => do
    let _ ← ask (.remove scratch)
    throw failure

/-- A scratch file beside a target that no other job uses. -/
def newScratch (s : Store) (target : Path) : Attempt Path := do
  let n ← ask .serial
  return scratchBeside target (s.scratchLabel n)

/-- Puts data at a path, whole. -/
def writeWhole (s : Store) (target : Path) (data : Bytes) : Attempt Unit := do
  orFail (.create target.parent.text) (← ask (.makeFolders target.parent))
  let scratch ← s.newScratch target
  orFail (.create (scratchPattern target)) (← ask (.create scratch))
  orDiscard scratch (.cache (.write target.text)) (← ask (.append scratch data))
  orDiscard scratch (.cache (.sync target.text)) (← ask (.sync scratch))
  orDiscard scratch (.cache (.rename target.text)) (← ask (.rename scratch target))

/-- Whether there is anything at a path, as far as one can tell. -/
def isPresent (p : Path) : Attempt Bool := do
  return (← ask (.find p)).toOption.isSome

end PullThrough.Store
