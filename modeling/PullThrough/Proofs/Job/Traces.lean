import PullThrough.Proofs.Origin.Calls
/-
  What a run asked for, and what it was told.

  `Job.trace` lists the steps of a run with their answers. `Job.Yields j Q` says that `j` ends as
  `Q` says with the events of its run, whatever its steps are answered: it holds in all worlds at
  once, those with a faulty disk and a lying origin included (`Job.Yields.run`).
-/
namespace PullThrough

/-- A step and its answer. -/
abbrev Event := (s : Step) × s.Answer

/-- Whether a look at the disk failed. That nothing is there is no failure. -/
def lookFailed : Except DiskFault α → Bool
  | .ok _ => false
  | .error e => e != .missing

/-- Whether the disk did not do what it was asked for. -/
def Step.failed : (s : Step) → s.Answer → Bool
  | .read _, r => lookFailed r
  | .find _, r => lookFailed r
  | .makeFolders _, r => !r.isOk
  | .create _, r => !r.isOk
  | .append _ _, r => !r.isOk
  | .sync _, r => !r.isOk
  | .rename _ _, r => !r.isOk
  | .remove _, r => !r.isOk
  | _, _ => false

namespace Event

def isFailure (e : Event) : Bool := e.1.failed e.2

/-- The request of an exchange with the origin, and how the exchange ended. -/
def exchange? : Event → Option (OriginRequest × Exchange)
  | ⟨.send r, x⟩ => some (r, x)
  | _ => none

theorem exchange?_of_isLocal {e : Event} (h : e.1.IsLocal) : e.exchange? = none := by
  obtain ⟨s, x⟩ := e
  cases s with
  | send r => exact h.elim
  | _ => rfl

end Event

namespace Job

/-- The steps of a run with their answers, in their order. -/
def trace : Job α → World → List Event
  | done _, _ => []
  | step s next, w => ⟨s, (w.perform s).1⟩ :: (next (w.perform s).1).trace (w.perform s).2

/-- Whatever the steps are answered, the job ends as `Q` says. -/
def Yields : Job α → (α → List Event → Prop) → Prop
  | done a, Q => Q a []
  | step s next, Q => ∀ x, (next x).Yields fun a t => Q a (⟨s, x⟩ :: t)

variable {j : Job α} {Q Q' : α → List Event → Prop}

@[simp] theorem yields_done {a : α} : (done a).Yields Q ↔ Q a [] := Iff.rfl

theorem Yields.post (h : j.Yields Q) (hQ : ∀ a t, Q a t → Q' a t) : j.Yields Q' := by
  induction j generalizing Q Q' with
  | done a => exact hQ a [] h
  | step s next ih => exact fun x => ih x (h x) fun a t => hQ a _

theorem Yields.and (h : j.Yields Q) (h' : j.Yields Q') : j.Yields fun a t => Q a t ∧ Q' a t := by
  induction j generalizing Q Q' with
  | done a => exact ⟨h, h'⟩
  | step s next ih => exact fun x => ih x (h x) (h' x)

theorem yields_bind {f : α → Job β} {Q : β → List Event → Prop} :
    (j >>= f).Yields Q ↔ j.Yields fun a t => (f a).Yields fun b t' => Q b (t ++ t') := by
  induction j generalizing Q with
  | done a => rfl
  | step s next ih => exact forall_congr' fun x => ih x

theorem Yields.run (h : j.Yields Q) (w : World) : Q (j.run w).1 (j.trace w) := by
  induction j generalizing Q w with
  | done a => exact h
  | step s next ih => exact ih _ (h _) _

/-- The events of a job that asks for steps of one kind are of that kind. -/
theorem Only.yields {P : Step → Prop} (h : j.Only P) : j.Yields fun _ t => ∀ e ∈ t, P e.1 := by
  induction j with
  | done a => exact fun e he => absurd he List.not_mem_nil
  | step s next ih =>
    refine fun x => (ih x (h.2 x)).post fun a t ht e he => ?_
    rcases List.mem_cons.1 he with rfl | he
    · exact h.1
    · exact ht e he

end Job

namespace OriginClient

variable {c : OriginClient} {x : Attempt α} {call : Call} {r : OriginRequest}
  {g : Reply → Except Failure α} {Q : Except Failure α → List Event → Prop}

/-- A call is one exchange, or fails before it. -/
theorem IsCall.yields (h : c.IsCall x call r g)
    (hsent : ∀ y, Q ((c.heard call y).bind g) [⟨.send r, y⟩])
    (hunsent : Q (.error (.unavailable (.failed call))) []) : x.run.Yields Q := by
  rw [h.run_eq]
  split
  · exact hsent
  · exact hunsent

end OriginClient

end PullThrough
