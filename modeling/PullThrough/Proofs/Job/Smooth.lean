import PullThrough.Proofs.Disk.Faults
import PullThrough.Proofs.Job.Does
/-
  Runs on a device that works.

  A run is smooth if none of its steps fails by the device (`Job.isSmooth`). `Job.Smoothly j w Q`
  says that the run of `j` from the world `w` ends as `Q` says if it is smooth. It has one rule for
  each kind of step that may fail, and the rule asks that the operation works (`Works`).
-/
namespace PullThrough

/-- Whether the answer to a step is a fault of the device. -/
def Step.failedByDevice : (s : Step) → s.Answer → Bool
  | .read _, r => PullThrough.failedByDevice r
  | .find _, r => PullThrough.failedByDevice r
  | .makeFolders _, r => PullThrough.failedByDevice r
  | .create _, r => PullThrough.failedByDevice r
  | .append _ _, r => PullThrough.failedByDevice r
  | .sync _, r => PullThrough.failedByDevice r
  | .rename _ _, r => PullThrough.failedByDevice r
  | .remove _, r => PullThrough.failedByDevice r
  | _, _ => false

namespace Job

/-- Whether no step of a run fails by the device. -/
def isSmooth : Job α → World → Bool
  | done _, _ => true
  | step s next, w =>
    !s.failedByDevice (w.perform s).1 && (next (w.perform s).1).isSmooth (w.perform s).2

/-- The run ends as `Q` says if it is smooth. -/
def Smoothly (j : Job α) (w : World) (Q : α → World → Prop) : Prop :=
  j.isSmooth w = true → Q (j.run w).1 (j.run w).2

variable {j : Job α} {w w' : World} {Q Q' : α → World → Prop}

@[simp] theorem smoothly_done {a : α} : (done a).Smoothly w Q ↔ Q a w := by
  simp [Smoothly, isSmooth]

theorem isSmooth_bind (j : Job α) (f : α → Job β) (w : World) :
    (j >>= f).isSmooth w = (j.isSmooth w && (f (j.run w).1).isSmooth (j.run w).2) := by
  induction j generalizing w with
  | done a => simp [isSmooth]
  | step s next ih => simp only [step_bind, isSmooth, ih, run_step, Bool.and_assoc]

theorem Smoothly.bind {f : α → Job β} {Q : β → World → Prop}
    (h : j.Smoothly w fun a w' => (f a).Smoothly w' Q) : (j >>= f).Smoothly w Q := by
  intro hs
  rw [isSmooth_bind, Bool.and_eq_true] at hs
  rw [run_bind]
  exact h hs.1 hs.2

theorem Smoothly.post (h : j.Smoothly w Q) (hQ : ∀ a w', Q a w' → Q' a w') : j.Smoothly w Q' :=
  fun hs => hQ _ _ (h hs)

/-- What is known of all runs holds of smooth ones. -/
theorem Smoothly.does {R : Disk → Disk → Prop} (h : j.Smoothly w Q) (hd : j.Does R w Q') :
    j.Smoothly w fun a w' => Q a w' ∧ Q' a w' :=
  fun hs => ⟨h hs, hd.run⟩

/-- A run changes neither how the origin answers nor what the clock shows. -/
theorem Smoothly.fixed (h : j.Smoothly w Q) :
    j.Smoothly w fun a w' => Q a w' ∧ w'.origin = w.origin ∧ w'.clock = w.clock :=
  fun hs => ⟨h hs, j.run_fixed w⟩

theorem ComesTo.smoothly {a : α} (h : ComesTo j w a w') (hQ : Q a w') : j.Smoothly w Q := by
  intro _
  rw [h.run]
  exact hQ

/-! ## Steps -/

/-- A step of any kind. -/
theorem smoothly_step {s : Step} {next : s.Answer → Job α}
    (h : s.failedByDevice (w.perform s).1 = false →
      (next (w.perform s).1).Smoothly (w.perform s).2 Q) : (step s next).Smoothly w Q := by
  intro hs
  rw [isSmooth, Bool.and_eq_true, Bool.not_eq_true'] at hs
  exact h hs.1 hs.2

end Job

namespace World

/-- A write that does not fail by the device does its operation. -/
theorem write_of_smooth {w : World} (op : Disk → Except DiskFault Unit × Disk)
    (h : failedByDevice (w.write op).1 = false) :
    (w.write op).1 = (op w.disk).1 ∧ (w.write op).2.disk = (op w.disk).2 := by
  rcases write_cases w op with ⟨hr, -⟩ | hr
  · rw [hr] at h
    cases h
  · exact hr

/-- A write that changes the disk as `op` does, if it works. -/
theorem write_change_of_smooth {w : World} {op : Disk → Except DiskFault Disk} {P : Disk → Prop}
    (hop : Works (op w.disk) P) (h : failedByDevice (w.write (change op)).1 = false) :
    (w.write (change op)).1 = .ok () ∧ P (w.write (change op)).2.disk := by
  obtain ⟨hr, hd⟩ := write_of_smooth (change op) h
  rcases change_cases op w.disk with ⟨e, he, -⟩ | ⟨hok, hop'⟩
  · rw [hr] at h
    unfold change at h he
    cases ho : op w.disk with
    | ok d => rw [ho] at he; cases he
    | error e =>
      rw [ho] at hop h
      exact absurd (h.symm.trans hop) (by decide)
  · rw [hop'] at hop
    exact ⟨hr.trans hok, by rw [hd]; exact hop⟩

end World

namespace Job

variable {w : World} {Q : α → World → Prop} {P : Disk → Prop}

/-- A step that changes the disk as `op` does. -/
theorem smoothly_change (op : Disk → Except DiskFault Disk) {s : Step} {next : s.Answer → Job α}
    (answer : Except DiskFault Unit → s.Answer)
    (hs : w.perform s = (answer (w.write (World.change op)).1, (w.write (World.change op)).2))
    (hf : ∀ r, s.failedByDevice (answer r) = failedByDevice r) (hop : Works (op w.disk) P)
    (h : ∀ w' : World, P w'.disk → (next (answer (.ok ()))).Smoothly w' Q) :
    (step s next).Smoothly w Q := by
  refine smoothly_step fun hsmooth => ?_
  rw [hs] at hsmooth ⊢
  obtain ⟨hr, hd⟩ := World.write_change_of_smooth hop ((hf _).symm.trans hsmooth)
  dsimp only
  rw [hr]
  exact h _ hd

theorem smoothly_create {p : Path} {next : Except DiskFault Unit → Job α}
    (hop : Works (w.disk.create p) P)
    (h : ∀ w' : World, P w'.disk → (next (.ok ())).Smoothly w' Q) :
    (step (.create p) next).Smoothly w Q :=
  smoothly_change (fun d => d.create p) id rfl (fun _ => rfl) hop h

theorem smoothly_append {p : Path} {data : Bytes} {next : Except DiskFault Unit → Job α}
    (hop : Works (w.disk.append p data) P)
    (h : ∀ w' : World, P w'.disk → (next (.ok ())).Smoothly w' Q) :
    (step (.append p data) next).Smoothly w Q :=
  smoothly_change (fun d => d.append p data) id rfl (fun _ => rfl) hop h

theorem smoothly_rename {p q : Path} {next : Except DiskFault Unit → Job α}
    (hop : Works (w.disk.rename p q) P)
    (h : ∀ w' : World, P w'.disk → (next (.ok ())).Smoothly w' Q) :
    (step (.rename p q) next).Smoothly w Q :=
  smoothly_change (fun d => d.rename p q) id rfl (fun _ => rfl) hop h

theorem smoothly_sync {p : Path} {next : Except DiskFault Unit → Job α}
    (hop : Works (w.disk.read p) fun _ => True)
    (h : ∀ w' : World, w'.disk = w.disk → (next (.ok ())).Smoothly w' Q) :
    (step (.sync p) next).Smoothly w Q := by
  refine smoothly_step fun hs => ?_
  obtain ⟨hr, hd⟩ := World.write_of_smooth (fun d => ((d.read p).map fun _ => (), d)) hs
  have hok : (w.perform (.sync p)).1 = .ok () := by
    cases hread : w.disk.read p with
    | ok content =>
      rw [hread] at hr
      exact hr
    | error e =>
      rw [hread] at hr hop
      rw [show (w.perform (.sync p)).1 = .error e from hr] at hs
      exact absurd (hs.symm.trans hop) (by decide)
  rw [hok]
  exact h _ hd

theorem smoothly_makeFolders {p : Path} {next : Except DiskFault Unit → Job α}
    (hop : Works (w.disk.makeFolders p).1 fun _ => P (w.disk.makeFolders p).2)
    (h : ∀ w' : World, P w'.disk → (next (.ok ())).Smoothly w' Q) :
    (step (.makeFolders p) next).Smoothly w Q := by
  refine smoothly_step fun hs => ?_
  obtain ⟨hr, hd⟩ := World.write_of_smooth (fun d => d.makeFolders p) hs
  rw [show Step.failedByDevice (.makeFolders p) (w.perform (.makeFolders p)).1 =
    failedByDevice (w.disk.makeFolders p).1 from congrArg failedByDevice hr] at hs
  obtain ⟨⟨⟩, hok, hP⟩ := hop.ok hs
  rw [show (w.perform (.makeFolders p)).1 = .ok () from hr.trans hok]
  exact h _ (by rw [show (w.perform (.makeFolders p)).2.disk = _ from hd]; exact hP)

end Job

end PullThrough
