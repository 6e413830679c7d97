import PullThrough.Proofs.Job.Traces
/-
  Runs in which the disk does what it is asked for.

  A run is flawless if none of its steps on the disk fails, for whatever reason (`Job.IsFlawless`).
  `Job.Flawlessly j w Q` says that the run of `j` from the world `w` ends as `Q` says if it is
  flawless. Nothing has to be known of the disk for it, since a step that did not fail has done its
  operation: there is one rule for each kind of step, and it says what the disk is then.
-/
namespace PullThrough

namespace World

/-- A write that did not fail has done its operation. -/
theorem write_of_ok {w : World} {op : Disk → Except DiskFault Unit × Disk}
    (h : (w.write op).1.isOk = true) :
    (op w.disk).1 = .ok () ∧ (w.write op).1 = .ok () ∧ (w.write op).2.disk = (op w.disk).2 := by
  rcases write_cases w op with ⟨hr, -⟩ | ⟨hr, hd⟩
  · rw [hr] at h
    cases h
  · rw [hr] at h ⊢
    cases hop : (op w.disk).1 with
    | error e =>
      rw [hop] at h
      cases h
    | ok _ => exact ⟨rfl, rfl, hd⟩

theorem write_change_of_ok {w : World} {op : Disk → Except DiskFault Disk}
    (h : (w.write (change op)).1.isOk = true) :
    (w.write (change op)).1 = .ok () ∧ op w.disk = .ok (w.write (change op)).2.disk := by
  rcases w.write_change_cases op with ⟨e, hr, -⟩ | hok
  · rw [hr] at h
    cases h
  · exact hok

end World

namespace Job

/-- No step of a run on the disk fails. -/
def IsFlawless (j : Job α) (w : World) : Prop := ∀ e ∈ j.trace w, e.isFailure = false

/-- The run ends as `Q` says if it is flawless. -/
def Flawlessly (j : Job α) (w : World) (Q : α → World → Prop) : Prop :=
  j.IsFlawless w → Q (j.run w).1 (j.run w).2

variable {j : Job α} {w w' : World} {Q Q' : α → World → Prop}

theorem isFlawless_step {s : Step} {next : s.Answer → Job α} :
    (step s next).IsFlawless w ↔
      s.failed (w.perform s).1 = false ∧ (next (w.perform s).1).IsFlawless (w.perform s).2 := by
  simp only [IsFlawless, trace, List.mem_cons, forall_eq_or_imp]
  rfl

theorem trace_bind (j : Job α) (f : α → Job β) (w : World) :
    (j >>= f).trace w = j.trace w ++ (f (j.run w).1).trace (j.run w).2 := by
  induction j generalizing w with
  | done a => rfl
  | step s next ih => exact congrArg _ (ih _ _)

theorem isFlawless_bind {f : α → Job β} :
    (j >>= f).IsFlawless w ↔ j.IsFlawless w ∧ (f (j.run w).1).IsFlawless (j.run w).2 := by
  simp only [IsFlawless, trace_bind, List.mem_append, or_imp, forall_and]

@[simp] theorem flawlessly_done {a : α} : (done a).Flawlessly w Q ↔ Q a w := by
  simp [Flawlessly, IsFlawless, trace]

theorem Flawlessly.bind {f : α → Job β} {Q : β → World → Prop}
    (h : j.Flawlessly w fun a w' => (f a).Flawlessly w' Q) : (j >>= f).Flawlessly w Q := by
  intro hs
  rw [isFlawless_bind] at hs
  rw [run_bind]
  exact h hs.1 hs.2

theorem Flawlessly.post (h : j.Flawlessly w Q) (hQ : ∀ a w', Q a w' → Q' a w') :
    j.Flawlessly w Q' :=
  fun hs => hQ _ _ (h hs)

/-! ## Steps -/

/-- A step of any kind. -/
theorem flawlessly_step {s : Step} {next : s.Answer → Job α}
    (h : s.failed (w.perform s).1 = false →
      (next (w.perform s).1).Flawlessly (w.perform s).2 Q) : (step s next).Flawlessly w Q := by
  intro hs
  obtain ⟨hfirst, hrest⟩ := isFlawless_step.1 hs
  exact h hfirst hrest

/-- A step that changes the disk as `op` does. -/
theorem flawlessly_change (op : Disk → Except DiskFault Disk) {s : Step} {next : s.Answer → Job α}
    (answer : Except DiskFault Unit → s.Answer)
    (hs : w.perform s = (answer (w.write (World.change op)).1, (w.write (World.change op)).2))
    (hf : ∀ r, s.failed (answer r) = !r.isOk)
    (h : ∀ w' : World, op w.disk = .ok w'.disk → (next (answer (.ok ()))).Flawlessly w' Q) :
    (step s next).Flawlessly w Q := by
  refine flawlessly_step fun hfine => ?_
  rw [hs, hf, Bool.not_eq_false'] at hfine
  obtain ⟨hr, hop⟩ := World.write_change_of_ok hfine
  rw [hs]
  dsimp only
  rw [hr]
  exact h _ hop

theorem flawlessly_create {p : Path} {next : Except DiskFault Unit → Job α}
    (h : ∀ w' : World, w.disk.create p = .ok w'.disk → (next (.ok ())).Flawlessly w' Q) :
    (step (.create p) next).Flawlessly w Q :=
  flawlessly_change (fun d => d.create p) id rfl (fun _ => rfl) h

theorem flawlessly_append {p : Path} {data : Bytes} {next : Except DiskFault Unit → Job α}
    (h : ∀ w' : World, w.disk.append p data = .ok w'.disk → (next (.ok ())).Flawlessly w' Q) :
    (step (.append p data) next).Flawlessly w Q :=
  flawlessly_change (fun d => d.append p data) id rfl (fun _ => rfl) h

theorem flawlessly_rename {p q : Path} {next : Except DiskFault Unit → Job α}
    (h : ∀ w' : World, w.disk.rename p q = .ok w'.disk → (next (.ok ())).Flawlessly w' Q) :
    (step (.rename p q) next).Flawlessly w Q :=
  flawlessly_change (fun d => d.rename p q) id rfl (fun _ => rfl) h

theorem flawlessly_remove {p : Path} {next : Except DiskFault Unit → Job α}
    (h : ∀ w' : World, w.disk.remove p = .ok w'.disk → (next (.ok ())).Flawlessly w' Q) :
    (step (.remove p) next).Flawlessly w Q := by
  refine flawlessly_step fun hfine => ?_
  rcases World.change_cases (fun d => d.remove p) w.disk with ⟨e, he, -⟩ | ⟨hok, hop⟩
  · rw [show Step.failed (.remove p) (w.perform (.remove p)).1 =
      !Except.isOk (.error e : Except _ Unit)
      from congrArg (fun r => !Except.isOk r) he] at hfine
    cases hfine
  · rw [show (w.perform (.remove p)).1 = .ok () from hok]
    exact h _ hop

theorem flawlessly_sync {p : Path} {next : Except DiskFault Unit → Job α}
    (h : ∀ w' : World, w'.disk = w.disk → (next (.ok ())).Flawlessly w' Q) :
    (step (.sync p) next).Flawlessly w Q := by
  refine flawlessly_step fun hfine => ?_
  obtain ⟨-, hr, hd⟩ := World.write_of_ok ((Bool.not_eq_false' _).mp hfine)
  rw [show (w.perform (.sync p)).1 = .ok () from hr]
  exact h _ hd

theorem flawlessly_makeFolders {p : Path} {next : Except DiskFault Unit → Job α}
    (h : ∀ w' : World, (w.disk.makeFolders p).1 = .ok () → w'.disk = (w.disk.makeFolders p).2 →
      (next (.ok ())).Flawlessly w' Q) :
    (step (.makeFolders p) next).Flawlessly w Q := by
  refine flawlessly_step fun hfine => ?_
  obtain ⟨hop, hr, hd⟩ := World.write_of_ok ((Bool.not_eq_false' _).mp hfine)
  rw [show (w.perform (.makeFolders p)).1 = .ok () from hr]
  exact h _ hop hd

end Job

end PullThrough
