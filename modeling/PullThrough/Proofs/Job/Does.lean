import PullThrough.Job.World
/-
  Runs of jobs, step by step.

  `Job.Does R j w Q` says of the run of `j` from the world `w` that every step of it leaves the
  disk alone or changes it as the relation `R` allows, and that its end satisfies `Q`. One such
  statement about an operation serves all invariants: what `R` keeps holds in every world that
  the run passes through (`Job.Does.worlds`), not only at its end.

  `Job.ComesTo j w a w'` says of a job that leaves the disk alone what it comes to. Most jobs are of
  this kind: all that look at the disk, and all that talk to the origin. `Job.Only P j` says that a
  job asks for steps of one kind only.
-/
namespace PullThrough

/-! ## Attempts as jobs -/

namespace Attempt

@[simp] theorem run_ask_bind (s : Step) (f : s.Answer → Attempt α) :
    (ask s >>= f).run = .step s fun x => (f x).run := rfl

/-- What follows an attempt, by how the attempt ended. -/
def andThen (f : α → Attempt β) : Except Failure α → Job (Except Failure β)
  | .ok a => (f a).run
  | .error e => .done (.error e)

@[simp] theorem andThen_ok (f : α → Attempt β) (a : α) : andThen f (.ok a) = (f a).run := rfl

@[simp] theorem andThen_error (f : α → Attempt β) (e : Failure) :
    andThen f (.error e) = .done (.error e) := rfl

theorem run_bind (x : Attempt α) (f : α → Attempt β) : (x >>= f).run = x.run >>= andThen f := by
  rw [ExceptT.run_bind]
  congr 1
  funext r
  cases r <;> rfl

/-- What an attempt in two parts made, by what they made. -/
theorem run_bind_eq_ok {x : Attempt α} {f : α → Attempt β} {w w' : World} {b : β}
    (h : (x >>= f).run.run w = (.ok b, w')) :
    ∃ a w₁, x.run.run w = (.ok a, w₁) ∧ (f a).run.run w₁ = (.ok b, w') := by
  rw [run_bind, Job.run_bind] at h
  cases hx : x.run.run w with
  | mk r w₁ =>
    rw [hx] at h
    cases r with
    | error e => cases h
    | ok a => exact ⟨a, w₁, rfl, h⟩

theorem run_tryCatch (x : Attempt α) (h : Failure → Attempt α) :
    (tryCatch x h).run = x.run >>= fun
      | .ok a => .done (.ok a)
      | .error e => (h e).run := by
  show (x.run >>= _) = _
  congr 1
  funext r
  cases r <;> rfl

end Attempt

theorem World.write_requests (w : World) (op : Disk → Except DiskFault Unit × Disk) :
    (w.write op).2.requests = w.requests := by
  unfold write
  dsimp only
  split <;> rfl

theorem World.write_readings (w : World) (op : Disk → Except DiskFault Unit × Disk) :
    (w.write op).2.readings = w.readings := by
  unfold write
  dsimp only
  split <;> rfl

theorem World.write_fixed (w : World) (op : Disk → Except DiskFault Unit × Disk) :
    (w.write op).2.origin = w.origin ∧ (w.write op).2.clock = w.clock := by
  unfold write
  dsimp only
  split <;> exact ⟨rfl, rfl⟩

theorem World.perform_fixed (w : World) (s : Step) :
    (w.perform s).2.origin = w.origin ∧ (w.perform s).2.clock = w.clock := by
  cases s with
  | makeFolders p => exact w.write_fixed _
  | create p => exact w.write_fixed _
  | append p data => exact w.write_fixed _
  | sync p => exact w.write_fixed _
  | rename p q => exact w.write_fixed _
  | _ => exact ⟨rfl, rfl⟩

namespace Job

theorem run_step (s : Step) (next : s.Answer → Job α) (w : World) :
    (step s next).run w = (next (w.perform s).1).run (w.perform s).2 := rfl

/-- No job changes how the origin answers, nor what the clock shows. -/
theorem run_fixed (j : Job α) (w : World) :
    (j.run w).2.origin = w.origin ∧ (j.run w).2.clock = w.clock := by
  induction j generalizing w with
  | done a => exact ⟨rfl, rfl⟩
  | step s next ih =>
    rw [run_step]
    have h := w.perform_fixed s
    exact ⟨(ih _ _).1.trans h.1, (ih _ _).2.trans h.2⟩

/-! ## The steps of a run -/

/-- The steps that a run asks for, in their order. -/
def steps : Job α → World → List Step
  | done _, _ => []
  | step s next, w => s :: (next (w.perform s).1).steps (w.perform s).2

/-- The worlds that a run passes through, from its start to its end. -/
def worlds : Job α → World → List World
  | done _, w => [w]
  | step s next, w => w :: (next (w.perform s).1).worlds (w.perform s).2

theorem run_mem_worlds (j : Job α) (w : World) : (j.run w).2 ∈ j.worlds w := by
  induction j generalizing w with
  | done a => exact List.mem_singleton_self w
  | step s next ih => exact List.mem_cons_of_mem _ (ih _ _)

/-- Every step changes the disk as `R` allows or not at all, and the end satisfies `Q`. -/
def Does (R : Disk → Disk → Prop) : Job α → World → (α → World → Prop) → Prop
  | done a, w, Q => Q a w
  | step s next, w, Q =>
    ((w.perform s).2.disk = w.disk ∨ R w.disk (w.perform s).2.disk) ∧
      (next (w.perform s).1).Does R (w.perform s).2 Q

@[simp] theorem does_done {R : Disk → Disk → Prop} {a : α} {w : World} {Q : α → World → Prop} :
    (done a).Does R w Q ↔ Q a w := Iff.rfl

theorem does_bind {R : Disk → Disk → Prop} {j : Job α} {f : α → Job β} {w : World}
    {Q : β → World → Prop} :
    (j >>= f).Does R w Q ↔ j.Does R w fun a w' => (f a).Does R w' Q := by
  induction j generalizing w with
  | done a => rfl
  | step s next ih => exact and_congr Iff.rfl (ih _)

namespace Does

variable {R S : Disk → Disk → Prop} {j : Job α} {w : World} {Q Q' : α → World → Prop}

theorem mono (h : j.Does R w Q) (hR : ∀ d d', R d d' → S d d') (hQ : ∀ a w', Q a w' → Q' a w') :
    j.Does S w Q' := by
  induction j generalizing w with
  | done a => exact hQ a w h
  | step s next ih => exact ⟨h.1.imp_right (hR _ _), ih _ h.2⟩

theorem post (h : j.Does R w Q) (hQ : ∀ a w', Q a w' → Q' a w') : j.Does R w Q' :=
  h.mono (fun _ _ hd => hd) hQ

theorem run (h : j.Does R w Q) : Q (j.run w).1 (j.run w).2 := by
  induction j generalizing w with
  | done a => exact h
  | step s next ih => exact ih _ h.2

/-- What is known of the end of the run may be said of it. -/
theorem atEnd (h : j.Does R w Q) (hQ : Q' (j.run w).1 (j.run w).2) : j.Does R w Q' := by
  induction j generalizing w with
  | done a => exact hQ
  | step s next ih => exact ⟨h.1, ih _ h.2 hQ⟩

/-- What `R` keeps holds in every world of the run, and thus also at its end. -/
theorem keeps {I : Disk → Prop} (h : j.Does R w Q) (hI : ∀ d d', I d → R d d' → I d')
    (hw : I w.disk) : j.Does R w fun a w' => Q a w' ∧ I w'.disk := by
  induction j generalizing w with
  | done a => exact ⟨h, hw⟩
  | step s next ih =>
    refine ⟨h.1, ih _ h.2 ?_⟩
    rcases h.1 with hd | hd
    · rw [hd]; exact hw
    · exact hI _ _ hw hd

theorem worlds {I : Disk → Prop} (h : j.Does R w Q) (hI : ∀ d d', I d → R d d' → I d')
    (hw : I w.disk) : ∀ w' ∈ j.worlds w, I w'.disk := by
  induction j generalizing w with
  | done a =>
    intro w' hw'
    rw [List.mem_singleton.1 hw']
    exact hw
  | step s next ih =>
    intro w' hw'
    rcases List.mem_cons.1 hw' with rfl | hw'
    · exact hw
    · refine ih _ h.2 ?_ w' hw'
      rcases h.1 with hd | hd
      · rw [hd]; exact hw
      · exact hI _ _ hw hd

end Does

/-! ## Jobs that leave the disk alone -/

/-- The job leaves the disk alone and comes to a known end in a known world. -/
def ComesTo (j : Job α) (w : World) (a : α) (w' : World) : Prop :=
  j.Does (fun _ _ => False) w fun b w'' => b = a ∧ w'' = w'

namespace ComesTo

variable {j : Job α} {w w' w'' : World} {a : α}

theorem done (a : α) (w : World) : ComesTo (.done a) w a w := ⟨rfl, rfl⟩

theorem pure (a : α) (w : World) : ComesTo (pure a : Attempt α).run w (.ok a) w := ⟨rfl, rfl⟩

theorem step {s : Step} {next : s.Answer → Job α} (hd : (w.perform s).2.disk = w.disk)
    (h : ComesTo (next (w.perform s).1) (w.perform s).2 a w') : ComesTo (.step s next) w a w' :=
  ⟨.inl hd, h⟩

theorem bind {f : α → Job β} {b : β} (h : ComesTo j w a w') (hf : ComesTo (f a) w' b w'') :
    ComesTo (j >>= f) w b w'' := by
  refine does_bind.2 (h.post ?_)
  rintro _ _ ⟨rfl, rfl⟩
  exact hf

theorem andThen {x : Attempt β} {f : β → Attempt γ} {b : β} {r : Except Failure γ}
    (h : ComesTo x.run w (.ok b) w') (hf : ComesTo (f b).run w' r w'') :
    ComesTo (x >>= f).run w r w'' := by
  rw [Attempt.run_bind]
  exact h.bind hf

theorem andThen_error {x : Attempt β} {f : β → Attempt γ} {e : Failure}
    (h : ComesTo x.run w (.error e) w') : ComesTo (x >>= f).run w (.error e) w' := by
  rw [Attempt.run_bind]
  exact h.bind (done _ _)

theorem run (h : ComesTo j w a w') : j.run w = (a, w') :=
  Prod.ext (Does.run h).1 (Does.run h).2

theorem does {R : Disk → Disk → Prop} {Q : α → World → Prop} (h : ComesTo j w a w') (hQ : Q a w') :
    j.Does R w Q := by
  refine h.mono (fun _ _ hf => hf.elim) ?_
  rintro _ _ ⟨rfl, rfl⟩
  exact hQ

end ComesTo

end Job

/-! ## Ends of runs -/

namespace Job

/-- The run of a job ends as `Q` says. -/
def Ends (j : Job α) (w : World) (Q : α → World → Prop) : Prop := Q (j.run w).1 (j.run w).2

variable {j : Job α} {w : World}

theorem ends_step {s : Step} {next : s.Answer → Job α} {Q : α → World → Prop} :
    (step s next).Ends w Q ↔ (next (w.perform s).1).Ends (w.perform s).2 Q := Iff.rfl

theorem ends_bind {f : α → Job β} {Q : β → World → Prop} :
    (j >>= f).Ends w Q ↔ j.Ends w fun a w' => (f a).Ends w' Q := by
  unfold Ends
  rw [run_bind]

theorem Ends.post {Q Q' : α → World → Prop} (h : j.Ends w Q) (hQ : ∀ a w', Q a w' → Q' a w') :
    j.Ends w Q' := hQ _ _ h

theorem ComesTo.ends {a : α} {w' : World} {Q : α → World → Prop} (h : ComesTo j w a w')
    (hQ : Q a w') : j.Ends w Q := by
  unfold Ends
  rw [h.run]
  exact hQ

end Job

/-! ## Jobs of one kind of step -/

/-- A step that is no request to the origin. -/
def Step.IsLocal : Step → Prop
  | send _ => False
  | _ => True

/-- A step that looks at files or changes them. The numbers of scratch files belong to it. -/
def Step.IsOfFiles : Step → Prop
  | serial => True
  | read _ => True
  | find _ => True
  | makeFolders _ => True
  | create _ => True
  | append _ _ => True
  | sync _ => True
  | rename _ _ => True
  | remove _ => True
  | _ => False

namespace Job

/-- The job asks for steps of one kind only, whatever the answers are. -/
def Only (P : Step → Prop) : Job α → Prop
  | done _ => True
  | step s next => P s ∧ ∀ x, (next x).Only P

theorem only_bind {P : Step → Prop} {j : Job α} {f : α → Job β} (hj : j.Only P)
    (hf : ∀ a, (f a).Only P) : (j >>= f).Only P := by
  induction j with
  | done a => exact hf a
  | step s next ih => exact ⟨hj.1, fun x => ih x (hj.2 x)⟩

theorem Only.andThen {P : Step → Prop} {x : Attempt α} {f : α → Attempt β} (hx : x.run.Only P)
    (hf : ∀ a, (f a).run.Only P) : (x >>= f).run.Only P := by
  rw [Attempt.run_bind]
  refine only_bind hx ?_
  rintro (failure | a)
  · trivial
  · exact hf a

/-- A job that has to do with files only does not ask for the time. -/
theorem Only.readings {j : Job α} (h : j.Only Step.IsOfFiles) (w : World) :
    (j.run w).2.readings = w.readings := by
  induction j generalizing w with
  | done a => rfl
  | step s next ih =>
    refine (ih _ (h.2 _) _).trans ?_
    cases s with
    | clock => exact h.1.elim
    | makeFolders p => exact w.write_readings _
    | create p => exact w.write_readings _
    | append p data => exact w.write_readings _
    | sync p => exact w.write_readings _
    | rename p q => exact w.write_readings _
    | _ => rfl

/-- A job of local steps sends no request. -/
theorem Only.requests {j : Job α} (h : j.Only Step.IsLocal) (w : World) :
    (j.run w).2.requests = w.requests := by
  induction j generalizing w with
  | done a => rfl
  | step s next ih =>
    rw [run_step, ih _ (h.2 _)]
    cases s with
    | send r => exact h.1.elim
    | makeFolders p => exact World.write_requests w _
    | create p => exact World.write_requests w _
    | append p data => exact World.write_requests w _
    | sync p => exact World.write_requests w _
    | rename p q => exact World.write_requests w _
    | _ => rfl

end Job

/-! ## Steps that change the disk -/

namespace World

/-- A write to the disk does its operation or meets trouble. -/
theorem write_cases (w : World) (op : Disk → Except DiskFault Unit × Disk) :
    (w.write op).1 = .error .trouble ∧ (w.write op).2.disk = w.disk ∨
      (w.write op).1 = (op w.disk).1 ∧ (w.write op).2.disk = (op w.disk).2 := by
  unfold write
  dsimp only
  split
  · exact .inl ⟨rfl, rfl⟩
  · exact .inr ⟨rfl, rfl⟩

theorem change_cases (op : Disk → Except DiskFault Disk) (d : Disk) :
    (∃ e, (change op d).1 = .error e ∧ (change op d).2 = d) ∨
      (change op d).1 = .ok () ∧ op d = .ok (change op d).2 := by
  unfold change
  cases h : op d with
  | ok d' => exact .inr ⟨rfl, rfl⟩
  | error e => exact .inl ⟨e, rfl, rfl⟩

/-- A write that changes the disk only if it works. -/
theorem write_change_cases (w : World) (op : Disk → Except DiskFault Disk) :
    (∃ e, (w.write (change op)).1 = .error e ∧ (w.write (change op)).2.disk = w.disk) ∨
      (w.write (change op)).1 = .ok () ∧ op w.disk = .ok (w.write (change op)).2.disk := by
  rcases write_cases w (change op) with ⟨hr, hd⟩ | ⟨hr, hd⟩
  · exact .inl ⟨_, hr, hd⟩
  · rcases change_cases op w.disk with ⟨e, he, hs⟩ | ⟨hok, hs⟩
    · exact .inl ⟨e, hr.trans he, hd.trans hs⟩
    · exact .inr ⟨hr.trans hok, by rw [hd]; exact hs⟩

theorem sync_disk (w : World) (p : Path) : (w.perform (.sync p)).2.disk = w.disk := by
  rcases write_cases w fun d => ((d.read p).map fun _ => (), d) with ⟨-, hd⟩ | ⟨-, hd⟩
  · exact hd
  · exact hd

/-- Folders may be made even if not all of them can be. -/
theorem makeFolders_disk (w : World) (p : Path) : (w.perform (.makeFolders p)).2.disk = w.disk ∨
    (w.perform (.makeFolders p)).2.disk = (w.disk.makeFolders p).2 :=
  (write_cases w fun d => d.makeFolders p).imp And.right And.right

end World

namespace Job

variable {R : Disk → Disk → Prop} {w : World} {Q : α → World → Prop}

/-- A step after which the disk is as before. -/
theorem does_step_same {s : Step} {next : s.Answer → Job α} (hd : (w.perform s).2.disk = w.disk)
    (h : ∀ x w', w'.disk = w.disk → (next x).Does R w' Q) : (step s next).Does R w Q :=
  ⟨.inl hd, h _ _ hd⟩

end Job

end PullThrough
