import PullThrough.Proofs.Job.Does
/-
  Jobs among others.

  Between two steps of a job others may change the disk. `Job.Amid R G j d Q` says of a job `j` that
  goes on from the disk `d`: as long as what the others do to the disk is allowed by `R`, each step
  of `j` is as `G` says, by the disks before and after it, and `j` ends as `Q` says. If the others
  do nothing, this is a statement about the run of the job alone (`Job.Amid.does`).

  `Job.Sends` says which requests a job may make, and in which order, whatever the answers to its
  steps are.
-/
namespace PullThrough

/-- The request that a step sends. -/
def Step.request? : Step → Option OriginRequest
  | send r => some r
  | _ => none

theorem Step.request?_of_isLocal {s : Step} (h : s.IsLocal) : s.request? = none := by
  cases s with
  | send r => exact h.elim
  | _ => rfl

namespace Job

/-- Each step of a job and its end, whatever others do in between. -/
def Amid (R : Disk → Disk → Prop) (G : Disk → Step → Disk → Prop) :
    Job α → Disk → (α → Disk → Prop) → Prop
  | done a, d, Q => Q a d
  | step s next, d, Q => ∀ w : World, R d w.disk →
      G w.disk s (w.perform s).2.disk ∧ (next (w.perform s).1).Amid R G (w.perform s).2.disk Q

variable {R R' : Disk → Disk → Prop} {G G' : Disk → Step → Disk → Prop} {j : Job α} {d d' : Disk}
  {Q Q' : α → Disk → Prop}

@[simp] theorem amid_done {a : α} : (done a).Amid R G d Q ↔ Q a d := Iff.rfl

theorem amid_bind {f : α → Job β} {Q : β → Disk → Prop} :
    (j >>= f).Amid R G d Q ↔ j.Amid R G d fun a d' => (f a).Amid R G d' Q := by
  induction j generalizing d with
  | done a => rfl
  | step s next ih =>
    refine forall_congr' fun w => imp_congr Iff.rfl (and_congr Iff.rfl ?_)
    exact ih _

theorem Amid.mono (h : j.Amid R G d Q) (hR : ∀ d d', R' d d' → R d d')
    (hG : ∀ d s d', G d s d' → G' d s d') (hQ : ∀ a d', Q a d' → Q' a d') : j.Amid R' G' d Q' := by
  induction j generalizing d with
  | done a => exact hQ a d h
  | step s next ih =>
    intro w hw
    obtain ⟨hs, hnext⟩ := h w (hR _ _ hw)
    exact ⟨hG _ _ _ hs, ih _ hnext⟩

theorem Amid.post (h : j.Amid R G d Q) (hQ : ∀ a d', Q a d' → Q' a d') : j.Amid R G d Q' :=
  h.mono (fun _ _ hd => hd) (fun _ _ _ hs => hs) hQ

/-- What others do while the job waits is one more thing that they do before its next step. -/
theorem Amid.later (h : j.Amid R G d Q) (htrans : ∀ d₁ d₂ d₃, R d₁ d₂ → R d₂ d₃ → R d₁ d₃)
    (hQ : ∀ a, Q a d → Q a d') (hd : R d d') : j.Amid R G d' Q := by
  cases j with
  | done a => exact hQ a h
  | step s next => exact fun w hw => h w (htrans _ _ _ hd hw)

/-- What the others and the job itself keep holds before each step and at the end. -/
theorem Amid.keeps {I : Disk → Prop} (h : j.Amid R G d Q) (hR : ∀ d d', I d → R d d' → I d')
    (hG : ∀ d s d', I d → G d s d' → I d') (hd : I d) :
    j.Amid R (fun d s d' => I d ∧ G d s d') d fun a d' => Q a d' ∧ I d' := by
  induction j generalizing d with
  | done a => exact ⟨h, hd⟩
  | step s next ih =>
    intro w hw
    obtain ⟨hs, hnext⟩ := h w hw
    have hi := hR _ _ hd hw
    exact ⟨⟨hi, hs⟩, ih _ hnext (hG _ _ _ hi hs)⟩

/-- A job that others leave alone. -/
theorem Amid.does {S : Disk → Disk → Prop} {w : World} (h : j.Amid Eq G w.disk Q)
    (hG : ∀ d s d', G d s d' → d' = d ∨ S d d') : j.Does S w fun a w' => Q a w'.disk := by
  induction j generalizing w with
  | done a => exact h
  | step s next ih =>
    obtain ⟨hs, hnext⟩ := h w rfl
    exact ⟨hG _ _ _ hs, ih _ hnext⟩

/-- A run that others leave alone passes through worlds in which a step follows, and its end. -/
theorem Amid.worlds {w w' : World} (h : j.Amid Eq G w.disk Q) (hw' : w' ∈ j.worlds w) :
    (∃ s d', G w'.disk s d') ∨ w' = (j.run w).2 := by
  induction j generalizing w with
  | done a => exact .inr (List.mem_singleton.1 hw')
  | step s next ih =>
    obtain ⟨hs, hnext⟩ := h w rfl
    rcases List.mem_cons.1 hw' with rfl | hw'
    · exact .inl ⟨s, _, hs⟩
    · exact ih _ hnext hw'

/-! ## Single steps -/

/-- A step that leaves the disk alone. -/
theorem amid_step_same {s : Step} {next : s.Answer → Job α}
    (hsame : ∀ w : World, (w.perform s).2.disk = w.disk) (hG : ∀ d', R d d' → G d' s d')
    (h : ∀ x d', R d d' → (next x).Amid R G d' Q) : (step s next).Amid R G d Q := by
  intro w hw
  rw [hsame]
  exact ⟨hG _ hw, h _ _ hw⟩

/-- A look at a path. -/
theorem amid_step_find {p : Path} {next : Except DiskFault Entry → Job α}
    (hG : ∀ d', R d d' → G d' (.find p) d')
    (h : ∀ d', R d d' → (next (d'.find p)).Amid R G d' Q) : (step (.find p) next).Amid R G d Q :=
  fun _ hw => ⟨hG _ hw, h _ hw⟩

theorem amid_step_sync {p : Path} {next : Except DiskFault Unit → Job α}
    (hG : ∀ d', R d d' → G d' (.sync p) d') (h : ∀ x d', R d d' → (next x).Amid R G d' Q) :
    (step (.sync p) next).Amid R G d Q :=
  amid_step_same (fun w => w.sync_disk p) hG h

theorem amid_step_makeFolders {p : Path} {next : Except DiskFault Unit → Job α}
    (hsame : ∀ d', R d d' → G d' (.makeFolders p) d')
    (hG : ∀ d', R d d' → G d' (.makeFolders p) (d'.makeFolders p).2)
    (h : ∀ x d₁ d', R d d₁ → d' = d₁ ∨ d' = (d₁.makeFolders p).2 → (next x).Amid R G d' Q) :
    (step (.makeFolders p) next).Amid R G d Q := by
  intro w hw
  rcases w.makeFolders_disk p with hd | hd
  · exact ⟨by rw [hd]; exact hsame _ hw, h _ _ _ hw (.inl hd)⟩
  · exact ⟨by rw [hd]; exact hG _ hw, h _ _ _ hw (.inr hd)⟩

/-- A step that changes the disk as `op` does, if it works. -/
theorem amid_step_change (op : Disk → Except DiskFault Disk) {s : Step} {next : s.Answer → Job α}
    (answer : Except DiskFault Unit → s.Answer)
    (hs : ∀ w : World, w.perform s =
      (answer (w.write (World.change op)).1, (w.write (World.change op)).2))
    (hsame : ∀ d', R d d' → G d' s d') (hG : ∀ d₁ d', R d d₁ → op d₁ = .ok d' → G d₁ s d')
    (herror : ∀ e d', R d d' → (next (answer (.error e))).Amid R G d' Q)
    (hnext : ∀ d₁ d', R d d₁ → op d₁ = .ok d' → (next (answer (.ok ()))).Amid R G d' Q) :
    (step s next).Amid R G d Q := by
  intro w hw
  rw [hs]
  rcases World.write_change_cases w op with ⟨e, hr, hd⟩ | ⟨hr, hd⟩
  · dsimp only
    rw [hr, hd]
    exact ⟨hsame _ hw, herror e _ hw⟩
  · dsimp only
    rw [hr]
    exact ⟨hG _ _ hw hd, hnext _ _ hw hd⟩

theorem amid_step_create {p : Path} {next : Except DiskFault Unit → Job α}
    (hsame : ∀ d', R d d' → G d' (.create p) d')
    (hG : ∀ d₁ d', R d d₁ → d₁.create p = .ok d' → G d₁ (.create p) d')
    (herror : ∀ e d', R d d' → (next (.error e)).Amid R G d' Q)
    (hnext : ∀ d₁ d', R d d₁ → d₁.create p = .ok d' → (next (.ok ())).Amid R G d' Q) :
    (step (.create p) next).Amid R G d Q :=
  amid_step_change (fun d => d.create p) id (fun _ => rfl) hsame hG herror hnext

theorem amid_step_append {p : Path} {data : Bytes} {next : Except DiskFault Unit → Job α}
    (hsame : ∀ d', R d d' → G d' (.append p data) d')
    (hG : ∀ d₁ d', R d d₁ → d₁.append p data = .ok d' → G d₁ (.append p data) d')
    (herror : ∀ e d', R d d' → (next (.error e)).Amid R G d' Q)
    (hnext : ∀ d₁ d', R d d₁ → d₁.append p data = .ok d' → (next (.ok ())).Amid R G d' Q) :
    (step (.append p data) next).Amid R G d Q :=
  amid_step_change (fun d => d.append p data) id (fun _ => rfl) hsame hG herror hnext

theorem amid_step_rename {p q : Path} {next : Except DiskFault Unit → Job α}
    (hsame : ∀ d', R d d' → G d' (.rename p q) d')
    (hG : ∀ d₁ d', R d d₁ → d₁.rename p q = .ok d' → G d₁ (.rename p q) d')
    (herror : ∀ e d', R d d' → (next (.error e)).Amid R G d' Q)
    (hnext : ∀ d₁ d', R d d₁ → d₁.rename p q = .ok d' → (next (.ok ())).Amid R G d' Q) :
    (step (.rename p q) next).Amid R G d Q :=
  amid_step_change (fun d => d.rename p q) id (fun _ => rfl) hsame hG herror hnext

theorem amid_step_remove {p : Path} {next : Except DiskFault Unit → Job α}
    (hsame : ∀ d', R d d' → G d' (.remove p) d')
    (hG : ∀ d₁ d', R d d₁ → d₁.remove p = .ok d' → G d₁ (.remove p) d')
    (h : ∀ x d₁ d', R d d₁ → d' = d₁ ∨ d₁.remove p = .ok d' → (next x).Amid R G d' Q) :
    (step (.remove p) next).Amid R G d Q := by
  intro w hw
  rcases World.change_cases (fun d => d.remove p) w.disk with ⟨e, -, hd⟩ | ⟨-, hd⟩
  · exact ⟨by rw [show (w.perform (.remove p)).2.disk = w.disk from hd]; exact hsame _ hw,
      h _ _ _ hw (.inl hd)⟩
  · exact ⟨hG _ _ hw hd, h _ _ _ hw (.inr hd)⟩

/-! ## Requests -/

/-- The job sends at most the requests that the list describes, in its order. What is left of the
list at the end is as `Q` says. -/
def Sends : Job α → List (OriginRequest → Prop) → (α → List (OriginRequest → Prop) → Prop) → Prop
  | done a, plan, Q => Q a plan
  | step s next, plan, Q =>
    match s.request? with
    | none => ∀ x, (next x).Sends plan Q
    | some r => ∃ P rest, plan = P :: rest ∧ P r ∧ ∀ x, (next x).Sends rest Q

variable {plan : List (OriginRequest → Prop)} {T T' : α → List (OriginRequest → Prop) → Prop}

@[simp] theorem sends_done {a : α} : (done a).Sends plan T ↔ T a plan := Iff.rfl

theorem sends_step_of_local {s : Step} {next : s.Answer → Job α} (hs : s.request? = none) :
    (step s next).Sends plan T ↔ ∀ x, (next x).Sends plan T := by
  rw [Sends, hs]

theorem sends_step_of_request {s : Step} {next : s.Answer → Job α} {r : OriginRequest}
    (hs : s.request? = some r) : (step s next).Sends plan T ↔
      ∃ P rest, plan = P :: rest ∧ P r ∧ ∀ x, (next x).Sends rest T := by
  rw [Sends, hs]

theorem Sends.post (h : j.Sends plan T) (hT : ∀ a rest, T a rest → T' a rest) :
    j.Sends plan T' := by
  induction j generalizing plan with
  | done a => exact hT a plan h
  | step s next ih =>
    cases hs : s.request? with
    | none =>
      rw [sends_step_of_local hs] at h ⊢
      exact fun x => ih x (h x)
    | some r =>
      rw [sends_step_of_request hs] at h ⊢
      obtain ⟨P, rest, hplan, hr, hnext⟩ := h
      exact ⟨P, rest, hplan, hr, fun x => ih x (hnext x)⟩

theorem Sends.bind {f : α → Job β} {T : β → List (OriginRequest → Prop) → Prop}
    (h : j.Sends plan fun a rest => (f a).Sends rest T) : (j >>= f).Sends plan T := by
  induction j generalizing plan with
  | done a => exact h
  | step s next ih =>
    rw [step_bind]
    cases hs : s.request? with
    | none =>
      rw [sends_step_of_local hs] at h ⊢
      exact fun x => ih x (h x)
    | some r =>
      rw [sends_step_of_request hs] at h ⊢
      obtain ⟨P, rest, hplan, hr, hnext⟩ := h
      exact ⟨P, rest, hplan, hr, fun x => ih x (hnext x)⟩

end Job

end PullThrough
