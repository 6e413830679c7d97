import PullThrough.Proofs.Job.Holding
/-
  Jobs that share a disk.

  Jobs in turns may write to the same files, but each has the serial numbers that it has drawn to
  itself, and with them the files that are named by these. A `Sharing` says what holds of the disk
  between any two steps and what a job with some numbers may rely on, whatever jobs with other
  numbers do.

  `Job.Among S j own d Q` says of a job that it keeps to this: as long as the others do, each of its
  steps keeps what holds, spares what others rely on and makes only files that are its own, and the
  job ends as `Q` says. If all jobs of a pool do so then they do in any turns, and with any of them
  given up between any two steps (`Pool.Shares.run`).
-/
namespace PullThrough

/-- How jobs share a disk. -/
structure Sharing where
  /-- The clock that they read. -/
  clock : Nat → Instant
  /-- What holds between any two steps. -/
  Inv : Disk → Prop
  /-- What a job with these numbers relies on when the disk changes. -/
  Spares : List Nat → Disk → Disk → Prop
  /-- The files that a job with these numbers may make. -/
  Mine : List Nat → Path → Prop
  refl : ∀ own d, Spares own d d
  trans : ∀ {own d₁ d₂ d₃}, Spares own d₁ d₂ → Spares own d₂ d₃ → Spares own d₁ d₃
  mine_cons : ∀ {own p} n, Mine own p → Mine (n :: own) p
  /-- Removing a file of one's own does no harm. -/
  remove : ∀ {own p} {w : World}, Mine own p → Inv w.disk →
    Inv (w.perform (.remove p)).2.disk ∧ ∀ other, (∀ n ∈ other, n ∉ own) →
      Spares other w.disk (w.perform (.remove p)).2.disk

/-- The serial numbers of a job after a step. -/
def World.drawn (w : World) (own : List Nat) : Step → List Nat
  | .serial => w.serial :: own
  | _ => own

namespace World

theorem write_serial (w : World) (op : Disk → Except DiskFault Unit × Disk) :
    (w.write op).2.serial = w.serial := by
  unfold write
  dsimp only
  split <;> rfl

theorem serial_le (w : World) (s : Step) : w.serial ≤ (w.perform s).2.serial := by
  cases s with
  | serial => exact Nat.le_succ _
  | makeFolders p => exact Nat.le_of_eq (w.write_serial _).symm
  | create p => exact Nat.le_of_eq (w.write_serial _).symm
  | append p data => exact Nat.le_of_eq (w.write_serial _).symm
  | sync p => exact Nat.le_of_eq (w.write_serial _).symm
  | rename p q => exact Nat.le_of_eq (w.write_serial _).symm
  | _ => exact Nat.le_refl _

/-- A number that is drawn now was not given out before. -/
theorem mem_drawn_iff (w : World) {own : List Nat} {n : Nat} (s : Step) (hn : n < w.serial) :
    n ∈ w.drawn own s ↔ n ∈ own := by
  cases s with
  | serial =>
    refine ⟨fun h => (List.mem_cons.1 h).resolve_left fun he => ?_, List.mem_cons_of_mem _⟩
    rw [he] at hn
    exact Nat.lt_irrefl _ hn
  | _ => exact Iff.rfl

theorem drawn_lt (w : World) {own : List Nat} (s : Step) (h : ∀ n ∈ own, n < w.serial) :
    ∀ n ∈ w.drawn own s, n < (w.perform s).2.serial := by
  intro n hn
  cases s with
  | serial =>
    rcases List.mem_cons.1 hn with rfl | hn
    · exact Nat.lt_succ_self _
    · exact Nat.lt_succ_of_lt (h n hn)
  | _ => exact Nat.lt_of_lt_of_le (h n hn) (w.serial_le _)

end World

/-- A file that is held after a step was held before or has just been made. -/
theorem Running.mem_heldAfter {held : List Path} {s : Step} {x : s.Answer} {path : Path}
    (h : path ∈ heldAfter held s x) : path ∈ held ∨ s = .create path := by
  cases s with
  | create p =>
    cases x with
    | error e => exact .inl h
    | ok _ =>
      rcases List.mem_cons.1 h with rfl | h
      · exact .inr rfl
      · exact .inl h
  | rename p q =>
    cases x with
    | error e => exact .inl h
    | ok _ => exact .inl (List.mem_of_mem_erase h)
  | remove p => exact .inl (List.mem_of_mem_erase h)
  | _ => exact .inl h

/-- A step that keeps to the rules. -/
structure Sharing.Allows (S : Sharing) (own : List Nat) (w : World) (s : Step) : Prop where
  inv : S.Inv (w.perform s).2.disk
  spares : ∀ other, (∀ n ∈ other, n ∉ w.drawn own s) → S.Spares other w.disk (w.perform s).2.disk
  mine : ∀ p, s = .create p → S.Mine own p

/-- Giving up does no harm either. -/
theorem Sharing.abandon (S : Sharing) {own : List Nat} {r : Running α} {w : World}
    (hheld : ∀ path ∈ r.held, S.Mine own path) (hinv : S.Inv w.disk) :
    S.Inv (r.abandon w).disk ∧
      (∀ other, (∀ n ∈ other, n ∉ own) → S.Spares other w.disk (r.abandon w).disk) ∧
      (r.abandon w).clock = w.clock ∧ (r.abandon w).serial = w.serial := by
  obtain ⟨job, held⟩ := r
  unfold Running.abandon
  induction held generalizing w with
  | nil => exact ⟨hinv, fun other _ => S.refl other _, rfl, rfl⟩
  | cons path held ih =>
    obtain ⟨hinv', hspares'⟩ := S.remove (hheld path List.mem_cons_self) hinv
    obtain ⟨hinv'', hspares'', hclock, hserial⟩ :=
      ih hinv' fun q hq => hheld q (List.mem_cons_of_mem _ hq)
    exact ⟨hinv'', fun other ho => S.trans (hspares' other ho) (hspares'' other ho),
      hclock, hserial⟩

namespace Job

/-- The steps of a job and its end, among others that share the disk with it. -/
def Among (S : Sharing) : Job α → List Nat → Disk → (α → List Nat → Disk → Prop) → Prop
  | done a, own, d, Q => Q a own d
  | step s next, own, d, Q => ∀ w : World, w.clock = S.clock → S.Inv w.disk →
      S.Spares own d w.disk →
      S.Allows own w s ∧ (next (w.perform s).1).Among S (w.drawn own s) (w.perform s).2.disk Q

variable {S : Sharing} {j : Job α} {own : List Nat} {d d' : Disk}
  {Q Q' : α → List Nat → Disk → Prop}

theorem among_bind {f : α → Job β} {Q : β → List Nat → Disk → Prop} :
    (j >>= f).Among S own d Q ↔ j.Among S own d fun a own' d' => (f a).Among S own' d' Q := by
  induction j generalizing own d with
  | done a => rfl
  | step s next ih =>
    refine forall_congr' fun w => imp_congr Iff.rfl (imp_congr Iff.rfl (imp_congr Iff.rfl ?_))
    exact and_congr Iff.rfl (ih _)

theorem Among.post (h : j.Among S own d Q) (hQ : ∀ a own' d', Q a own' d' → Q' a own' d') :
    j.Among S own d Q' := by
  induction j generalizing own d with
  | done a => exact hQ _ _ _ h
  | step s next ih =>
    intro w hclock hinv hd
    exact ⟨(h w hclock hinv hd).1, ih _ (h w hclock hinv hd).2⟩

/-- What others do while the job waits is one more thing that they do before its next step. -/
theorem Among.later (h : j.Among S own d Q) (hd : S.Spares own d d')
    (hQ : ∀ a, Q a own d → Q a own d') : j.Among S own d' Q := by
  cases j with
  | done a => exact hQ a h
  | step s next => exact fun w hclock hinv hd' => h w hclock hinv (S.trans hd hd')

/-! ## Single steps -/

/-- A step that leaves the disk alone. -/
theorem among_step_same {s : Step} {next : s.Answer → Job α}
    (hsame : ∀ w : World, (w.perform s).2.disk = w.disk) (hmine : ∀ p, s = .create p → S.Mine own p)
    (h : ∀ w : World, w.clock = S.clock → S.Inv w.disk → S.Spares own d w.disk →
      (next (w.perform s).1).Among S (w.drawn own s) w.disk Q) :
    (step s next).Among S own d Q := by
  intro w hclock hinv hd
  refine ⟨⟨?_, fun other _ => ?_, hmine⟩, ?_⟩
  · rw [hsame]
    exact hinv
  · rw [hsame]
    exact S.refl other _
  · rw [hsame]
    exact h w hclock hinv hd

/-- A step that changes the disk as `op` does, if it works. -/
theorem among_step_change (op : Disk → Except DiskFault Disk) {s : Step} {next : s.Answer → Job α}
    (answer : Except DiskFault Unit → s.Answer)
    (hs : ∀ w : World, w.perform s =
      (answer (w.write (World.change op)).1, (w.write (World.change op)).2))
    (hown : ∀ w : World, w.drawn own s = own) (hmine : ∀ p, s = .create p → S.Mine own p)
    (herror : ∀ e d', S.Spares own d d' → (next (answer (.error e))).Among S own d' Q)
    (hok : ∀ d₁ d', S.Inv d₁ → S.Spares own d d₁ → op d₁ = .ok d' →
      S.Inv d' ∧ (∀ other, (∀ n ∈ other, n ∉ own) → S.Spares other d₁ d') ∧
        (next (answer (.ok ()))).Among S own d' Q) :
    (step s next).Among S own d Q := by
  intro w _ hinv hd
  suffices h : S.Inv (w.perform s).2.disk ∧ (∀ other, (∀ n ∈ other, n ∉ own) →
      S.Spares other w.disk (w.perform s).2.disk) ∧
        (next (w.perform s).1).Among S own (w.perform s).2.disk Q by
    rw [hown w]
    exact ⟨⟨h.1, fun other ho => h.2.1 other (by rwa [hown w] at ho), hmine⟩, h.2.2⟩
  rw [hs]
  rcases w.write_change_cases op with ⟨e, hr, hw⟩ | ⟨hr, hw⟩
  · dsimp only
    rw [hr, hw]
    exact ⟨hinv, fun other _ => S.refl other _, herror e _ hd⟩
  · dsimp only
    rw [hr]
    exact hok _ _ hinv hd hw

end Job

/-! ## Pools -/

/-- The jobs of a pool keep to the rules, and those that are done ended as `Q` says of each. -/
structure Pool.Shares (S : Sharing) (Q : Nat → α → List Nat → Disk → Prop) (own : Nat → List Nat)
    (p : Pool α) : Prop where
  clock : p.world.clock = S.clock
  inv : S.Inv p.world.disk
  apart : ∀ i k, i ≠ k → ∀ n ∈ own i, n ∉ own k
  drawn : ∀ i, ∀ n ∈ own i, n < p.world.serial
  jobs : ∀ i (r : Running α), p.members[i]? = some (.running r) →
    r.job.Among S (own i) p.world.disk (Q i)
  held : ∀ i (r : Running α), p.members[i]? = some (.running r) →
    ∀ path ∈ r.held, S.Mine (own i) path

namespace Pool

variable {S : Sharing} {Q : Nat → α → List Nat → Disk → Prop} {own : Nat → List Nat} {p : Pool α}

/-- What is said of an end stays true as long as the others keep to the rules. -/
def Lasts (S : Sharing) (Q : Nat → α → List Nat → Disk → Prop) : Prop :=
  ∀ i a own d d', S.Spares own d d' → Q i a own d → Q i a own d'

theorem Shares.start {w : World} {jobs : List (Job α)} (hclock : w.clock = S.clock)
    (hinv : S.Inv w.disk) (hjobs : ∀ i (j : Job α), jobs[i]? = some j → j.Among S [] w.disk (Q i)) :
    (Pool.start w jobs).Shares S Q fun _ => [] where
  clock := hclock
  inv := hinv
  apart _ _ _ n hn := absurd hn List.not_mem_nil
  drawn _ n hn := absurd hn List.not_mem_nil
  jobs i r hr := by
    simp only [Pool.start, List.getElem?_map, Option.map_eq_some_iff] at hr
    obtain ⟨j, hj, hr⟩ := hr
    cases hr
    exact hjobs i j hj
  held i r hr := by
    simp only [Pool.start, List.getElem?_map, Option.map_eq_some_iff] at hr
    obtain ⟨j, -, hr⟩ := hr
    cases hr
    exact fun path hpath => absurd hpath List.not_mem_nil

theorem getElem?_set_running {i k : Nat} {m : Member α} {r : Running α}
    (h : (p.members.set i m)[k]? = some (.running r)) :
    k = i ∧ m = .running r ∨ k ≠ i ∧ p.members[k]? = some (.running r) := by
  by_cases hk : k = i
  · subst hk
    rw [List.getElem?_set] at h
    split at h
    · split at h
      · exact .inl ⟨rfl, Option.some.inj h⟩
      · cases h
    · next hne => exact absurd rfl hne
  · rw [List.getElem?_set_ne (Ne.symm hk)] at h
    exact .inr ⟨hk, h⟩

/-- A turn of one member, which spares the disk for the others. -/
theorem Shares.replace (h : p.Shares S Q own) (hlast : Lasts S Q) {i : Nat}
    {m : Member α} {w : World} {ownᵢ : List Nat} (hclock : w.clock = S.clock) (hinv : S.Inv w.disk)
    (hown : ∀ n ∈ ownᵢ, n ∈ own i ∨ p.world.serial ≤ n) (hdrawn : ∀ n ∈ ownᵢ, n < w.serial)
    (hserial : p.world.serial ≤ w.serial)
    (hspares : ∀ other, (∀ n ∈ other, n ∉ ownᵢ) → S.Spares other p.world.disk w.disk)
    (hm : ∀ r, m = .running r → r.job.Among S ownᵢ w.disk (Q i) ∧
      ∀ path ∈ r.held, S.Mine ownᵢ path) :
    Shares S Q (fun k => if k = i then ownᵢ else own k) ⟨w, p.members.set i m⟩ := by
  have hapart : ∀ k, k ≠ i → ∀ n ∈ own k, n ∉ ownᵢ := by
    intro k hk n hn hni
    rcases hown n hni with hni | hni
    · exact h.apart k i hk n hn hni
    · exact Nat.not_le_of_lt (h.drawn k n hn) hni
  refine ⟨hclock, hinv, fun k l hkl n hn => ?_, fun k n hn => ?_, fun k r hr => ?_,
    fun k r hr => ?_⟩
  · by_cases hk : k = i
    · rw [if_pos hk] at hn
      rw [if_neg fun hl => hkl (hk.trans hl.symm)]
      exact fun hl => hapart l (fun hli => hkl (hk.trans hli.symm)) n hl hn
    · rw [if_neg hk] at hn
      split
      · exact hapart k hk n hn
      · exact h.apart k l hkl n hn
  · split at hn
    · exact hdrawn n hn
    · exact Nat.lt_of_lt_of_le (h.drawn k n hn) hserial
  · rcases getElem?_set_running hr with ⟨rfl, rfl⟩ | ⟨hk, hr⟩
    · rw [if_pos rfl]
      exact (hm r rfl).1
    · rw [if_neg hk]
      have hd := hspares (own k) (hapart k hk)
      exact (h.jobs k r hr).later hd fun a ha => hlast k a _ _ _ hd ha
  · rcases getElem?_set_running hr with ⟨rfl, rfl⟩ | ⟨hk, hr⟩
    · rw [if_pos rfl]
      exact (hm r rfl).2
    · rw [if_neg hk]
      exact h.held k r hr

/-- A job that goes on. -/
theorem Shares.advance (h : p.Shares S Q own) (hlast : Lasts S Q) {i : Nat} {r : Running α}
    (hr : p.members[i]? = some (.running r)) : ∃ own', Shares S Q own'
      ⟨(r.advance p.world).2, p.members.set i (.running (r.advance p.world).1)⟩ := by
  obtain ⟨job, held⟩ := r
  have hjob : job.Among S (own i) p.world.disk (Q i) := h.jobs i _ hr
  have hheld : ∀ path ∈ held, S.Mine (own i) path := h.held i _ hr
  cases job with
  | done a =>
    refine ⟨_, h.replace hlast h.clock h.inv (fun n hn => .inl hn) (h.drawn i) (Nat.le_refl _)
      (fun other _ => S.refl other _) fun r hr => ?_⟩
    cases hr
    exact ⟨hjob, hheld⟩
  | step s next =>
    obtain ⟨hallows, hnext⟩ := hjob p.world h.clock h.inv (S.refl _ _)
    refine ⟨_, h.replace hlast ((p.world.perform_fixed s).2.trans h.clock) hallows.inv
      (fun n hn => ?_)
      (p.world.drawn_lt s (h.drawn i)) (p.world.serial_le s) hallows.spares fun r hr => ?_⟩
    · by_cases hlt : n < p.world.serial
      · exact .inl ((p.world.mem_drawn_iff s hlt).1 hn)
      · exact .inr (Nat.le_of_not_lt hlt)
    · cases hr
      refine ⟨hnext, fun path hpath => ?_⟩
      have hmine : S.Mine (own i) path := by
        rcases Running.mem_heldAfter hpath with hpath | hcreate
        · exact hheld path hpath
        · exact hallows.mine path hcreate
      cases s with
      | serial => exact S.mine_cons _ hmine
      | _ => exact hmine

/-- A job that is given up. -/
theorem Shares.abandon (h : p.Shares S Q own) (hlast : Lasts S Q) {i : Nat} {r : Running α}
    (hr : p.members[i]? = some (.running r)) :
    ∃ own', Shares S Q own' ⟨r.abandon p.world, p.members.set i .gone⟩ := by
  obtain ⟨hinv, hspares, hclock, hserial⟩ := S.abandon (h.held i r hr) h.inv
  refine ⟨_, h.replace hlast (hclock.trans h.clock) hinv (fun n hn => .inl hn) (fun n hn => ?_)
    (Nat.le_of_eq hserial.symm) hspares fun r hr => by cases hr⟩
  rw [hserial]
  exact h.drawn i n hn

theorem Shares.take (h : p.Shares S Q own) (hlast : Lasts S Q) (t : Turn) :
    ∃ own', (p.take t).Shares S Q own' := by
  rcases p.take_cases t with heq | ⟨i, r, hi, ⟨-, heq⟩ | ⟨-, heq⟩⟩
  · rw [heq]
    exact ⟨own, h⟩
  · rw [heq]
    exact h.advance hlast hi
  · rw [heq]
    exact h.abandon hlast hi

theorem Shares.run (h : p.Shares S Q own) (hlast : Lasts S Q) (turns : List Turn) :
    ∃ own', (p.run turns).Shares S Q own' := by
  induction turns generalizing p own with
  | nil => exact ⟨own, h⟩
  | cons t turns ih =>
    obtain ⟨own', h'⟩ := h.take hlast t
    exact ih h'

theorem outcome?_eq_some {p : Pool α} {i : Nat} {a : α} (h : p.outcome? i = some a) :
    ∃ held, p.members[i]? = some (.running ⟨.done a, held⟩) := by
  unfold outcome? at h
  split at h
  · next a' held hr =>
    cases h
    exact ⟨held, hr⟩
  · cases h

/-- What a job that is done came to. -/
theorem Shares.outcome (h : p.Shares S Q own) {i : Nat} {a : α} (ha : p.outcome? i = some a) :
    Q i a (own i) p.world.disk := by
  obtain ⟨held, hr⟩ := outcome?_eq_some ha
  exact h.jobs i _ hr

/-- More may be expected of one of the jobs from now on. -/
theorem Shares.expect (h : p.Shares S Q own) {k : Nat} {R : α → Prop}
    (hk : ∀ r : Running α, p.members[k]? = some (.running r) →
      r.job.Among S (own k) p.world.disk fun a own d => Q k a own d ∧ R a) :
    p.Shares S (fun i a own d => Q i a own d ∧ (i = k → R a)) own where
  clock := h.clock
  inv := h.inv
  apart := h.apart
  drawn := h.drawn
  jobs i r hr := by
    by_cases hik : i = k
    · subst hik
      exact (hk r hr).post fun _ _ _ ha => ⟨ha.1, fun _ => ha.2⟩
    · exact (h.jobs i r hr).post fun _ _ _ ha => ⟨ha, fun he => absurd he hik⟩
  held := h.held

end Pool

end PullThrough
