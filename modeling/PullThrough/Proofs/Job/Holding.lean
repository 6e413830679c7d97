import PullThrough.Job.Pool
import PullThrough.Proofs.Disk.Location
import PullThrough.Proofs.Job.Does
/-
  What files are left when jobs end.

  A job holds the files that it made until it moves or removes them, and lets go of them when it is
  given up. `Accounts` says of a disk that every file on it is where files are kept or is held. One
  step keeps this (`Accounts.step`), whoever takes it and whatever trouble the disk has, as long as
  files are moved only to where they are kept; a file that is removed is gone, because no folder on
  the way to it ever goes away.

  `Job.Tends` says of a job, for all answers to its steps, where it moves files and what it holds at
  its end. From it follows what is left after a run (`Job.Tends.run`) and, for jobs in turns, that
  when all of them are done or given up every file is where files are kept
  (`Pool.IsOrderly.settled`).
-/
namespace PullThrough

open PullThrough.Path (location)

/-! ## Files that are kept or held -/

/-- Every file is where files are kept, or is held, and the files that are held can be reached. -/
structure Accounts (kept : Location → Prop) (held : List Path) (d : Disk) : Prop where
  files : ∀ l content, d.get? l = some (.file content) → kept l ∨ ∃ p ∈ held, l = location p
  ways : ∀ p ∈ held, d.locate p = .ok (location p)

/-- The step moves files only to where they are kept. -/
def Step.PutsInto (kept : Location → Prop) : Step → Prop
  | rename _ target => kept (location target)
  | _ => True

namespace Accounts

variable {kept : Location → Prop} {held held' others : List Path} {d d' : Disk} {w : World}

/-- Only which files are held matters. -/
theorem of_subset (h : Accounts kept held d) (hsub : ∀ p ∈ held, p ∈ held')
    (hsub' : ∀ p ∈ held', p ∈ held) : Accounts kept held' d where
  files l content hf := (h.files l content hf).imp_right fun ⟨p, hp, hl⟩ => ⟨p, hsub p hp, hl⟩
  ways p hp := h.ways p (hsub' p hp)

/-- Neither a file is added nor a folder taken away. -/
theorem of_files (h : Accounts kept held d)
    (hfile : ∀ l content, d'.get? l = some (.file content) →
      ∃ content', d.get? l = some (.file content'))
    (hfolder : ∀ l, d.get? l = some .folder → d'.get? l = some .folder) :
    Accounts kept held d' where
  files l content hf := by
    obtain ⟨content', hf'⟩ := hfile l content hf
    exact h.files l content' hf'
  ways p hp := Disk.locate_mono hfolder (h.ways p hp)

theorem set {l : Location} {content : Bytes} (h : Accounts kept held d)
    (hl : kept l ∨ ∃ p ∈ held, l = location p) (hfolder : d.get? l ≠ some .folder) :
    Accounts kept held (d.set l (.file content)) where
  files m content' hf := by
    by_cases hm : m = l
    · rw [hm]
      exact hl
    · rw [Disk.get?_set_of_ne hm] at hf
      exact h.files m content' hf
  ways p hp := Disk.locate_mono (fun _ => Disk.get?_set_of_folder hfolder) (h.ways p hp)

theorem erase {l : Location} (h : Accounts kept held d) (hfolder : d.get? l ≠ some .folder) :
    Accounts kept held (d.erase l) := by
  refine h.of_files (fun m content hf => ?_) fun _ => Disk.get?_erase_of_folder hfolder
  by_cases hm : m = l
  · rw [hm, Disk.get?_erase_self (Disk.ne_root hfolder)] at hf
    cases hf
  · rw [Disk.get?_erase_of_ne hm] at hf
    exact ⟨content, hf⟩

/-- A file that can be reached is held from now on. -/
theorem take {p : Path} (h : Accounts kept held d) (hp : d.locate p = .ok (location p)) :
    Accounts kept (p :: held) d where
  files l content hf :=
    (h.files l content hf).imp_right fun ⟨q, hq, hl⟩ => ⟨q, List.mem_cons_of_mem p hq, hl⟩
  ways q hq := by
    rcases List.mem_cons.1 hq with rfl | hq
    · exact hp
    · exact h.ways q hq

/-- What is gone need not be held. -/
theorem release {p : Path} (h : Accounts kept (held ++ others) d)
    (hgone : ∀ content, d.get? (location p) = some (.file content) → kept (location p)) :
    Accounts kept (held.erase p ++ others) d where
  files l content hf := by
    rcases h.files l content hf with hk | ⟨q, hq, rfl⟩
    · exact .inl hk
    by_cases hqp : q = p
    · rw [hqp] at hf ⊢
      exact .inl (hgone content hf)
    · refine .inr ⟨q, ?_, rfl⟩
      rw [List.mem_append] at hq ⊢
      exact hq.imp_left fun hq => (List.mem_erase_of_ne hqp).2 hq
  ways q hq := by
    rw [List.mem_append] at hq
    exact h.ways q (List.mem_append.2 (hq.imp_left List.mem_of_mem_erase))

/-- Removing a file lets go of it. If it is held, it can be reached, so it is gone then. -/
theorem remove (h : Accounts kept (held ++ others) w.disk) (p : Path) :
    Accounts kept (held.erase p ++ others) (w.perform (.remove p)).2.disk := by
  show Accounts kept _ (World.change (fun d => d.remove p) w.disk).2
  rcases World.change_cases (fun d => d.remove p) w.disk with ⟨e, he, hd⟩ | ⟨-, hd⟩
  · rw [hd]
    by_cases hp : p ∈ held
    · refine h.release fun content hf => ?_
      have hok := Disk.remove_of_file (h.ways p (List.mem_append_left others hp)) hf
      simp only [World.change, hok] at he
      cases he
    · rwa [List.erase_of_not_mem hp]
  · obtain ⟨-, content, hf, hd⟩ := Disk.remove_eq_ok hd
    have hfolder : w.disk.get? (location p) ≠ some .folder := by simp [hf]
    rw [hd]
    refine (h.erase hfolder).release fun content hf => ?_
    rw [Disk.get?_erase_self (Disk.ne_root hfolder)] at hf
    cases hf

/-- Whatever step a job takes: every file is where files are kept, or is held by the job after that
step or by the others. -/
theorem step (h : Accounts kept (held ++ others) w.disk) {s : Step} (hs : s.PutsInto kept) :
    Accounts kept (Running.heldAfter held s (w.perform s).1 ++ others) (w.perform s).2.disk := by
  cases s with
  | makeFolders p =>
    show Accounts kept (held ++ others) (w.perform (.makeFolders p)).2.disk
    rcases w.makeFolders_disk p with hd | hd
    · rwa [hd]
    · rw [hd]
      have hmade := Disk.foldersMade w.disk p
      exact h.of_files (fun l content hf => ⟨content, hmade.file.1 hf⟩) fun _ => hmade.folder
  | create p =>
    show Accounts kept (Running.heldAfter held (.create p)
      (w.write (World.change fun d => d.create p)).1 ++ others) (w.write _).2.disk
    rcases w.write_change_cases fun d => d.create p with ⟨e, hr, hd⟩ | ⟨hr, hd⟩
    · rw [hr, hd]
      exact h
    · obtain ⟨hp, hfolder, hd⟩ := Disk.create_eq_ok hd
      rw [hr, hd]
      exact (h.take hp).set (.inr ⟨p, List.mem_cons_self, rfl⟩) hfolder
  | append p data =>
    show Accounts kept (held ++ others) (w.write (World.change fun d => d.append p data)).2.disk
    rcases w.write_change_cases fun d => d.append p data with ⟨e, hr, hd⟩ | ⟨hr, hd⟩
    · rwa [hd]
    · obtain ⟨-, content, hf, hd⟩ := Disk.append_eq_ok hd
      rw [hd]
      exact h.set (h.files _ _ hf) (by simp [hf])
  | sync p =>
    show Accounts kept (held ++ others) (w.perform (.sync p)).2.disk
    rwa [w.sync_disk p]
  | rename p q =>
    show Accounts kept (Running.heldAfter held (.rename p q)
      (w.write (World.change fun d => d.rename p q)).1 ++ others) (w.write _).2.disk
    rcases w.write_change_cases fun d => d.rename p q with ⟨e, hr, hd⟩ | ⟨hr, hd⟩
    · rw [hr, hd]
      exact h
    · obtain ⟨-, -, content, hf, hfolder, hd⟩ := Disk.rename_eq_ok hd
      rw [hr, hd]
      have hsource : w.disk.get? (location p) ≠ some .folder := by simp [hf]
      have hroot : location p ≠ [] := Disk.ne_root hsource
      have hput : Accounts kept (held ++ others)
          ((w.disk.erase (location p)).set (location q) (.file content)) :=
        (h.erase hsource).set (.inl hs) (Disk.get?_erase_ne_folder hroot hfolder)
      refine hput.release fun content' hf' => ?_
      by_cases hpq : location p = location q
      · rw [hpq]
        exact hs
      · rw [Disk.get?_set_of_ne hpq, Disk.get?_erase_self hroot] at hf'
        cases hf'
  | remove p => exact h.remove p
  | _ => exact h

/-- A job that is given up removes all that it holds. -/
theorem abandon {α : Type} {r : Running α} (h : Accounts kept (r.held ++ others) w.disk) :
    Accounts kept others (r.abandon w).disk := by
  obtain ⟨job, held⟩ := r
  unfold Running.abandon
  induction held generalizing w with
  | nil => exact h
  | cons p held ih =>
    refine ih ?_
    have hnext := h.remove p
    rwa [List.erase_cons_head] at hnext

end Accounts

/-! ## What a job tends to -/

namespace Job

/-- Whatever the answers to its steps are, the job moves files only to where they are kept, and what
it holds at its end is as `Q` says. -/
def Tends (kept : Location → Prop) : Job α → List Path → (α → List Path → Prop) → Prop
  | done a, held, Q => Q a held
  | step s next, held, Q =>
    s.PutsInto kept ∧ ∀ x, (next x).Tends kept (Running.heldAfter held s x) Q

variable {kept : Location → Prop} {j : Job α} {held others : List Path} {Q : α → List Path → Prop}

theorem tends_bind {f : α → Job β} {Q : β → List Path → Prop} :
    (j >>= f).Tends kept held Q ↔
      j.Tends kept held fun a held' => (f a).Tends kept held' Q := by
  induction j generalizing held with
  | done a => rfl
  | step s next ih => exact and_congr Iff.rfl (forall_congr' fun x => ih x)

theorem Tends.post {Q' : α → List Path → Prop} (h : j.Tends kept held Q)
    (hQ : ∀ a held', Q a held' → Q' a held') : j.Tends kept held Q' := by
  induction j generalizing held with
  | done a => exact hQ a held h
  | step s next ih => exact ⟨h.1, fun x => ih x (h.2 x)⟩

theorem Tends.andThen {x : Attempt α} {f : α → Attempt β}
    {Q : Except Failure β → List Path → Prop}
    (h : x.run.Tends kept held fun r held' =>
      match r with
      | .ok a => (f a).run.Tends kept held' Q
      | .error failure => Q (.error failure) held') : (x >>= f).run.Tends kept held Q := by
  rw [Attempt.run_bind, tends_bind]
  refine h.post ?_
  rintro (failure | a) held' hr
  · exact hr
  · exact hr

/-- After a run every file is where files are kept, or is held by someone. -/
theorem Tends.run {w : World} (h : j.Tends kept held Q)
    (ha : Accounts kept (held ++ others) w.disk) :
    ∃ held', Q (j.run w).1 held' ∧ Accounts kept (held' ++ others) (j.run w).2.disk := by
  induction j generalizing held w with
  | done a => exact ⟨held, h, ha⟩
  | step s next ih => exact ih _ (h.2 _) (ha.step h.1)

end Job

/-! ## Turns -/

/-- What a turn does: nothing, a step of a member, or the end of one. -/
theorem Pool.take_cases (p : Pool α) (t : Turn) :
    p.take t = p ∨ ∃ i r, p.members[i]? = some (.running r) ∧
      (t = .advance i ∧ p.take t =
          ⟨(r.advance p.world).2, p.members.set i (.running (r.advance p.world).1)⟩ ∨
        t = .abandon i ∧ p.take t = ⟨r.abandon p.world, p.members.set i .gone⟩) := by
  have hstay : ∀ i, (∀ r, p.members[i]? ≠ some (.running r)) →
      p.take (.advance i) = p ∧ p.take (.abandon i) = p := by
    intro i hi
    unfold Pool.take
    dsimp only
    split
    · next r hr => exact absurd hr (hi r)
    · exact ⟨rfl, rfl⟩
  have hmove : ∀ i r, p.members[i]? = some (.running r) →
      p.take (.advance i) = ⟨(r.advance p.world).2,
        p.members.set i (.running (r.advance p.world).1)⟩ ∧
        p.take (.abandon i) = ⟨r.abandon p.world, p.members.set i .gone⟩ := by
    intro i r hi
    unfold Pool.take
    dsimp only
    rw [hi]
    exact ⟨rfl, rfl⟩
  by_cases hi : ∃ i r, (t = .advance i ∨ t = .abandon i) ∧ p.members[i]? = some (.running r)
  · obtain ⟨i, r, rfl | rfl, hr⟩ := hi
    · exact .inr ⟨i, r, hr, .inl ⟨rfl, (hmove i r hr).1⟩⟩
    · exact .inr ⟨i, r, hr, .inr ⟨rfl, (hmove i r hr).2⟩⟩
  · cases t with
    | advance i => exact .inl (hstay i fun r hr => hi ⟨i, r, .inl rfl, hr⟩).1
    | abandon i => exact .inl (hstay i fun r hr => hi ⟨i, r, .inr rfl, hr⟩).2

theorem Pool.run_append (p : Pool α) (turns turns' : List Turn) :
    p.run (turns ++ turns') = (p.run turns).run turns' := List.foldl_append

/-- A member that never goes on is as it was, unless it was given up. -/
theorem Pool.run_idle (p : Pool α) {k : Nat} {turns : List Turn} (h : .advance k ∉ turns) :
    (p.run turns).members[k]? = p.members[k]? ∨ (p.run turns).members[k]? = some .gone := by
  induction turns generalizing p with
  | nil => exact .inl rfl
  | cons t turns ih =>
    have hother : ∀ i m, i ≠ k → (p.members.set i m)[k]? = p.members[k]? :=
      fun i m hik => List.getElem?_set_ne hik
    have htake : (p.take t).members[k]? = p.members[k]? ∨ (p.take t).members[k]? = some .gone := by
      rcases p.take_cases t with heq | ⟨i, r, hi, ⟨rfl, heq⟩ | ⟨-, heq⟩⟩
      · exact .inl (by rw [heq])
      · rw [heq]
        exact .inl (hother i _ fun hik => h (by simp [hik]))
      · rw [heq]
        by_cases hik : i = k
        · subst hik
          exact .inr (List.getElem?_set_self (List.getElem?_eq_some_iff.1 hi).1)
        · exact .inl (hother i _ hik)
    rcases ih (p.take t) fun ht => h (List.mem_cons_of_mem _ ht) with hrest | hrest
    · rw [← hrest] at htake
      exact htake
    · exact .inr hrest

/-! ## Jobs in turns -/

/-- The files that a member of a pool holds. -/
def Member.held : Member α → List Path
  | running r => r.held
  | gone => []

/-- A member that is done, or was given up. -/
def Member.HasEnded : Member α → Prop
  | running r => ∃ a, r.job = .done a
  | gone => True

instance (m : Member α) : Decidable m.HasEnded :=
  match m with
  | .gone => isTrue trivial
  | .running ⟨.done a, _⟩ => isTrue ⟨a, rfl⟩
  | .running ⟨.step _ _, _⟩ => isFalse fun ⟨_, h⟩ => by cases h

/-- A member moves files only to where they are kept, and holds nothing when it is done. -/
def Member.IsOrderly (kept : Location → Prop) : Member α → Prop
  | running r => r.job.Tends kept r.held fun _ held => held = []
  | gone => True

namespace Pool

variable {kept : Location → Prop} {p : Pool α}

/-- The files that are held in a pool. -/
def held (p : Pool α) : List Path := p.members.flatMap Member.held

/-- Every file is where files are kept or is held by a member, and no member will leave any. -/
structure IsOrderly (kept : Location → Prop) (p : Pool α) : Prop where
  accounts : Accounts kept p.held p.world.disk
  members : ∀ m ∈ p.members, m.IsOrderly kept

theorem IsOrderly.start {w : World} {jobs : List (Job α)}
    (hw : ∀ l content, w.disk.get? l = some (.file content) → kept l)
    (hjobs : ∀ j ∈ jobs, j.Tends kept [] fun _ held => held = []) :
    (Pool.start w jobs).IsOrderly kept := by
  have hnone : (Pool.start w jobs).held = [] := by
    unfold Pool.held Pool.start
    rw [List.flatMap_eq_nil_iff]
    intro m hm
    obtain ⟨j, -, rfl⟩ := List.mem_map.1 hm
    rfl
  refine ⟨⟨fun l content hf => .inl (hw l content hf), ?_⟩, ?_⟩
  · rw [hnone]
    exact fun p hp => absurd hp List.not_mem_nil
  · intro m hm
    obtain ⟨j, hj, rfl⟩ := List.mem_map.1 hm
    exact hjobs j hj

/-- A member whose turn it is, between the others. -/
theorem split_members {i : Nat} {m : Member α} (hi : p.members[i]? = some m) :
    ∃ before after, p.members = before ++ m :: after ∧
      ∀ m', p.members.set i m' = before ++ m' :: after := by
  obtain ⟨hlt, hm⟩ := List.getElem?_eq_some_iff.1 hi
  refine ⟨p.members.take i, p.members.drop (i + 1), ?_, ?_⟩
  · rw [← hm, List.getElem_cons_drop, List.take_append_drop]
  · intro m'
    rw [List.set_eq_take_append_cons_drop, if_pos hlt]

/-- A turn of one member, after which the account holds with what this one holds then. -/
theorem IsOrderly.replace (h : p.IsOrderly kept) {i : Nat} {m m' : Member α} {w : World}
    (hi : p.members[i]? = some m) (hm' : m'.IsOrderly kept)
    (hstep : ∀ others, Accounts kept (m.held ++ others) p.world.disk →
      Accounts kept (m'.held ++ others) w.disk) :
    IsOrderly kept ⟨w, p.members.set i m'⟩ := by
  obtain ⟨before, after, hsplit, hset⟩ := split_members hi
  have hmem : ∀ (n : Member α) path, path ∈ (before ++ n :: after).flatMap Member.held ↔
      path ∈ n.held ++ (before ++ after).flatMap Member.held := by
    intro n path
    simp only [List.flatMap_append, List.flatMap_cons, List.mem_append]
    exact or_left_comm
  have hbefore : Accounts kept (m.held ++ (before ++ after).flatMap Member.held) p.world.disk := by
    have ha := h.accounts
    rw [Pool.held, hsplit] at ha
    exact ha.of_subset (fun path => (hmem m path).1) fun path => (hmem m path).2
  refine ⟨?_, ?_⟩
  · rw [Pool.held, hset]
    exact (hstep _ hbefore).of_subset (fun path => (hmem m' path).2) fun path => (hmem m' path).1
  · intro n hn
    rcases List.mem_or_eq_of_mem_set hn with hold | rfl
    · exact h.members n hold
    · exact hm'

theorem IsOrderly.take (h : p.IsOrderly kept) (t : Turn) : (p.take t).IsOrderly kept := by
  rcases p.take_cases t with heq | ⟨i, r, hi, ⟨-, heq⟩ | ⟨-, heq⟩⟩
  · rw [heq]
    exact h
  · rw [heq]
    obtain ⟨job, held⟩ := r
    have hr : job.Tends kept held fun _ held => held = [] := h.members _ (List.mem_of_getElem? hi)
    cases job with
    | done a => exact h.replace hi hr fun _ ha => ha
    | step s next => exact h.replace hi (hr.2 _) fun _ ha => ha.step hr.1
  · rw [heq]
    exact h.replace hi trivial fun _ ha => ha.abandon

theorem IsOrderly.run (h : p.IsOrderly kept) (turns : List Turn) :
    (p.run turns).IsOrderly kept := by
  induction turns generalizing p with
  | nil => exact h
  | cons t turns ih => exact ih (h.take t)

/-- When all jobs have ended every file is where files are kept. -/
theorem IsOrderly.settled (h : p.IsOrderly kept) (hend : ∀ m ∈ p.members, m.HasEnded) (l : Location)
    (content : Bytes) (hf : p.world.disk.get? l = some (.file content)) : kept l := by
  rcases h.accounts.files l content hf with hk | ⟨path, hpath, -⟩
  · exact hk
  obtain ⟨m, hm, hpath⟩ := List.mem_flatMap.1 hpath
  have hnone : m.held = [] := by
    cases m with
    | gone => rfl
    | running r =>
      obtain ⟨job, held⟩ := r
      obtain ⟨a, rfl⟩ := hend _ hm
      exact h.members _ hm
  rw [hnone] at hpath
  exact absurd hpath List.not_mem_nil

end Pool

end PullThrough
