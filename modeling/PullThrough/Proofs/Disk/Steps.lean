import PullThrough.Proofs.Disk.Location
import PullThrough.Proofs.Job.Does
/-
  What a step does to a disk, by the paths that it asks for.

  A step leaves the disk alone, makes folders on the way of one of its paths, or changes the files
  at the locations of its paths (`Disk.Touched`, `World.perform_touched`). What these changes keep,
  every step of such paths keeps.
-/
namespace PullThrough

/-- The paths that a step asks a disk for. -/
def Step.paths : Step → List Path
  | read p => [p]
  | find p => [p]
  | makeFolders p => [p]
  | create p => [p]
  | append p _ => [p]
  | sync p => [p]
  | rename source target => [source, target]
  | remove p => [p]
  | children p => [p]
  | filesBelow p => [p]
  | _ => []

/-- What steps that ask for some paths may do to a disk. -/
inductive Disk.Touched (paths : List Path) (d : Disk) : Disk → Prop where
  | not : Touched paths d d
  | folders (p : Path) (hp : p ∈ paths) : Touched paths d (d.makeFolders p).2
  | put (p : Path) (hp : p ∈ paths) (content : Bytes) :
      Touched paths d (d.set (Path.location p) (.file content))
  | drop (p : Path) (hp : p ∈ paths) : Touched paths d (d.erase (Path.location p))
  | move (p q : Path) (hp : p ∈ paths) (hq : q ∈ paths) (content : Bytes) :
      Touched paths d ((d.erase (Path.location p)).set (Path.location q) (.file content))

theorem World.perform_touched (w : World) (s : Step) :
    Disk.Touched s.paths w.disk (w.perform s).2.disk := by
  have hchange (op : Disk → Except DiskFault Disk)
      (hop : ∀ d', op w.disk = .ok d' → Disk.Touched s.paths w.disk d') :
      Disk.Touched s.paths w.disk (w.write (World.change op)).2.disk := by
    rcases w.write_change_cases op with ⟨-, -, hd⟩ | ⟨-, hd⟩
    · rw [hd]
      exact .not
    · exact hop _ hd
  cases s with
  | makeFolders p =>
    rcases w.makeFolders_disk p with hd | hd
    · rw [hd]
      exact .not
    · rw [hd]
      exact .folders p (by simp [Step.paths])
  | create p =>
    refine hchange _ fun d' hd => ?_
    obtain ⟨-, -, rfl⟩ := Disk.create_eq_ok hd
    exact .put p (by simp [Step.paths]) _
  | append p data =>
    refine hchange _ fun d' hd => ?_
    obtain ⟨-, content, -, rfl⟩ := Disk.append_eq_ok hd
    exact .put p (by simp [Step.paths]) _
  | rename p q =>
    refine hchange _ fun d' hd => ?_
    obtain ⟨-, -, content, -, -, rfl⟩ := Disk.rename_eq_ok hd
    exact .move p q (by simp [Step.paths]) (by simp [Step.paths]) content
  | remove p =>
    have hsame : (w.perform (.remove p)).2.disk =
        (World.change (fun d => d.remove p) w.disk).2 := rfl
    rw [hsame]
    rcases World.change_cases (fun d => d.remove p) w.disk with ⟨e, -, hd⟩ | ⟨-, hd⟩
    · rw [hd]
      exact .not
    · obtain ⟨-, content, -, hd⟩ := Disk.remove_eq_ok hd
      rw [hd]
      exact .drop p (by simp [Step.paths])
  | sync p =>
    rw [w.sync_disk p]
    exact .not
  | _ => exact .not

end PullThrough
