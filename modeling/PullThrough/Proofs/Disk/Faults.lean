import PullThrough.Proofs.Disk.Location
/-
  Faults of the device, and faults that come from what is on the disk.

  The device is at fault if an operation fails for no reason of its own, or if a path or a name
  is too long for it or holds the null character. That something is missing, a folder, or no
  folder is no such fault. An operation whose folders and files are all there `Works`: it fails
  by the device or not at all.
-/
namespace PullThrough

/-- A fault that does not come from what is on the disk. -/
def DiskFault.isOfDevice : DiskFault → Bool
  | trouble | tooLong | badName => true
  | missing | notFolder | isFolder => false

/-- Whether an operation failed by the device. -/
def failedByDevice : Except DiskFault α → Bool
  | .ok _ => false
  | .error e => e.isOfDevice

/-- An operation ends as `P` says, unless it fails by the device. -/
def Works (r : Except DiskFault α) (P : α → Prop) : Prop :=
  match r with
  | .ok a => P a
  | .error e => e.isOfDevice = true

namespace Works

variable {r : Except DiskFault α} {P Q : α → Prop}

theorem bind {f : α → Except DiskFault β} {Q : β → Prop} (h : Works r P)
    (hf : ∀ a, P a → Works (f a) Q) : Works (r >>= f) Q := by
  cases r with
  | ok a => exact hf a h
  | error e => exact h

theorem imp (h : Works r P) (hQ : ∀ a, r = .ok a → P a → Q a) : Works r Q := by
  cases r with
  | ok a => exact hQ a rfl h
  | error e => exact h

theorem ok (h : Works r P) (hr : failedByDevice r = false) : ∃ a, r = .ok a ∧ P a := by
  cases r with
  | ok a => exact ⟨a, rfl, h⟩
  | error e => exact absurd (hr.symm.trans h) (by decide)

end Works

namespace Disk

open PullThrough.Path (follow location)

variable {d : Disk} {p q : Path} {content : Bytes}

/-- A path whose folders are all there leads to its location. -/
theorem locate_works (h : ∀ r part, r ++ [part] <+: p → d.get? (location r) = some .folder) :
    Works (d.locate p) (· = location p) := by
  rcases locate_of_present h with hl | hl | hl
  · rw [hl]
    exact rfl
  · rw [hl]
    exact rfl
  · rw [hl]
    exact rfl

theorem create_works (hl : Works (d.locate p) (· = location p))
    (hf : d.get? (location p) ≠ some .folder) :
    Works (d.create p) (· = d.set (location p) (.file [])) := by
  refine hl.bind ?_
  rintro _ rfl
  cases hg : d.get? (location p) with
  | none => exact rfl
  | some e =>
    cases e with
    | folder => exact absurd hg hf
    | file content => exact rfl

theorem append_works (hl : Works (d.locate p) (· = location p)) (data : Bytes)
    (hf : d.get? (location p) = some (.file content)) :
    Works (d.append p data) (· = d.set (location p) (.file (content ++ data))) := by
  refine hl.bind ?_
  rintro _ rfl
  simp only [hf]
  exact rfl

theorem read_works (hl : Works (d.locate p) (· = location p))
    (hf : d.get? (location p) = some (.file content)) : Works (d.read p) (· = content) := by
  refine Works.bind (P := (· = .file content)) (hl.bind ?_) ?_
  · rintro _ rfl
    simp only [hf]
    exact rfl
  · rintro _ rfl
    exact rfl

theorem rename_works (hl : Works (d.locate p) (· = location p))
    (hm : Works (d.locate q) (· = location q)) (hf : d.get? (location p) = some (.file content))
    (ht : d.get? (location q) ≠ some .folder) :
    Works (d.rename p q) (· = (d.erase (location p)).set (location q) (.file content)) := by
  refine hl.bind ?_
  rintro _ rfl
  refine hm.bind ?_
  rintro _ rfl
  simp only [hf]
  cases hg : d.get? (location q) with
  | none => exact rfl
  | some e =>
    cases e with
    | folder => exact absurd hg ht
    | file content => exact rfl

theorem makeFoldersFrom_works {here : Location} (hhere : d.get? here = some .folder)
    (hfree : ∀ r, r <+: p → ∀ content, d.get? (r.foldl follow here) ≠ some (.file content)) :
    Works (makeFoldersFrom p here d).1 fun _ =>
      (makeFoldersFrom p here d).2.get? (p.foldl follow here) = some .folder := by
  induction p generalizing here d with
  | nil => exact hhere
  | cons part p ih =>
    unfold makeFoldersFrom
    rcases enter_of_folder hhere part with he | ⟨he, -⟩
    case inr => rw [he]; exact rfl
    have hrest : ∀ r, r <+: p → ∀ content,
        d.get? (r.foldl follow (follow here part)) ≠ some (.file content) := fun r hr =>
      hfree (part :: r) (List.cons_prefix_cons.2 ⟨rfl, hr⟩)
    rw [he]
    dsimp only
    cases hm : d.get? (follow here part) with
    | some e =>
      cases e with
      | folder => exact ih hm hrest
      | file content => exact absurd hm (hrest [] (List.nil_prefix) content)
    | none =>
      have hroot : follow here part ≠ [] := ne_root (d := d) (by simp [hm])
      refine ih (get?_set_self hroot) fun r hr content hc => ?_
      by_cases hl : r.foldl follow (follow here part) = follow here part
      · rw [hl, get?_set_self hroot] at hc
        cases hc
      · rw [get?_set_of_ne hl] at hc
        exact hrest r hr content hc

/-- Folders are made where no file stands in the way. -/
theorem makeFolders_works
    (hfree : ∀ r, r <+: p → ∀ content, d.get? (location r) ≠ some (.file content)) :
    Works (d.makeFolders p).1 fun _ => (d.makeFolders p).2.get? (location p) = some .folder := by
  unfold makeFolders
  cases hc : checkPath p with
  | ok _ => exact makeFoldersFrom_works d.get?_root hfree
  | error e =>
    rcases checkPath_eq_error hc with rfl | rfl
    · exact rfl
    · exact rfl

end Disk

end PullThrough
