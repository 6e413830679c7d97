import Mathlib.Data.List.Nodup
import PullThrough.Proofs.Disk.Steps
/-
  What listings of a disk show.

  A disk with one entry for each location (`Disk.IsProper`) stays one in every world that a job
  passes through (`Job.run_isProper`). Its listings show each name and each file once: the names
  right below a location are those under which something is (`Disk.IsProper.mem_children`), and the
  files below it are all that lie behind it (`Disk.IsProper.mem_filesBelow`).
-/
namespace PullThrough

namespace Disk

/-- A disk with one entry for each location, by the slot of its names. -/
structure IsProper (d : Disk) : Prop where
  slots : ∀ x ∈ d.entries, x.1 = Slot.of x.1.names
  nodup : (d.entries.map Prod.fst).Nodup

namespace IsProper

variable {d : Disk} {l : Location} {e : Entry} {p : Path}

/-! ## Staying proper -/

theorem filter (h : d.IsProper) (keep : Slot × Entry → Bool) :
    IsProper ⟨d.entries.filter keep⟩ where
  slots x hx := h.slots x (List.mem_of_mem_filter hx)
  nodup := h.nodup.sublist (List.filter_sublist.map Prod.fst)

theorem erase (h : d.IsProper) (l : Location) : (d.erase l).IsProper := h.filter _

theorem set (h : d.IsProper) (l : Location) (e : Entry) : (d.set l e).IsProper where
  slots x hx := by
    rcases List.mem_cons.1 hx with rfl | hx
    · rfl
    · exact (h.erase l).slots x hx
  nodup := by
    refine List.nodup_cons.2 ⟨fun hmem => ?_, (h.erase l).nodup⟩
    obtain ⟨x, hx, hslot⟩ := List.mem_map.1 hmem
    exact (by simpa using (List.mem_filter.1 hx).2 : x.1 ≠ Slot.of l) hslot

theorem makeFoldersFrom (h : d.IsProper) (p : Path) (here : Location) :
    (Disk.makeFoldersFrom p here d).2.IsProper := by
  induction p generalizing d here with
  | nil => exact h
  | cons part p ih =>
    unfold Disk.makeFoldersFrom
    cases d.enter here part with
    | error e => exact h
    | ok l =>
      dsimp only
      cases d.get? l with
      | none => exact ih (h.set l .folder) l
      | some e =>
        cases e with
        | folder => exact ih h l
        | file content => exact h

theorem makeFolders (h : d.IsProper) (p : Path) : (d.makeFolders p).2.IsProper := by
  unfold Disk.makeFolders
  split
  · exact h.makeFoldersFrom p []
  · exact h

/-! ## Listings -/

/-- The entries are what is at their locations. -/
theorem mem_entries (h : d.IsProper) (hl : l ≠ []) :
    (Slot.of l, e) ∈ d.entries ↔ d.get? l = some e := by
  obtain ⟨entries⟩ := d
  have hnodup : (entries.map Prod.fst).Nodup := h.nodup
  rw [get?, if_neg hl]
  show (Slot.of l, e) ∈ entries ↔ entries.lookup (Slot.of l) = some e
  clear h
  induction entries with
  | nil => simp
  | cons x rest ih =>
    obtain ⟨slot, entry⟩ := x
    obtain ⟨hslot, hrest⟩ := List.nodup_cons.1 hnodup
    rw [List.lookup_cons, List.mem_cons, ih hrest]
    by_cases hs : Slot.of l = slot
    · subst hs
      have hnone : rest.lookup (Slot.of l) = none := by
        rw [List.lookup_eq_none_iff]
        intro y hy
        simp only [bne_iff_ne, ne_eq]
        exact fun hys => hslot (List.mem_map.2 ⟨y, hy, hys.symm⟩)
      simp [hnone, eq_comm]
    · have hne : (Slot.of l == slot) = false := by simpa using hs
      simp [hne, hs]

/-- The files below a location are those that lie behind it. -/
theorem mem_filesBelow (h : d.IsProper) (hl : l ≠ []) {names : Location} {content : Bytes} :
    (names, content) ∈ d.filesBelow l ↔ d.get? (l ++ names) = some (.file content) := by
  rw [← h.mem_entries (by simp [hl]), filesBelow, List.mem_filterMap]
  constructor
  · rintro ⟨⟨slot, entry⟩, hmem, hfile⟩
    have hslot := h.slots _ hmem
    dsimp only at hfile hslot
    split at hfile
    · next content' rest hrest =>
      cases hfile
      rw [hslot, Text.eq_append_of_isPrefixOf? hrest] at hmem
      exact hmem
    · cases hfile
  · intro hmem
    refine ⟨_, hmem, ?_⟩
    dsimp only [Slot.of]
    rw [Text.isPrefixOf?_append]

/-- The names right below a location are those under which something is. -/
theorem mem_children (h : d.IsProper) {name : String} :
    name ∈ d.children l ↔ d.get? (l ++ [name]) ≠ none := by
  rw [Option.ne_none_iff_exists', children, List.mem_filterMap]
  simp only [← h.mem_entries (List.append_ne_nil_of_right_ne_nil l (List.cons_ne_nil name []))]
  constructor
  · rintro ⟨⟨slot, entry⟩, hmem, hname⟩
    have hslot := h.slots _ hmem
    dsimp only at hname hslot
    split at hname
    · next name' hrest =>
      cases hname
      rw [hslot, Text.eq_append_of_isPrefixOf? hrest] at hmem
      exact ⟨entry, hmem⟩
    · cases hname
  · rintro ⟨entry, hmem⟩
    refine ⟨_, hmem, ?_⟩
    dsimp only [Slot.of]
    rw [Text.isPrefixOf?_append]

/-! ## Nothing is listed twice -/

/-- What is picked from some entries by their names is named as entries in their order. -/
theorem map_filterMap_sublist {entries : List (Slot × Entry)} {pick : Slot × Entry → Option α}
    {namesOf : α → Location} (hpick : ∀ x a, pick x = some a → namesOf a = x.1.names) :
    ((entries.filterMap pick).map namesOf).Sublist (entries.map fun x => x.1.names) := by
  induction entries with
  | nil => exact List.Sublist.refl _
  | cons x rest ih =>
    cases hx : pick x with
    | none =>
      rw [List.filterMap_cons_none hx, List.map_cons]
      exact ih.cons _
    | some a =>
      rw [List.filterMap_cons_some hx, List.map_cons, List.map_cons, hpick x a hx]
      exact ih.cons_cons _

theorem nodup_names (h : d.IsProper) : (d.entries.map fun x => x.1.names).Nodup := by
  have hnames : (d.entries.map fun x => x.1.names) = (d.entries.map Prod.fst).map Slot.names := by
    rw [List.map_map]
    rfl
  rw [hnames]
  refine List.Nodup.map_on ?_ h.nodup
  intro a ha b hb hab
  obtain ⟨x, hx, rfl⟩ := List.mem_map.1 ha
  obtain ⟨y, hy, rfl⟩ := List.mem_map.1 hb
  rw [h.slots x hx, h.slots y hy, hab]

theorem nodup_filesBelow (h : d.IsProper) (l : Location) :
    ((d.filesBelow l).map Prod.fst).Nodup := by
  have hsub : ((d.filesBelow l).map fun f => l ++ f.1).Sublist
      (d.entries.map fun x => x.1.names) := by
    refine map_filterMap_sublist fun x a hx => ?_
    obtain ⟨slot, entry⟩ := x
    dsimp only at hx ⊢
    split at hx
    · next rest hrest =>
      cases hx
      exact (Text.eq_append_of_isPrefixOf? hrest).symm
    · cases hx
  have hnodup := h.nodup_names.sublist hsub
  rw [show (fun f : Location × Bytes => l ++ f.1) = (l ++ ·) ∘ Prod.fst from rfl,
    ← List.map_map] at hnodup
  exact hnodup.of_map _

theorem nodup_children (h : d.IsProper) (l : Location) : (d.children l).Nodup := by
  have hsub : ((d.children l).map fun name => l ++ [name]).Sublist
      (d.entries.map fun x => x.1.names) := by
    refine map_filterMap_sublist fun x a hx => ?_
    obtain ⟨slot, entry⟩ := x
    dsimp only at hx ⊢
    split at hx
    · next name hrest =>
      cases hx
      exact (Text.eq_append_of_isPrefixOf? hrest).symm
    · cases hx
  exact (h.nodup_names.sublist hsub).of_map _

end IsProper

end Disk

/-! ## Worlds -/

/-- Every step keeps a disk proper. -/
theorem World.perform_isProper {w : World} (h : w.disk.IsProper) (s : Step) :
    (w.perform s).2.disk.IsProper := by
  generalize (w.perform s).2.disk = d', w.perform_touched s = htouched
  cases htouched with
  | not => exact h
  | folders p hp => exact h.makeFolders p
  | put p hp content => exact h.set _ _
  | drop p hp => exact h.erase _
  | move p q hp hq content => exact (h.erase _).set _ _

/-- A disk that is proper stays so over a whole run. -/
theorem Job.run_isProper (j : Job α) {w : World} (h : w.disk.IsProper) :
    (j.run w).2.disk.IsProper := by
  induction j generalizing w with
  | done a => exact h
  | step s next ih => exact ih _ (World.perform_isProper h s)

end PullThrough
