import Mathlib.Algebra.GroupWithZero.Nat
import Mathlib.Data.List.Dedup
import Mathlib.Data.List.Perm.Basic
import Mathlib.Data.List.TakeDrop
import Mathlib.Data.List.TakeWhile
import PullThrough.Proofs.Disk.Listing
import PullThrough.Proofs.Name.Chars
import PullThrough.Proofs.Store.Changes
import PullThrough.Store.Stats
/-
  What the counts of a cache are made of.

  Counting lists the files of each kind for all groups (`Store.filesOfKind`) and looks at the
  endings of their names (`Store.stats_comesTo`). A record ends in `json`, a scratch file in `tmp`,
  and what is named like a digest has no ending, whatever the names are made of that come before. On
  a proper disk, and if only files and folders of places are there (`Store.IsFiled`), each file is
  listed once (`Store.IsFiled.nodup_filesOfKind`), if its folder can be found
  (`Store.IsFiled.mem_filesOfKind`).
-/
namespace PullThrough

/-! ## Endings -/

namespace Path

variable {stem ending name : List Char}

/-- The ending of a name is what is behind its last point. -/
theorem suffix?_append (hstem : stem ≠ []) (h : '.' ∉ ending) :
    suffix? (stem ++ '.' :: ending) = some ending := by
  have hclear : ∀ c ∈ ending.reverse, (c != '.') = true := by
    intro c hc
    rw [bne_iff_ne]
    rintro rfl
    exact h (List.mem_reverse.1 hc)
  obtain ⟨first, rest, hfirst⟩ := List.exists_cons_of_ne_nil (List.reverse_ne_nil_iff.2 hstem)
  have hrev : (stem ++ '.' :: ending).reverse = ending.reverse ++ '.' :: first :: rest := by
    simp [hfirst]
  rw [suffix?, hrev, List.span_eq_takeWhile_dropWhile, List.takeWhile_append_of_pos hclear,
    List.dropWhile_append_of_pos hclear, List.takeWhile_cons_of_neg (by decide),
    List.dropWhile_cons_of_neg (by decide)]
  simp

theorem suffix?_eq_none (h : '.' ∉ name) : suffix? name = none := by
  have hclear : ∀ c ∈ name.reverse, (c != '.') = true := by
    intro c hc
    rw [bne_iff_ne]
    rintro rfl
    exact h (List.mem_reverse.1 hc)
  rw [suffix?, List.span_eq_takeWhile_dropWhile, List.dropWhile_eq_nil_iff.2 hclear]

end Path

namespace Store

variable {names : Location}

/-- The names of the group and of the kind do not count for the ending. -/
theorem endingOf_behind (group : String) {kind : String} (hkind : '.' ∉ kind.toList)
    (names : Location) : endingOf (group :: kind :: names) = endingOf names := by
  cases names with
  | nil => simp [endingOf, Path.suffix?_eq_none hkind]
  | cons name names => simp [endingOf]

theorem endingOf_names (x : Place) :
    endingOf x.names = (Path.suffix? x.file.toList).map String.ofList := by
  have hlast : x.names = x.group :: x.kind :: (Path.ofText x.image ++ [x.folder]) ++ [x.file] := by
    simp [Place.names]
  rw [endingOf, hlast, List.getLast?_concat, Option.bind_some]

theorem endingOf_record {group image tag : String} (ht : Name.checkTag tag = .ok ()) :
    endingOf (Place.record group image tag).names = some "json" := by
  have hstem : (tagName tag).toList ≠ [] := by
    have hne := (Name.isTame_of_checkTag ht).isPlain.1
    intro hnil
    refine hne (String.toList_inj.1 ?_)
    simpa [tagName] using hnil
  have hfile : (Place.record group image tag).file.toList =
      (tagName tag).toList ++ '.' :: "json".toList := by
    simp [Place.record]
  rw [endingOf_names, hfile, Path.suffix?_append hstem (by decide)]
  rfl

theorem endingOf_hex {x : Place} {digest : Digest} (h : x.file = digest.hex) :
    endingOf x.names = none := by
  rw [endingOf_names, h, Path.suffix?_eq_none (Digest.not_mem_hex '.' digest (by decide))]
  rfl

theorem endingOf_scratch (x : Place) (label : String) :
    endingOf (x.scratch label).names = some "tmp" := by
  have hfile : (x.scratch label).file.toList =
      (x.file ++ "." ++ label).toList ++ '.' :: "tmp".toList := by
    simp [Place.scratch]
  rw [endingOf_names, hfile, Path.suffix?_append (by simp) (by decide)]
  rfl

/-! ## Counting -/

variable {s : Store} {d : Disk}

/-- The files of a kind that some groups have, by their names behind the folder of all
groups, and their sizes. -/
def filesOfGroups (s : Store) (d : Disk) (kind : String) (groups : List String) :
    List (Location × Nat) :=
  groups.flatMap fun group =>
    (World.filesAt d (s.groupsFolder ++ [group] ++ [kind])).map fun f => (group :: kind :: f.1, f.2)

/-- The files of a kind that all groups have. -/
def filesOfKind (s : Store) (d : Disk) (kind : String) : List (Location × Nat) :=
  s.filesOfGroups d kind (World.childrenAt d s.groupsFolder)

theorem octetsOf_eq_sum (files : List (Location × Nat)) :
    octetsOf files = (files.map Prod.snd).sum := by
  induction files with
  | nil => rfl
  | cons f rest ih => rw [octetsOf, ih, List.map_cons, List.sum_cons]

theorem countRecords_append (stats : CacheStats) (files files' : List (Location × Nat)) :
    countRecords stats (files ++ files') = countRecords (countRecords stats files) files' := by
  simp only [countRecords, List.countP_append, Nat.add_assoc]

theorem countBlobs_append (stats : CacheStats) (files files' : List (Location × Nat)) :
    countBlobs stats (files ++ files') = countBlobs (countBlobs stats files) files' := by
  simp only [countBlobs, octetsOf_eq_sum, List.filter_append, List.length_append, List.map_append,
    List.sum_append, Nat.add_assoc]

/-- Records and blobs are counted apart. -/
theorem countRecords_countBlobs (stats : CacheStats) (files files' : List (Location × Nat)) :
    countRecords (countBlobs stats files) files' =
      countBlobs (countRecords stats files') files := rfl

theorem countRecords_behind (stats : CacheStats) (group : String) (files : List (Location × Nat)) :
    countRecords stats (files.map fun f => (group :: "manifests" :: f.1, f.2)) =
      countRecords stats files := by
  simp only [countRecords, List.countP_map]
  congr 3
  funext f
  simp [endingOf_behind group (by decide : '.' ∉ "manifests".toList)]

theorem countBlobs_behind (stats : CacheStats) (group : String) (files : List (Location × Nat)) :
    countBlobs stats (files.map fun f => (group :: "blobs" :: f.1, f.2)) =
      countBlobs stats files := by
  have hfilter : (files.map fun f => (group :: "blobs" :: f.1, f.2)).filter
        (fun f => endingOf f.1 != some "tmp") =
      (files.filter fun f => endingOf f.1 != some "tmp").map
        fun f => (group :: "blobs" :: f.1, f.2) := by
    rw [List.filter_map]
    congr 2
    funext f
    simp [endingOf_behind group (by decide : '.' ∉ "blobs".toList)]
  simp only [countBlobs, octetsOf_eq_sum, hfilter, List.length_map, List.map_map]
  rfl

/-- The counts over some groups are those of their records and of their blobs. -/
theorem countGroups_comesTo (stats : CacheStats) (groups : List String) (w : World) :
    Job.ComesTo (s.countGroups stats groups).run w
      (.ok (countBlobs (countRecords stats (s.filesOfGroups w.disk "manifests" groups))
        (s.filesOfGroups w.disk "blobs" groups))) w := by
  induction groups generalizing stats with
  | nil => exact Job.ComesTo.done _ _
  | cons group rest ih =>
    have hrecords : countRecords stats (s.filesOfGroups w.disk "manifests" (group :: rest)) =
        countRecords (countRecords stats (World.filesAt w.disk (s.groupsFolder ++ [group] ++
          ["manifests"]))) (s.filesOfGroups w.disk "manifests" rest) := by
      rw [filesOfGroups, List.flatMap_cons, countRecords_append, countRecords_behind]
      rfl
    have hblobs (stats : CacheStats) :
        countBlobs stats (s.filesOfGroups w.disk "blobs" (group :: rest)) =
          countBlobs (countBlobs stats (World.filesAt w.disk (s.groupsFolder ++ [group] ++
            ["blobs"]))) (s.filesOfGroups w.disk "blobs" rest) := by
      rw [filesOfGroups, List.flatMap_cons, countBlobs_append, countBlobs_behind]
      rfl
    rw [hrecords, hblobs, ← countRecords_countBlobs]
    exact Job.ComesTo.step rfl (Job.ComesTo.step rfl (ih _))

/-- What a cache counts are the files of its groups. -/
theorem stats_comesTo (s : Store) (w : World) :
    Job.ComesTo s.stats.run w
      (.ok (countBlobs (countRecords {} (s.filesOfKind w.disk "manifests"))
        (s.filesOfKind w.disk "blobs"))) w :=
  Job.ComesTo.step rfl (countGroups_comesTo {} _ w)

/-! ## Filed caches -/

/-- Behind the folder of all groups there are folders on the way to places, files at places and
scratch files beside them, and nothing else. -/
structure IsFiled (s : Store) (allowed : Place → Prop) (d : Disk) : Prop where
  folders : ∀ names, names ≠ [] → d.get? (s.root ++ names) = some .folder →
    ∃ x, allowed x ∧ names <+: x.names.dropLast
  files : ∀ names content, d.get? (s.root ++ names) = some (.file content) →
    ∃ x, allowed x ∧ (names = x.names ∨ ∃ label, names = (x.scratch label).names)

variable {allowed allowed' : Place → Prop} {d' : Disk}

theorem IsFiled.of_isEmpty (h : s.IsEmpty d) : s.IsFiled allowed d where
  folders names hne hf := by
    rw [h.nothing names hne] at hf
    cases hf
  files names content hf := by
    cases names with
    | nil =>
      rw [List.append_nil, root_of_ready h.ready] at hf
      cases hf
    | cons name names =>
      rw [h.nothing _ (List.cons_ne_nil _ _)] at hf
      cases hf

theorem IsFiled.change (h : s.IsFiled allowed d) (ht : s.IsTidy d)
    (hplain : ∀ x, allowed x → x.IsPlain) (hc : s.Change allowed d d') : s.IsFiled allowed d' where
  folders names hne hf := by
    rcases hc.folder_cases ht hplain hf with hold | hnew
    · exact h.folders names hne hold
    · exact hnew
  files names content hf := by
    rcases hc.file_cases hf with hold | ⟨x, hx, hl | ⟨label, hl⟩⟩
    · exact h.files names content hold
    · exact ⟨x, hx, .inl (List.append_cancel_left hl)⟩
    · exact ⟨x, hx, .inr ⟨label, List.append_cancel_left hl⟩⟩

theorem filesAt_eq_nil {p : Path} (h : d.find p ≠ .ok .folder) : World.filesAt d p = [] := by
  unfold World.filesAt
  split
  · next hfind _ => exact absurd hfind h
  · rfl

/-- The files below a folder of a group that can be found. -/
theorem filesAt_of_find {group kind : String} (hgroup : Path.IsPlain group)
    (hkind : Path.IsPlain kind)
    (hfind : d.find (s.groupsFolder ++ [group] ++ [kind]) = .ok .folder) :
    World.filesAt d (s.groupsFolder ++ [group] ++ [kind]) =
      (d.filesBelow (s.root ++ [group, kind])).map fun f => (f.1, f.2.length) := by
  have hlocation : Path.location (s.groupsFolder ++ [group] ++ [kind]) =
      s.root ++ [group, kind] := by
    rw [List.append_assoc, Path.location_append_plain _ (by simp [hgroup, hkind])]
    rfl
  rw [World.filesAt, hfind, (Disk.find_eq_ok hfind).1, hlocation]

namespace IsFiled

variable {kind : String} (h : s.IsFiled allowed d) (ht : s.IsTidy d) (hp : d.IsProper)
  (hplain : ∀ x, allowed x → x.IsPlain)
include h ht hp hplain

omit ht hp in
/-- A folder right behind the folder of all groups has a plain name. -/
theorem isPlain_of_folder {group : String} (hfolder : d.get? (s.root ++ [group]) = some .folder) :
    Path.IsPlain group := by
  obtain ⟨x, hx, hway⟩ := h.folders [group] (List.cons_ne_nil _ _) hfolder
  exact hplain x hx group (List.dropLast_subset _ (hway.subset (List.mem_singleton.2 rfl)))

/-- The groups are the folders right behind the folder of all groups. -/
theorem mem_groups {group : String} : group ∈ World.childrenAt d s.groupsFolder ↔
    Path.IsPlain group ∧ d.get? (s.root ++ [group]) = some .folder := by
  have hchildren : World.childrenAt d s.groupsFolder = d.children s.root := by
    have hl := (Disk.find_eq_ok ht.ready).1
    rw [World.childrenAt, ht.ready, hl]
    rfl
  rw [hchildren, hp.mem_children]
  constructor
  · intro hsome
    cases hget : d.get? (s.root ++ [group]) with
    | none => exact absurd hget hsome
    | some e =>
      cases e with
      | folder => exact ⟨h.isPlain_of_folder hplain hget, rfl⟩
      | file content =>
        obtain ⟨x, hx, hnames | ⟨label, hnames⟩⟩ := h.files [group] content hget
        · simp [Place.names] at hnames
        · simp [Place.names] at hnames
  · rintro ⟨-, hfolder⟩ hnone
    rw [hfolder] at hnone
    cases hnone

/-- The files of a kind are those behind folders that can be found. -/
theorem mem_filesOfKind (hkind : Path.IsPlain kind) {names : Location} {size : Nat} :
    (names, size) ∈ s.filesOfKind d kind ↔
      ∃ group rest content, names = group :: kind :: rest ∧ content.length = size ∧
        d.find (s.groupsFolder ++ [group] ++ [kind]) = .ok .folder ∧
          d.get? (s.root ++ names) = some (.file content) := by
  rw [filesOfKind, filesOfGroups, List.mem_flatMap]
  constructor
  · rintro ⟨group, hgroup, hmem⟩
    have hgroup := ((h.mem_groups ht hp hplain).1 hgroup).1
    by_cases hfind : d.find (s.groupsFolder ++ [group] ++ [kind]) = .ok .folder
    · rw [filesAt_of_find hgroup hkind hfind, List.map_map] at hmem
      obtain ⟨⟨rest, content⟩, hfile, hnames⟩ := List.mem_map.1 hmem
      cases hnames
      rw [hp.mem_filesBelow (by simp), List.append_assoc] at hfile
      exact ⟨group, rest, content, rfl, rfl, hfind, hfile⟩
    · rw [filesAt_eq_nil hfind] at hmem
      cases hmem
  · rintro ⟨group, rest, content, rfl, rfl, hfind, hget⟩
    have hway : [group] ++ [kind] <+: group :: kind :: rest := ⟨rest, rfl⟩
    have hfolder : d.get? (s.root ++ [group]) = some .folder :=
      ht.below (by rw [hget]; simp) hway
    have hgroup := h.isPlain_of_folder hplain hfolder
    refine ⟨group, (h.mem_groups ht hp hplain).2 ⟨hgroup, hfolder⟩, ?_⟩
    rw [filesAt_of_find hgroup hkind hfind, List.map_map]
    refine List.mem_map.2 ⟨(rest, content), ?_, rfl⟩
    rw [hp.mem_filesBelow (by simp), List.append_assoc]
    exact hget

/-- A file that is found at its place is listed with its size. -/
theorem mem_filesOfKind_of_find {x : Place} (hx : x.IsPlain) {content : Bytes}
    (hfind : d.find (s.pathOf x) = .ok (.file content)) :
    (x.names, content.length) ∈ s.filesOfKind d x.kind := by
  obtain ⟨part, rest, hparts⟩ : ∃ part rest, Path.ofText x.image ++ [x.folder, x.file] =
      part :: rest :=
    List.exists_cons_of_ne_nil (by simp)
  have hpath : s.pathOf x = s.groupsFolder ++ [x.group] ++ [x.kind] ++ part :: rest := by
    rw [pathOf, Place.names, hparts]
    simp
  have hget := (Disk.find_eq_ok hfind).2
  rw [location_pathOf s hx] at hget
  rw [hpath] at hfind
  exact (h.mem_filesOfKind ht hp hplain (hx x.kind (by simp [Place.names]))).2
    ⟨x.group, _, content, rfl, rfl, Disk.find_folder_of_find hfind, hget⟩

/-- No file of a kind is listed twice. -/
theorem nodup_filesOfKind (hkind : Path.IsPlain kind) :
    ((s.filesOfKind d kind).map Prod.fst).Nodup := by
  have hgroups : (World.childrenAt d s.groupsFolder).Nodup := by
    unfold World.childrenAt
    split
    · exact hp.nodup_children _
    · exact List.nodup_nil
  rw [filesOfKind, filesOfGroups, List.map_flatMap, List.nodup_flatMap]
  constructor
  · intro group hgroup
    have hgroup := ((h.mem_groups ht hp hplain).1 hgroup).1
    by_cases hfind : d.find (s.groupsFolder ++ [group] ++ [kind]) = .ok .folder
    · have hnames : ((d.filesBelow (s.root ++ [group, kind])).map fun f => (f.1, f.2.length)).map
          (Prod.fst ∘ fun f : Location × Nat => (group :: kind :: f.1, f.2)) =
            ((d.filesBelow (s.root ++ [group, kind])).map Prod.fst).map (group :: kind :: ·) := by
        rw [List.map_map, List.map_map]
        rfl
      rw [filesAt_of_find hgroup hkind hfind, List.map_map, hnames]
      exact (hp.nodup_filesBelow _).map fun a b hab => by simpa using hab
    · rw [filesAt_eq_nil hfind]
      exact List.nodup_nil
  · -- files of two groups differ in the name of the group
    refine hgroups.imp fun hne => ?_
    intro names hmem hmem'
    simp only [List.map_map, List.mem_map, Function.comp_apply] at hmem hmem'
    obtain ⟨f, -, rfl⟩ := hmem
    obtain ⟨f', -, heq⟩ := hmem'
    exact hne (List.cons.inj heq).1.symm

end IsFiled

end Store

end PullThrough
