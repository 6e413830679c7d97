import PullThrough.Proofs.Job.Pairs
import PullThrough.Proofs.Store.Cleanup
import PullThrough.Proofs.Store.Reading
/-
  One group in two worlds.

  What a cache does for a group depends on what it holds for that group, and on nothing else in it.
  So it does the same in two worlds that hold the same for the group (`Twins.Beside`). The worlds
  may even differ in the numbers of scratch files. While a scratch file is in use, the disks are
  seen with its two names in place of each other (`Store.draftView`); before and after that no
  scratch file is there to tell the disks apart (`Store.IsTrim`).
-/
namespace PullThrough

open PullThrough.Path (location)

/-! ## Views of a group -/

/-- A view that takes in all that belongs to a group, each location where it is. -/
structure View.Covers (v : View) (s : Store) (group : String) : Prop where
  there : ∀ l, v.there l = l
  way : ∀ q, q <+: s.groupsFolder → v.sees (location q)
  below : ∀ names, v.sees (s.root ++ group :: names)

theorem View.Covers.walks {v : View} {s : Store} {x : Place} (h : v.Covers s x.group)
    (hx : x.IsPlain) : v.Walks (s.pathOf x) := by
  intro q hq
  refine ⟨?_, h.there _⟩
  rcases List.prefix_or_prefix_of_prefix hq (List.prefix_append s.groupsFolder _) with
    hw | ⟨names, rfl⟩
  · exact h.way q hw
  · have hn := (List.prefix_append_right_inj _).1 hq
    rw [Path.location_append_plain _ fun n hn' => hx n (hn.subset hn')]
    cases names with
    | nil =>
      rw [List.append_nil]
      exact h.way _ (List.prefix_refl _)
    | cons first rest =>
      rw [(List.cons_prefix_cons.1 hn).1]
      exact h.below rest

theorem Store.pathOf_ne_nil (s : Store) (x : Place) : s.pathOf x ≠ [] := by
  simp [pathOf, Place.names]

theorem View.Covers.leads {v : View} {s : Store} {x : Place} (h : v.Covers s x.group)
    (hx : x.IsPlain) : v.Leads (s.pathOf x) (s.pathOf x) := (h.walks hx).leads (s.pathOf_ne_nil x)

/-! ## Records up to their times -/

/-- Two records that differ in their times at most. -/
structure ManifestRecord.IsLike (times : Instant → Instant → Prop)
    (r r' : ManifestRecord) : Prop where
  rest : r' = { r with createdAt := r'.createdAt, updatedAt := r'.updatedAt }
  created : times r.createdAt r'.createdAt
  updated : times r.updatedAt r'.updatedAt

theorem ManifestRecord.IsLike.eq {r r' : ManifestRecord} (h : IsLike Eq r r') : r' = r := by
  rw [h.rest, ← h.created, ← h.updated]

/-- The view under which records count as the same if they differ in their times at most. -/
def View.upTo (v : View) (times : Instant → Instant → Prop) : View :=
  { v with
    same := fun a b => v.same a b ∨
      ∃ r r', ManifestRecord.IsLike times r r' ∧ a = r.encode ∧ b = r'.encode
    refl := fun content => .inl (v.refl content) }

/-- Records with the same times are the same. -/
theorem View.eq_of_upTo {v : View} {a b : Bytes} (hexact : ∀ a b, v.same a b → a = b)
    (h : (v.upTo Eq).same a b) : a = b := by
  rcases h with h | ⟨r, r', hlike, rfl, rfl⟩
  · exact hexact a b h
  · rw [hlike.eq]

theorem View.Covers.upTo {v : View} {s : Store} {group : String} (h : v.Covers s group)
    (times : Instant → Instant → Prop) : (v.upTo times).Covers s group := ⟨h.there, h.way, h.below⟩

/-- All that belongs to a group, and the way to it. -/
def Store.groupView (s : Store) (group : String) : View :=
  .plain (fun l => (∃ q, q <+: s.groupsFolder ∧ l = location q) ∨
    ∃ names, l = s.root ++ group :: names)
    Eq fun _ => rfl

theorem Store.groupView_covers (s : Store) (group : String) :
    (s.groupView group).Covers s group where
  there _ := rfl
  way q hq := .inl ⟨q, hq, rfl⟩
  below names := .inr ⟨names, rfl⟩

/-- A change at places of one group leaves the other groups alone. -/
theorem Store.Change.elsewhere {s : Store} {allowed : Place → Prop} {d d' : Disk}
    {group other : String} (h : s.Change allowed d d') (ht : s.IsTidy d)
    (hallowed : ∀ x, allowed x → x.IsPlain ∧ x.group = group) (hne : other ≠ group)
    (names : List String) :
    d'.get? (s.root ++ other :: names) = d.get? (s.root ++ other :: names) := by
  have hplace {x : Place} (hx : x.group = group) : s.root ++ other :: names ≠ s.locationOf x := by
    intro hl
    exact hne ((List.cons.inj (List.append_cancel_left hl)).1.trans hx)
  cases h with
  | folders x hx =>
    obtain ⟨hplain, hgroup⟩ := hallowed x hx
    rcases Store.folders_of_ready ht.ready (fun n hn => hplain n (List.dropLast_subset _ hn))
      (s.root ++ other :: names) with hd | ⟨-, -, q, part, hq, hl, -⟩
    · exact hd
    · rw [List.append_assoc] at hl
      rw [← List.append_cancel_left hl, Place.names, List.dropLast_cons_of_ne_nil (by simp)] at hq
      exact absurd ((List.cons_prefix_cons.1 hq).1.trans hgroup) hne
  | fill x hx label content hp hf =>
    exact Disk.get?_set_of_ne (hplace (x := x.scratch label) (hallowed x hx).2)
  | discard x hx label content hs =>
    exact Disk.get?_erase_of_ne (hplace (x := x.scratch label) (hallowed x hx).2)
  | place x hx label content hfit hs hp hf =>
    rw [Disk.get?_set_of_ne (hplace (hallowed x hx).2),
      Disk.get?_erase_of_ne (hplace (x := x.scratch label) (hallowed x hx).2)]

/-! ## Groups without scratch files -/

/-- Only scratch files have such a name, unless an image is named like one. -/
def Store.IsScratchName (s : Store) (name : String) : Prop :=
  ∃ file n, name = file ++ "." ++ s.scratchLabel n ++ ".tmp"

/-- No name of the place below its group is that of a scratch file. -/
def Place.IsTrim (x : Place) (s : Store) : Prop := ∀ n ∈ x.names.tail, ¬ s.IsScratchName n

namespace Store

variable {s : Store} {group : String} {allowed : Place → Prop} {x : Place} {d d' : Disk}
  {w w' : World}

/-- A cache in order, that has nothing for a group that is named like a scratch file. -/
structure IsTrim (s : Store) (group : String) (d : Disk) : Prop where
  isTidy : s.IsTidy d
  free : ∀ names name, s.IsScratchName name → d.get? (s.root ++ group :: (names ++ [name])) = none

theorem IsTrim.scratch (h : s.IsTrim x.group d) (n : Nat) :
    d.get? (s.locationOf (x.scratch (s.scratchLabel n))) = none := by
  have hfree := h.free (x.kind :: (Path.ofText x.image ++ [x.folder])) _ ⟨x.file, n, rfl⟩
  rw [locationOf, Place.names]
  simpa [Place.scratch] using hfree

/-- Making the folders of a place makes nothing that is named like its scratch files. -/
theorem IsTrim.scratch_makeFolders (h : s.IsTrim x.group d) (hx : x.IsPlain) (n : Nat) :
    (d.makeFolders (s.groupsFolder ++ x.names.dropLast)).2.get?
      (s.locationOf (x.scratch (s.scratchLabel n))) = none := by
  rcases folders_of_ready h.isTidy.ready (fun part hp => hx part (List.dropLast_subset _ hp))
    (s.locationOf (x.scratch (s.scratchLabel n))) with hd | ⟨-, -, q, part, hq, hl, -⟩
  · rw [hd]
    exact h.scratch n
  · rw [locationOf_eq, Place.dropLast_scratch, List.append_assoc, List.append_assoc] at hl
    obtain ⟨rfl, -⟩ := List.append_inj' (List.append_cancel_left hl) rfl
    have hlength := hq.length_le
    rw [List.length_append, List.length_singleton] at hlength
    omega

/-- What is there for a group once nothing is in work. -/
def IsKeptFor (s : Store) (group : String) (l : Location) : Prop :=
  ∀ names name, s.IsScratchName name → l ≠ s.root ++ group :: (names ++ [name])

theorem isKeptFor_pathOf (group : String) (hx : x.IsPlain) (ht : x.IsTrim s) :
    s.IsKeptFor group (location (s.pathOf x)) := by
  intro names name hname hl
  rw [location_pathOf s hx, locationOf_eq, ← List.cons_append, ← List.append_assoc] at hl
  have hfile := List.singleton_inj.1 (List.append_inj' hl rfl).2
  exact ht x.file (by simp [Place.names]) (hfile ▸ hname)

/-- A job that gives back its scratch files leaves a trim cache trim. -/
theorem IsTrim.run {α : Type} {j : Job α} {Q : α → World → Prop} (h : s.IsTrim group w.disk)
    (hplain : ∀ x, allowed x → x.IsPlain) (hsound : ∀ x, allowed x → x.IsSound)
    (htrim : ∀ x, allowed x → x.IsTrim s) (hd : j.Does (s.Change allowed) w Q)
    (ht : j.Tends (s.IsKeptFor group) [] fun _ held => held = []) :
    s.IsTrim group (j.run w).2.disk := by
  have hfolders : s.IsTidy (j.run w).2.disk ∧ ∀ names name, s.IsScratchName name →
      (j.run w).2.disk.get? (s.root ++ group :: (names ++ [name])) ≠ some .folder := by
    refine (hd.keeps (I := fun d => s.IsTidy d ∧ ∀ names name, s.IsScratchName name →
      d.get? (s.root ++ group :: (names ++ [name])) ≠ some .folder) ?_ ⟨h.isTidy, ?_⟩).run.2
    · rintro d d' ⟨htidy, hnone⟩ hc
      refine ⟨htidy.change hplain hsound hc, fun names name hname hf => ?_⟩
      rcases hc.folder_cases htidy hplain hf with hold | ⟨x, hx, hq⟩
      · exact hnone names name hname hold
      · refine htrim x hx name ?_ hname
        rw [Place.names, List.dropLast_cons_of_ne_nil (by simp), List.cons_prefix_cons] at hq
        exact List.dropLast_subset _ (hq.2.subset (by simp))
    · intro names name hname
      rw [h.free names name hname]
      simp
  have haccounts : Accounts (s.IsKeptFor group) ([] ++ []) w.disk := by
    refine ⟨fun l content hf => .inl ?_, fun p hp => by cases hp⟩
    rintro names name hname rfl
    rw [h.free names name hname] at hf
    cases hf
  obtain ⟨held, rfl, hend⟩ := ht.run haccounts
  refine ⟨hfolders.1, fun names name hname => ?_⟩
  cases hget : (j.run w).2.disk.get? (s.root ++ group :: (names ++ [name])) with
  | none => rfl
  | some e =>
    cases e with
    | folder => exact absurd hget (hfolders.2 names name hname)
    | file content =>
      obtain hkept | ⟨p, hp, -⟩ := hend.files _ content hget
      · exact absurd rfl (hkept names name hname)
      · cases hp

/-- A scratch file for the place can be reached by its path. -/
structure HasRoomFor (s : Store) (x : Place) (n : Nat) : Prop where
  check : Disk.checkPath (s.pathOf (x.scratch (s.scratchLabel n))) = .ok ()
  size : (x.scratch (s.scratchLabel n)).file.utf8ByteSize ≤ Disk.maxName

/-- The view with the scratch files of two writers in place of each other. -/
def draftView (s : Store) (v : View) (x : Place) (n n' : Nat) : View :=
  v.swap (s.locationOf (x.scratch (s.scratchLabel n)))
    (s.locationOf (x.scratch (s.scratchLabel n')))

section Drafts

variable {v : View} {n n' : Nat} (hcovers : v.Covers s x.group) (hx : x.IsPlain)
include hcovers hx

theorem walks_folders : v.Walks (s.groupsFolder ++ x.names.dropLast) :=
  (hcovers.walks hx).initial (by rw [pathOf_concat]; exact List.prefix_append _ _)

/-- Folders lie where they are, if none of them is a scratch file. -/
theorem draftView_walks (hpast : ∀ m q, q <+: s.groupsFolder ++ x.names.dropLast →
    location q ≠ s.locationOf (x.scratch (s.scratchLabel m))) :
    (s.draftView v x n n').Walks (s.groupsFolder ++ x.names.dropLast) :=
  (walks_folders hcovers hx).swap (hpast n) (hpast n')

variable (hway : (s.draftView v x n n').Walks (s.groupsFolder ++ x.names.dropLast))
include hway

/-- The scratch files are in place of each other. -/
theorem draftView_source (hroom : s.HasRoomFor x n) (hroom' : s.HasRoomFor x n') :
    (s.draftView v x n n').Leads (s.pathOf (x.scratch (s.scratchLabel n)))
      (s.pathOf (x.scratch (s.scratchLabel n'))) := by
  have hconcat (m : Nat) : s.pathOf (x.scratch (s.scratchLabel m)) =
      (s.groupsFolder ++ x.names.dropLast) ++ [(x.scratch (s.scratchLabel m)).file] := by
    rw [pathOf_concat, Place.dropLast_scratch]
  have hlocation (m : Nat) : location ((s.groupsFolder ++ x.names.dropLast) ++
      [(x.scratch (s.scratchLabel m)).file]) = s.locationOf (x.scratch (s.scratchLabel m)) := by
    rw [← hconcat, location_pathOf s (hx.scratch _)]
  have hscratch : v.Covers s (x.scratch (s.scratchLabel n)).group := hcovers
  have hsees := (hscratch.walks (hx.scratch _)) _ (List.prefix_refl _)
  have hname (m : Nat) (hroom : s.HasRoomFor x m) :
      Path.IsName (x.scratch (s.scratchLabel m)).file := ⟨Place.isPlain_tmp _, hroom.size⟩
  have hcheck := hroom'.check.trans hroom.check.symm
  unfold draftView at hway ⊢
  rw [hconcat] at hsees hcheck ⊢
  rw [hconcat] at hcheck ⊢
  rw [← hlocation, ← hlocation] at hway ⊢
  exact hway.leads_swap (.inr ⟨hname _ hroom, hname _ hroom'⟩) hcheck hsees.1 hsees.2

/-- What they are meant for lies where it is. -/
theorem draftView_target : (s.draftView v x n n').Leads (s.pathOf x) (s.pathOf x) := by
  refine View.Walks.leads (fun q hq => ?_) (s.pathOf_ne_nil x)
  rw [pathOf_concat] at hq
  rcases List.prefix_concat_iff.1 hq with rfl | hq
  · rw [← pathOf_concat, location_pathOf s hx]
    have hsees := hcovers.walks hx _ (List.prefix_refl _)
    rw [location_pathOf s hx] at hsees
    refine ⟨hsees.1, ?_⟩
    show Equiv.swap _ _ (v.there _) = _
    rw [hsees.2, Equiv.swap_apply_of_ne_of_ne (s.scratch_ne x _).symm (s.scratch_ne x _).symm]
  · exact hway q hq

end Drafts

end Store

namespace Twins

open Store (draftView)

variable {t : Twins} {s : Store} {v v₁ : View} {k : Nat} {x : Place} {n n' : Nat}
  {p p' q : Path} {w w' : World}

/-! ## Scratch files side by side -/

/-- If the numbers of scratch files may differ, then there is room for those of the place, and
nothing else is named like them. -/
def IsBlindTo (t : Twins) (s : Store) (x : Place) : Prop :=
  t.apart → x.IsTrim s ∧ ∀ n, n ≤ 1 → s.HasRoomFor x (t.number + n) ∧ s.HasRoomFor x (t.number' + n)

/-- Two worlds that hold the same for a group. If the numbers of scratch files may differ, there are
no scratch files. -/
structure Beside (t : Twins) (s : Store) (group : String) (v : View) (given : Nat)
    (w w' : World) : Prop
    extends t.Mirror v given w w' where
  trim : t.apart → s.IsTrim group w.disk ∧ s.IsTrim group w'.disk

theorem Beside.mono {group : String} {m : Nat} (h : t.Beside s group v k w w') (hk : k ≤ m) :
    t.Beside s group v m w w' := ⟨h.toMirror.mono hk, h.trim⟩

theorem Beside.upTo {group : String} (h : t.Beside s group v k w w') :
    t.Beside s group (v.upTo t.times) k w w' :=
  ⟨h.toMirror.view (h.disk.mono (fun _ hl => hl) rfl fun _ _ => .inl), h.trim⟩

/-- A scratch file is in use in both worlds. -/
structure IsDraft (t : Twins) (s : Store) (x : Place) (v : View) (n n' : Nat) : Prop where
  numbers : ¬ t.apart → n' = n
  source : (s.draftView v x n n').Leads (s.pathOf (x.scratch (s.scratchLabel n)))
    (s.pathOf (x.scratch (s.scratchLabel n')))
  target : (s.draftView v x n n').Leads (s.pathOf x) (s.pathOf x)

/-- The worlds mirror each other but for the names of a scratch file. -/
def Drafts (t : Twins) (s : Store) (x : Place) (v : View) (given : Nat) (w w' : World) : Prop :=
  ∃ n n', (¬ t.apart → n' = n) ∧ t.Mirror (s.draftView v x n n') given w w'

theorem Mirror.drafts (h : t.Mirror v k w w') : t.Drafts s x v k w w' :=
  ⟨0, 0, fun _ => rfl, by rwa [draftView, View.swap_self]⟩

theorem IsDraft.drafts (h : t.IsDraft s x v n n')
    (hu : t.Mirror (s.draftView v x n n') k w w') : t.Drafts s x v k w w' :=
  ⟨n, n', h.numbers, hu⟩

/-- Without scratch files the names do not matter. -/
theorem Drafts.settle (h : t.Drafts s x v k w w') (hcovers : v.Covers s x.group)
    (htrim : t.apart → s.IsTrim x.group w.disk ∧ s.IsTrim x.group w'.disk) :
    t.Mirror v k w w' := by
  obtain ⟨n, n', hnumbers, hmirror⟩ := h
  by_cases hapart : t.apart
  case neg => rwa [hnumbers hapart, draftView, View.swap_self] at hmirror
  case pos =>
    obtain ⟨htrim, htrim'⟩ := htrim hapart
    exact hmirror.view (hmirror.disk.restore hcovers.there (htrim.scratch _) (htrim.scratch _)
      (htrim'.scratch _) (htrim'.scratch _))

/-- The scratch files of a place, once its folder is there and before they are. -/
theorem Mirror.draft (h : t.Mirror v k w w') (hcovers : v.Covers s x.group) (hx : x.IsPlain)
    (hnumbers : ¬ t.apart → n' = n)
    (hfolder : ∀ q, q <+: s.groupsFolder ++ x.names.dropLast →
      w.disk.get? (location q) = some .folder)
    (hfree : t.apart → (s.HasRoomFor x n ∧ s.HasRoomFor x n') ∧
      ∀ n, w.disk.get? (s.locationOf (x.scratch (s.scratchLabel n))) = none ∧
        w'.disk.get? (s.locationOf (x.scratch (s.scratchLabel n))) = none) :
    t.IsDraft s x v n n' ∧ t.Mirror (s.draftView v x n n') k w w' := by
  by_cases hapart : t.apart
  case neg =>
    obtain rfl := hnumbers hapart
    have hview : s.draftView v x n' n' = v := View.swap_self _ _
    refine ⟨⟨fun _ => rfl, ?_, ?_⟩, ?_⟩
    · rw [hview]
      exact View.Covers.leads (x := x.scratch (s.scratchLabel n')) hcovers (hx.scratch _)
    · rw [hview]
      exact hcovers.leads hx
    · rwa [hview]
  case pos =>
    obtain ⟨⟨hroom, hroom'⟩, hnone⟩ := hfree hapart
    -- no folder on the way is one of the scratch files, since these are not there yet
    have hpast (m : Nat) (q : Path) (hq : q <+: s.groupsFolder ++ x.names.dropLast) :
        location q ≠ s.locationOf (x.scratch (s.scratchLabel m)) := by
      intro hl
      have hf := hfolder q hq
      rw [hl, (hnone m).1] at hf
      cases hf
    have hway : (s.draftView v x n n').Walks (s.groupsFolder ++ x.names.dropLast) :=
      Store.draftView_walks hcovers hx hpast
    refine ⟨⟨hnumbers, ?_, ?_⟩, ?_⟩
    · exact Store.draftView_source hcovers hx hway hroom hroom'
    · exact Store.draftView_target hcovers hx hway
    · exact h.view
        (h.disk.exchange hcovers.there (hnone _).1 (hnone _).1 (hnone _).2 (hnone _).2)

end Twins

namespace Store

open Twins

variable {t : Twins} {s : Store} {v v₁ : View} {k : Nat} {x : Place} {p p' q : Path} {w w' : World}
  {α β : Type} {Q : Except Failure α → World → Except Failure β → World → Prop}

/-! ## Steps in both worlds -/

/-- A scratch file is given up in both worlds. -/
theorem discard_pair {a : Except Failure α} {b : Except Failure β} (hp : v.Leads p p')
    (h : t.Mirror v k w w') (hQ : ∀ u u', t.Mirror v k u u' → Q a u b u') :
    (Job.step (.remove p) fun _ => .done a).Pair w (Job.step (.remove p') fun _ => .done b) w' Q :=
  Job.pair_remove h hp fun _ u u' hu => hQ u u' hu

/-- After a step that worked in both worlds, or in none. -/
theorem orDiscard_pair {f : Attempt α} {f' : Attempt β} {failure : Failure} (hp : v.Leads p p')
    (h : t.Mirror v k w w')
    (herror : ∀ u u', t.Mirror v k u u' → Q (.error failure) u (.error failure) u')
    (r : Except DiskFault Unit) (hnext : f.run.Pair w f'.run w' Q) :
    (orDiscard p failure r >>= fun _ => f).run.Pair w
      (orDiscard p' failure r >>= fun _ => f').run w'
      Q := by
  cases r with
  | ok _ => exact hnext
  | error e => exact discard_pair hp h herror

theorem append_pair {f : Attempt α} {f' : Attempt β} {failure : Failure} {data data' : Bytes}
    (hp : v.Leads p p') (h : t.Mirror v k w w')
    (hdata : ∀ content content', w.disk.get? (location p) = some (.file content) →
      w'.disk.get? (location p') = some (.file content') → v.same content content' →
      v.same (content ++ data) (content' ++ data'))
    (herror : ∀ u u', t.Mirror v k u u' → Q (.error failure) u (.error failure) u')
    (hnext : ∀ u u', t.Mirror v k u u' → f.run.Pair u f'.run u' Q) :
    (do
      orDiscard p failure (← Attempt.ask (.append p data))
      f : Attempt α).run.Pair w (do
      orDiscard p' failure (← Attempt.ask (.append p' data'))
      f' : Attempt β).run w' Q :=
  Job.pair_append h hp hdata fun r u u' hu => orDiscard_pair hp hu herror r (hnext u u' hu)

theorem sync_pair {f : Attempt α} {f' : Attempt β} {failure : Failure} (hp : v.Leads p p')
    (h : t.Mirror v k w w')
    (herror : ∀ u u', t.Mirror v k u u' → Q (.error failure) u (.error failure) u')
    (hnext : ∀ u u', t.Mirror v k u u' → f.run.Pair u f'.run u' Q) :
    (do
      orDiscard p failure (← Attempt.ask (.sync p))
      f : Attempt α).run.Pair w (do
      orDiscard p' failure (← Attempt.ask (.sync p'))
      f' : Attempt β).run w' Q :=
  Job.pair_sync h hp fun r u u' hu => orDiscard_pair hp hu herror r (hnext u u' hu)

theorem rename_pair {Q : Except Failure Unit → World → Except Failure Unit → World → Prop}
    {failure : Failure} (hp : v.Leads p p') (hq : v.Leads q q) (h : t.Mirror v k w w')
    (hQ : ∀ r u u', t.Mirror v k u u' → Q r u r u') :
    (do
      orDiscard p failure (← Attempt.ask (.rename p q)) : Attempt Unit).run.Pair w (do
      orDiscard p' failure (← Attempt.ask (.rename p' q)) : Attempt Unit).run w' Q := by
  refine Job.pair_rename h hp hq fun r u u' hu => ?_
  cases r with
  | ok _ => exact hQ (.ok ()) u u' hu
  | error e => exact discard_pair hp hu fun u u' hu => hQ (.error failure) u u' hu

/-- Folders are made and a scratch file is created in them. -/
theorem begin_pair {fault fault' : CacheFault} {f : Path → Attempt α} {f' : Path → Attempt β}
    (h : t.Beside s x.group v k w w') (hk : k ≤ 1) (hcovers : v.Covers s x.group) (hx : x.IsPlain)
    (hblind : t.IsBlindTo s x)
    (herror : ∀ fault u u', t.Drafts s x v (k + 1) u u' →
      Q (.error (.cache fault)) u (.error (.cache fault)) u')
    (hnext : ∀ n n' u u', t.IsDraft s x v n n' → t.Mirror (s.draftView v x n n') (k + 1) u u' →
      u.disk.get? (location (s.pathOf (x.scratch (s.scratchLabel n)))) = some (.file []) →
      u'.disk.get? (location (s.pathOf (x.scratch (s.scratchLabel n')))) = some (.file []) →
      (f (s.pathOf (x.scratch (s.scratchLabel n)))).run.Pair u
        (f' (s.pathOf (x.scratch (s.scratchLabel n')))).run u' Q) :
    (do
      orFail fault (← Attempt.ask (.makeFolders (s.pathOf x).parent))
      let scratch ← s.newScratch (s.pathOf x)
      orFail fault' (← Attempt.ask (.create scratch))
      f scratch : Attempt α).run.Pair w (do
      orFail fault (← Attempt.ask (.makeFolders (s.pathOf x).parent))
      let scratch ← s.newScratch (s.pathOf x)
      orFail fault' (← Attempt.ask (.create scratch))
      f' scratch : Attempt β).run w' Q := by
  rw [parent_pathOf s hx]
  refine Job.pair_makeFolders h.toMirror (walks_folders hcovers hx) fun r w₁ w₁' h₁ hmade => ?_
  cases r with
  | error e => exact herror _ _ _ (h₁.mono (Nat.le_succ k)).drafts
  | ok _ =>
    obtain ⟨hw₁, hw₁'⟩ := hmade rfl
    refine Job.pair_serial h₁ fun n w₂ w₂' hn hd₂ hd₂' h₂ => ?_
    show (Job.step (.create (scratchBeside (s.pathOf x) (s.scratchLabel (t.number + n)))) _).Pair _
      (Job.step (.create (scratchBeside (s.pathOf x) (s.scratchLabel (t.number' + n)))) _) _ _
    rw [scratchBeside_pathOf s hx, scratchBeside_pathOf s hx]
    have hfolder (q : Path) (hq : q <+: s.groupsFolder ++ x.names.dropLast) :
        w₂.disk.get? (location q) = some .folder := by
      have hf := Disk.makeFolders_ok (congrArg Prod.fst hw₁) hq
      rwa [hw₁, ← hd₂] at hf
    have hfree (hapart : t.apart) :
        (s.HasRoomFor x (t.number + n) ∧ s.HasRoomFor x (t.number' + n)) ∧ ∀ m,
          w₂.disk.get? (s.locationOf (x.scratch (s.scratchLabel m))) = none ∧
            w₂'.disk.get? (s.locationOf (x.scratch (s.scratchLabel m))) = none := by
      refine ⟨(hblind hapart).2 n (Nat.le_trans hn hk), fun m => ?_⟩
      have hnone := (h.trim hapart).1.scratch_makeFolders hx m
      have hnone' := (h.trim hapart).2.scratch_makeFolders hx m
      rw [hw₁, ← hd₂] at hnone
      rw [hw₁', ← hd₂'] at hnone'
      exact ⟨hnone, hnone'⟩
    obtain ⟨hdraft, h₂⟩ := h₂.draft hcovers hx (fun hapart => by rw [t.same hapart]) hfolder hfree
    refine Job.pair_create h₂ hdraft.source fun r w₃ w₃' h₃ hcreated => ?_
    cases r with
    | error e => exact herror _ _ _ (hdraft.drafts h₃)
    | ok _ => exact hnext _ _ _ _ hdraft h₃ (hcreated rfl).1 (hcreated rfl).2

/-! ## Whole files -/

/-- The same is written to a place in both worlds, or two contents that count as the same. -/
theorem writeWhole_drafts {data data' : Bytes} (h : t.Beside s x.group v k w w') (hk : k ≤ 1)
    (hcovers : v.Covers s x.group) (hx : x.IsPlain) (hblind : t.IsBlindTo s x)
    (hdata : v.same data data') :
    (s.writeWhole (s.pathOf x) data).run.Pair w (s.writeWhole (s.pathOf x) data').run w'
      fun r u r' u' => r' = r ∧ t.Drafts s x v (k + 1) u u' := by
  refine begin_pair h hk hcovers hx hblind (fun _ _ _ hd => ⟨rfl, hd⟩) ?_
  intro n n' w₁ w₁' hdraft h₁ hnew hnew'
  refine append_pair hdraft.source h₁ ?_ (fun _ _ hu => ⟨rfl, hdraft.drafts hu⟩) ?_
  · rintro content content' hc hc' -
    rw [hnew] at hc
    rw [hnew'] at hc'
    obtain rfl : [] = content := by simpa using hc
    obtain rfl : [] = content' := by simpa using hc'
    exact hdata
  intro w₂ w₂' h₂
  refine sync_pair hdraft.source h₂ (fun _ _ hu => ⟨rfl, hdraft.drafts hu⟩) ?_
  intro w₃ w₃' h₃
  exact rename_pair hdraft.source hdraft.target h₃ fun _ _ _ hu => ⟨rfl, hdraft.drafts hu⟩

/-- What a write of one place leaves behind. -/
theorem IsTrim.writeWhole {data : Bytes} {group : String} (h : s.IsTrim group w.disk)
    (hx : x.IsPlain) (hsound : x.IsSound) (htrim : x.IsTrim s) (hfit : x.fits data) :
    s.IsTrim group ((s.writeWhole (s.pathOf x) data).run.run w).2.disk := by
  refine h.run (by rintro _ rfl; exact hx) (by rintro _ rfl; exact hsound)
    (by rintro _ rfl; exact htrim)
    (writeWhole_does hx (Eq.refl x) hfit w) ?_
  exact (writeWhole_tends s (s.isKeptFor_pathOf group hx htrim) data).post fun _ _ ht => ht.1

/-- Writing to a place of a group keeps two worlds side by side. -/
theorem writeWhole_pair {data data' : Bytes} (h : t.Beside s x.group v k w w') (hk : k ≤ 1)
    (hcovers : v.Covers s x.group) (hx : x.IsPlain) (hsound : x.IsSound) (hblind : t.IsBlindTo s x)
    (hdata : v.same data data') (hfit : x.fits data) (hfit' : x.fits data') :
    (s.writeWhole (s.pathOf x) data).run.Pair w (s.writeWhole (s.pathOf x) data').run w'
      fun r u r' u' => r' = r ∧ t.Beside s x.group v (k + 1) u u' := by
  obtain ⟨hr, hd⟩ := writeWhole_drafts h hk hcovers hx hblind hdata
  have htrim (hapart : t.apart) :
      s.IsTrim x.group ((s.writeWhole (s.pathOf x) data).run.run w).2.disk ∧
      s.IsTrim x.group ((s.writeWhole (s.pathOf x) data').run.run w').2.disk :=
    ⟨(h.trim hapart).1.writeWhole hx hsound (hblind hapart).1 hfit,
      (h.trim hapart).2.writeWhole hx hsound (hblind hapart).1 hfit'⟩
  exact ⟨hr, ⟨hd.settle hcovers htrim, htrim⟩⟩

/-! ## Looking -/

section Lookups

variable {group image tag : String} {d d' : Disk}

theorem fileAt_alike (h : d.Alike v d') (hcovers : v.Covers s x.group) (hx : x.IsPlain)
    (hexact : ∀ a b, v.same a b → a = b) (fault : CacheFault) :
    fileAt fault (s.pathOf x) d' = fileAt fault (s.pathOf x) d := by
  unfold fileAt
  rw [h.read_eq hexact (hcovers.leads hx)]

variable (h : d.Alike v d') (hcovers : v.Covers s group) (hexact : ∀ a b, v.same a b → a = b)
  (hg : Name.isGroup group = true) (hi : Name.isImage image = true)
include h hcovers hexact hg hi

/-- What is read for a tag depends on what is there for the group. -/
theorem manifestAt_alike (ht : Name.checkTag tag = .ok ()) :
    s.manifestAt group image tag d' = s.manifestAt group image tag d := by
  unfold manifestAt payloadAt
  dsimp only
  rw [s.recordPath_eq hg hi ht,
    fileAt_alike (x := .record group image tag) h hcovers (Place.isPlain_record hg hi tag) hexact]
  cases fileAt (.readRecord _) (s.pathOf (.record group image tag)) d with
  | error failure => rfl
  | ok content =>
    cases content with
    | none => rfl
    | some content =>
      dsimp only
      cases ManifestRecord.decode? content with
      | none => rfl
      | some record =>
        dsimp only
        rw [s.payloadPath_eq hg hi, fileAt_alike (x := .payload group image record.digest) h hcovers
          (Place.isPlain_payload hg hi record.digest) hexact]

theorem blobAt_alike (digest : Digest) :
    s.blobAt group image digest d' = s.blobAt group image digest d := by
  unfold blobAt
  dsimp only
  rw [s.blobPath_eq hg hi,
    h.find_eq hexact (View.Covers.leads (x := .blob group image digest) hcovers
    (Place.isPlain_blob hg hi digest))]

end Lookups

/-! ## Manifests -/

/-- What is the same in all views is so if times are left out of account. -/
theorem writeRecord_pair {group image tag : String} {digest : Digest} {contentType : String}
    {data : Bytes} (h : t.Beside s group v k w w') (hk : k ≤ 1) (hcovers : v.Covers s group)
    (hexact : ∀ a b, v.same a b → a = b) (hg : Name.isGroup group = true)
    (hi : Name.isImage image = true) (ht : Name.checkTag tag = .ok ())
    (hblind : t.IsBlindTo s (.record group image tag)) (htimes : ∀ i, t.times i i) :
    (s.writeRecord group image tag digest contentType data).run.Pair w
      (s.writeRecord group image tag digest contentType data).run w' fun r u r' u' =>
        Matches (ManifestRecord.IsLike t.times) r r' ∧
          t.Beside s group (v.upTo t.times) (k + 1) u u' := by
  have hx := Place.isPlain_record hg hi tag
  unfold writeRecord
  dsimp only
  rw [s.recordPath_eq hg hi ht, Attempt.run_ask_bind]
  refine Job.pair_clock h.toMirror fun now now' u u' hd hd' hnow hu => ?_
  have hbeside : t.Beside s group v k u u' := ⟨hu, by rw [hd, hd']; exact h.trim⟩
  have hread : u'.disk.read (s.pathOf (.record group image tag)) =
      u.disk.read (s.pathOf (.record group image tag)) :=
    hu.disk.read_eq hexact (View.Covers.leads (x := .record group image tag) hcovers hx)
  -- the time of creation is that of now, or it is in the record that is there in both worlds
  have hwrite (created created' : Instant) (hcreated : t.times created created') :
      (do
        s.writeWhole (s.pathOf (.record group image tag)) (ManifestRecord.encode
          ⟨group, image, tag, digest, contentType, data.length, created, now⟩)
        return ⟨group, image, tag, digest, contentType, data.length, created, now⟩ :
          Attempt ManifestRecord).run.Pair u (do
        s.writeWhole (s.pathOf (.record group image tag)) (ManifestRecord.encode
          ⟨group, image, tag, digest, contentType, data.length, created', now'⟩)
        return ⟨group, image, tag, digest, contentType, data.length, created', now'⟩ :
          Attempt ManifestRecord).run u' fun r u r' u' =>
            Matches (ManifestRecord.IsLike t.times) r r' ∧
              t.Beside s group (v.upTo t.times) (k + 1) u u' := by
    have hlike : ManifestRecord.IsLike t.times
        ⟨group, image, tag, digest, contentType, data.length, created, now⟩
        ⟨group, image, tag, digest, contentType, data.length, created', now'⟩ :=
      ⟨rfl, hcreated, hnow⟩
    rw [Attempt.run_bind, Attempt.run_bind]
    refine Job.Pair.bind ((writeWhole_pair (x := .record group image tag) hbeside.upTo hk
      (hcovers.upTo _) hx (Place.isSound_record group image tag) hblind
      (.inr ⟨_, _, hlike, rfl, rfl⟩) ⟨_, rfl⟩ ⟨_, rfl⟩).post ?_)
    rintro _ v₁ r v₁' ⟨rfl, hv⟩
    cases r with
    | error failure => exact ⟨.error failure, hv⟩
    | ok _ => exact ⟨.ok hlike, hv⟩
  rw [Attempt.run_bind, Attempt.run_bind]
  refine Job.Pair.bind ((readRecord_comesTo _ u).pair (readRecord_comesTo _ u') ?_)
  rw [hread]
  dsimp only [Attempt.andThen_ok]
  cases (u.disk.read (s.pathOf (.record group image tag))).toOption.bind ManifestRecord.decode? with
  | none => exact hwrite now now' hnow
  | some existing => exact hwrite _ _ (htimes existing.createdAt)

/-- Keeping a manifest comes to the same in both worlds, up to the times in its record. -/
theorem writeManifest_pair {group image tag : String} {digest : Digest} {contentType : String}
    {data : Bytes} (h : t.Beside s group v 0 w w') (hcovers : v.Covers s group)
    (hexact : ∀ a b, v.same a b → a = b) (hg : Name.isGroup group = true)
    (hi : Name.isImage image = true) (ht : Name.checkTag tag = .ok ())
    (hrecord : t.IsBlindTo s (.record group image tag))
    (hpayload : t.IsBlindTo s (.payload group image digest)) (htimes : ∀ i, t.times i i) :
    (s.writeManifest group image tag digest contentType data).run.Pair w
      (s.writeManifest group image tag digest contentType data).run w' fun r u r' u' =>
        Matches (ManifestRecord.IsLike t.times) r r' ∧
          t.Beside s group (v.upTo t.times) 2 u u' := by
  have hx := Place.isPlain_payload hg hi digest
  unfold writeManifest
  by_cases hd : Digest.of data = digest
  case neg =>
    rw [if_pos hd]
    exact ⟨.error _, (h.mono (Nat.zero_le 2)).upTo⟩
  rw [if_neg (by simpa using hd), s.payloadPath_eq hg hi]
  show Job.Pair (ExceptT.run (_ >>= _)) _ (ExceptT.run (_ >>= _)) _ _
  rw [Attempt.run_bind]
  refine Job.Pair.bind ((isPresent_comesTo _ w).pair (isPresent_comesTo _ w') ?_)
  rw [h.disk.find_eq hexact (View.Covers.leads (x := .payload group image digest) hcovers hx)]
  have hsecond {k : Nat} (hk : k ≤ 1) {u u' : World} (hu : t.Beside s group v k u u') :
      (s.writeRecord group image tag digest contentType data).run.Pair u
        (s.writeRecord group image tag digest contentType data).run u' fun r u r' u' =>
          Matches (ManifestRecord.IsLike t.times) r r' ∧ t.Beside s group (v.upTo t.times) 2 u u' :=
    (writeRecord_pair hu hk hcovers hexact hg hi ht hrecord htimes).post
      fun _ _ _ _ hr => ⟨hr.1, hr.2.mono (Nat.succ_le_succ hk)⟩
  cases w.disk.find (s.pathOf (.payload group image digest)) with
  | ok e => exact hsecond (Nat.zero_le 1) h
  | error e =>
    show Job.Pair (ExceptT.run (s.writeWhole _ data >>= fun _ =>
      s.writeRecord group image tag digest contentType data)) _
        (ExceptT.run (s.writeWhole _ data >>=
        fun _ => s.writeRecord group image tag digest contentType data)) _ _
    rw [Attempt.run_bind]
    refine Job.Pair.bind ((writeWhole_pair (x := .payload group image digest) h (Nat.zero_le 1)
      hcovers hx (Place.isSound_payload group image digest) hpayload (v.refl data) hd hd).post ?_)
    rintro _ u r u' ⟨rfl, hu⟩
    cases r with
    | error failure => exact ⟨.error failure, (hu.mono (Nat.le_succ 1)).upTo⟩
    | ok _ => exact hsecond (Nat.le_refl 1) hu

/-! ## Blobs -/

/-- The pieces of a stream are added to a scratch file in both worlds. -/
theorem writePieces_pair (hp : v.Leads p p') (hexact : ∀ a b, v.same a b → a = b)
    (stream : List (Except Failure Bytes)) (seen : Bytes) (h : t.Mirror v k w w') :
    (writePieces p seen stream).run.Pair w (writePieces p' seen stream).run w' fun r u r' u' =>
      r' = r ∧ t.Mirror v k u u' := by
  induction stream generalizing seen w w' with
  | nil => exact ⟨rfl, h⟩
  | cons piece rest ih =>
    cases piece with
    | error failure => exact discard_pair hp h fun _ _ hu => ⟨rfl, hu⟩
    | ok piece =>
      refine append_pair hp h ?_ (fun _ _ hu => ⟨rfl, hu⟩) fun u u' hu => ih _ hu
      intro content content' _ _ hsame
      rw [hexact _ _ hsame]
      exact v.refl _

variable {group image : String} {digest : Digest}

theorem writeBlobStream_drafts (h : t.Beside s group v k w w') (hk : k ≤ 1)
    (hcovers : v.Covers s group) (hexact : ∀ a b, v.same a b → a = b)
    (hg : Name.isGroup group = true) (hi : Name.isImage image = true)
    (hblind : t.IsBlindTo s (.blob group image digest)) (stream : List (Except Failure Bytes)) :
    (s.writeBlobStream group image digest stream).run.Pair w
      (s.writeBlobStream group image digest stream).run w' fun r u r' u' =>
        r' = r ∧ t.Drafts s (.blob group image digest) v (k + 1) u u' := by
  have hx := Place.isPlain_blob hg hi digest
  unfold writeBlobStream
  rw [s.blobPath_eq hg hi]
  refine begin_pair (x := .blob group image digest) h hk hcovers hx hblind
    (fun _ _ _ hd => ⟨rfl, hd⟩) ?_
  intro n n' w₁ w₁' hdraft h₁ _ _
  rw [Attempt.run_bind, Attempt.run_bind]
  refine Job.Pair.bind ((writePieces_pair hdraft.source hexact stream [] h₁).post ?_)
  rintro _ w₂ r w₂' ⟨rfl, h₂⟩
  cases r with
  | error failure => exact ⟨rfl, hdraft.drafts h₂⟩
  | ok data =>
    refine sync_pair hdraft.source h₂ (fun _ _ hu => ⟨rfl, hdraft.drafts hu⟩) fun w₃ w₃' h₃ => ?_
    dsimp only
    by_cases hd : Digest.of data = digest
    case neg =>
      rw [if_pos hd, if_pos hd]
      exact discard_pair hdraft.source h₃ fun _ _ hu => ⟨rfl, hdraft.drafts hu⟩
    rw [if_neg (by simpa using hd), if_neg (by simpa using hd), Attempt.run_bind, Attempt.run_bind]
    refine Job.Pair.bind ((isPresent_comesTo _ w₃).pair (isPresent_comesTo _ w₃') ?_)
    rw [h₃.disk.find_eq hexact hdraft.target]
    cases w₃.disk.find (s.pathOf (.blob group image digest)) with
    | ok e => exact Job.pair_remove h₃ hdraft.source fun _ _ _ hu => ⟨rfl, hdraft.drafts hu⟩
    | error e =>
      refine Job.pair_rename h₃ hdraft.source hdraft.target fun r w₄ w₄' h₄ => ?_
      exact orDiscard_pair hdraft.source h₄ (fun _ _ hu => ⟨rfl, hdraft.drafts hu⟩) r
        ⟨rfl, hdraft.drafts h₄⟩

theorem IsTrim.writeBlobStream (h : s.IsTrim group w.disk) (hg : Name.isGroup group = true)
    (hi : Name.isImage image = true) (htrim : (Place.blob group image digest).IsTrim s)
    (stream : List (Except Failure Bytes)) :
    s.IsTrim group ((s.writeBlobStream group image digest stream).run.run w).2.disk := by
  have hx := Place.isPlain_blob hg hi digest
  refine h.run (by rintro _ rfl; exact hx) (by rintro _ rfl; exact Place.isSound_blob _ _ _)
    (by rintro _ rfl; exact htrim) (writeBlobStream_does hg hi digest (Eq.refl _) stream w)
    (writeBlobStream_tends s ?_ stream)
  rw [s.blobPath_eq hg hi]
  exact s.isKeptFor_pathOf group hx htrim

/-- Keeping a blob comes to the same in both worlds. -/
theorem writeBlobStream_pair (h : t.Beside s group v k w w') (hk : k ≤ 1)
    (hcovers : v.Covers s group) (hexact : ∀ a b, v.same a b → a = b)
    (hg : Name.isGroup group = true) (hi : Name.isImage image = true)
    (hblind : t.IsBlindTo s (.blob group image digest)) (stream : List (Except Failure Bytes)) :
    (s.writeBlobStream group image digest stream).run.Pair w
      (s.writeBlobStream group image digest stream).run w' fun r u r' u' =>
        r' = r ∧ t.Beside s group v (k + 1) u u' := by
  obtain ⟨hr, hd⟩ := writeBlobStream_drafts h hk hcovers hexact hg hi hblind stream
  have htrim (hapart : t.apart) :
      s.IsTrim group ((s.writeBlobStream group image digest stream).run.run w).2.disk ∧
        s.IsTrim group ((s.writeBlobStream group image digest stream).run.run w').2.disk :=
    ⟨(h.trim hapart).1.writeBlobStream hg hi (hblind hapart).1 stream,
      (h.trim hapart).2.writeBlobStream hg hi (hblind hapart).1 stream⟩
  exact ⟨hr, ⟨hd.settle hcovers htrim, htrim⟩⟩


end Store

end PullThrough
