import Mathlib.Data.List.Induction
import Mathlib.Logic.Equiv.Basic
import PullThrough.Proofs.Disk.Location
/-
  One disk seen as another.

  A view says which locations of a disk are looked at, where each of them lies on another disk, and
  when two contents count as the same (`View`). Under a view two disks are alike if they have the
  same kinds of entries and contents that count as the same (`Disk.Alike`). Operations on two paths
  that are one path to the view (`View.Leads`) come to the same on both disks, fail with the same
  fault, and leave disks that are alike.
-/
namespace PullThrough

open PullThrough.Path (follow location)

/-- A name that any folder can hold. -/
def Path.IsName (name : String) : Prop := Path.IsPlain name ∧ name.utf8ByteSize ≤ Disk.maxName

/-- Nothing, two folders, or two files with contents that count as the same. -/
inductive Entry.Alike (same : Bytes → Bytes → Prop) : Option Entry → Option Entry → Prop where
  | nothing : Alike same none none
  | folders : Alike same (some .folder) (some .folder)
  | files {content content' : Bytes} (h : same content content') :
      Alike same (some (.file content)) (some (.file content'))

/-- How one disk is seen as another. -/
structure View where
  sees : Location → Prop
  /-- Where a location lies on the other disk. -/
  there : Location → Location
  same : Bytes → Bytes → Prop
  injective : Function.Injective there
  refl : ∀ content, same content content

/-- What is seen on one disk is the same on the other. -/
def Disk.Alike (v : View) (d d' : Disk) : Prop :=
  ∀ l, v.sees l → Entry.Alike v.same (d.get? l) (d'.get? (v.there l))

/-- Both fail in the same way, or both succeed with results that are related. -/
inductive Matches {ε α β : Type} (R : α → β → Prop) : Except ε α → Except ε β → Prop where
  | ok {a : α} {b : β} (h : R a b) : Matches R (.ok a) (.ok b)
  | error (e : ε) : Matches R (.error e) (.error e)

/-- What is known of the results may be said of them. -/
theorem Matches.and {ε α β : Type} {R R' : α → β → Prop} {x : Except ε α} {y : Except ε β}
    (h : Matches R x y) (hR : ∀ a b, x = .ok a → y = .ok b → R a b → R' a b) : Matches R' x y := by
  cases h with
  | ok h => exact .ok (hR _ _ rfl rfl h)
  | error e => exact .error e

namespace Entry.Alike

variable {same same' : Bytes → Bytes → Prop} {x y : Option Entry}

theorem refl (h : ∀ content, same content content) (x : Option Entry) : Alike same x x := by
  cases x with
  | none => exact .nothing
  | some e =>
    cases e with
    | folder => exact .folders
    | file content => exact .files (h content)

theorem mono (h : Alike same x y) (hs : ∀ a b, same a b → same' a b) : Alike same' x y := by
  cases h with
  | nothing => exact .nothing
  | folders => exact .folders
  | files h => exact .files (hs _ _ h)

theorem ne_folder (h : Alike same x y) (hx : x ≠ some .folder) : y ≠ some .folder := by
  cases h <;> simp_all

theorem eq (h : Alike Eq x y) : x = y := by
  cases h with
  | nothing => rfl
  | folders => rfl
  | files h => rw [h]

end Entry.Alike

namespace View

variable {v : View} {p p' : Path}

/-- The disk as it is, but for what is not looked at. -/
def plain (sees : Location → Prop) (same : Bytes → Bytes → Prop)
    (refl : ∀ content, same content content) :
    View := ⟨sees, id, same, Function.injective_id, refl⟩

/-- The view with two locations in place of each other. -/
def swap (v : View) (l m : Location) : View :=
  { v with
    there := fun n => Equiv.swap l m (v.there n)
    injective := (Equiv.swap l m).injective.comp v.injective }

/-- All folders on the way lie in the same place. -/
def Walks (v : View) (p : Path) : Prop :=
  ∀ q, q <+: p → v.sees (location q) ∧ v.there (location q) = location q

/-- Two paths through the same folders, that end in one place by the view. Their last names differ
only if a folder can hold both. -/
structure Leads (v : View) (p p' : Path) : Prop where
  way : ∃ q name name', p = q ++ [name] ∧ p' = q ++ [name'] ∧ v.Walks q ∧
    (name = name' ∨ Path.IsName name ∧ Path.IsName name')
  check : Disk.checkPath p' = Disk.checkPath p
  sees : v.sees (location p)
  there : v.there (location p) = location p'

theorem Walks.initial {q : Path} (h : v.Walks p) (hq : q <+: p) : v.Walks q :=
  fun _ hr => h _ (hr.trans hq)

/-- A path whose places all lie where they are. -/
theorem Walks.leads (h : v.Walks p) (hp : p ≠ []) : v.Leads p p where
  way := ⟨p.dropLast, p.getLast hp, p.getLast hp, (List.dropLast_concat_getLast hp).symm,
    (List.dropLast_concat_getLast hp).symm, h.initial (List.dropLast_prefix p), .inl rfl⟩
  check := rfl
  sees := (h p (List.prefix_refl p)).1
  there := (h p (List.prefix_refl p)).2

end View

namespace Disk

variable {v v' : View} {d d' : Disk} {l : Location} {p p' q q' : Path}

namespace Alike

theorem mono (h : d.Alike v d') (hsees : ∀ l, v'.sees l → v.sees l) (hthere : v'.there = v.there)
    (hsame : ∀ a b, v.same a b → v'.same a b) : d.Alike v' d' := by
  intro l hl
  rw [hthere]
  exact (h l (hsees l hl)).mono hsame

/-! ## Following paths -/

/-- Two names, each of which can be entered wherever the other one can. -/
theorem enter (h : d.Alike v d') (hs : v.sees l) (hl : v.there l = l) {name name' : String}
    (hname : name = name' ∨ Path.IsName name ∧ Path.IsName name') :
    Matches (fun _ _ => True) (d.enter l name) (d'.enter l name') := by
  have hkind := h l hs
  rw [hl] at hkind
  unfold Disk.enter
  generalize d.get? l = x at hkind
  generalize d'.get? l = y at hkind
  cases hkind with
  | nothing => exact .error _
  | files _ => exact .error _
  | folders =>
    rcases hname with rfl | ⟨⟨⟨he, hd, hdd⟩, hn⟩, ⟨he', hd', hdd'⟩, hn'⟩
    · dsimp only
      split
      · exact .ok trivial
      · split
        · exact .ok trivial
        · split
          · exact .error _
          · exact .ok trivial
    · have hname : ¬ (name = "" ∨ name = ".") := not_or.2 ⟨he, hd⟩
      have hname' : ¬ (name' = "" ∨ name' = ".") := not_or.2 ⟨he', hd'⟩
      dsimp only
      rw [if_neg hname, if_neg hname', if_neg hdd, if_neg hdd', if_neg (Nat.not_lt.2 hn),
        if_neg (Nat.not_lt.2 hn')]
      exact .ok trivial

theorem enter_same (h : d.Alike v d') (hs : v.sees l) (hl : v.there l = l) (name : String) :
    Matches (fun a b => a = follow l name ∧ b = follow l name) (d.enter l name) (d'.enter l name) :=
  (h.enter hs hl (.inl rfl)).and fun _ _ ha hb _ => ⟨(enter_ok ha).1, (enter_ok hb).1⟩

/-- A way through folders that lie in the same place is gone as far on both disks. -/
theorem walk (h : d.Alike v d') (hp : v.Walks p) : p.foldlM d'.enter [] = p.foldlM d.enter [] := by
  induction p using List.reverseRecOn with
  | nil => rfl
  | append_singleton q part ih =>
    have hq := hp.initial (List.prefix_append q [part])
    rw [List.foldlM_append, List.foldlM_append, ih hq]
    cases hwalk : q.foldlM d.enter [] with
    | error e => rfl
    | ok l =>
      obtain rfl := foldlM_enter_ok hwalk
      obtain ⟨hs, hl⟩ := hq q (List.prefix_refl q)
      have hm := h.enter_same hs hl part
      show [part].foldlM d'.enter (location q) = [part].foldlM d.enter (location q)
      rw [foldlM_enter_cons, foldlM_enter_cons]
      generalize d.enter (location q) part = x at hm
      generalize d'.enter (location q) part = y at hm
      cases hm with
      | ok hends => rw [hends.1, hends.2]; rfl
      | error e => rfl

/-- Both paths can be followed, or neither. -/
theorem locate (h : d.Alike v d') (hp : v.Leads p p') :
    Matches (fun l l' => l = location p ∧ l' = location p') (d.locate p) (d'.locate p') := by
  suffices hm : Matches (fun _ _ => True) (d.locate p) (d'.locate p') from
    hm.and fun l l' hl hl' _ => ⟨location_of_locate hl, location_of_locate hl'⟩
  obtain ⟨q, name, name', rfl, rfl, hq, hname⟩ := hp.way
  cases hc : checkPath (q ++ [name]) with
  | error e =>
    rw [locate_of_check_error hc, locate_of_check_error (hp.check.trans hc)]
    exact .error e
  | ok _ =>
    rw [locate_of_check hc, locate_of_check (hp.check.trans hc), List.foldlM_append,
      List.foldlM_append, h.walk hq]
    cases hwalk : q.foldlM d.enter [] with
    | error e => exact .error e
    | ok l =>
      obtain rfl := foldlM_enter_ok hwalk
      obtain ⟨hs, hl⟩ := hq q (List.prefix_refl q)
      have hm := h.enter hs hl hname
      show Matches _ ([name].foldlM d.enter (location q)) ([name'].foldlM d'.enter (location q))
      rw [foldlM_enter_cons, foldlM_enter_cons]
      change Matches _ (d.enter (location q) name) (d'.enter (location q) name') at hm
      generalize d.enter (location q) name = x at hm
      generalize d'.enter (location q) name' = y at hm
      cases hm with
      | ok h => exact .ok trivial
      | error e => exact .error e

/-! ## Looking -/

/-- An operation on a path, by what it does at the location. -/
theorem bind_locate {α β : Type} {R : α → β → Prop} (h : d.Alike v d') (hp : v.Leads p p')
    {f : Location → Except DiskFault α} {f' : Location → Except DiskFault β}
    (hf : Matches R (f (location p)) (f' (location p'))) :
    Matches R (d.locate p >>= f) (d'.locate p' >>= f') := by
  have hm := h.locate hp
  generalize d.locate p = x at hm
  generalize d'.locate p' = y at hm
  cases hm with
  | ok h =>
    obtain ⟨rfl, rfl⟩ := h
    exact hf
  | error e => exact .error e

theorem target (h : d.Alike v d') (hp : v.Leads p p') :
    Entry.Alike v.same (d.get? (location p)) (d'.get? (location p')) := by
  rw [← hp.there]
  exact h _ hp.sees

theorem find (h : d.Alike v d') (hp : v.Leads p p') :
    Matches (fun e e' => Entry.Alike v.same (some e) (some e')) (d.find p) (d'.find p') := by
  refine h.bind_locate hp ?_
  have hkind := h.target hp
  generalize d.get? (location p) = x at hkind
  generalize d'.get? (location p') = y at hkind
  cases hkind with
  | nothing => exact .error _
  | folders => exact .ok .folders
  | files hc => exact .ok (.files hc)

theorem read (h : d.Alike v d') (hp : v.Leads p p') : Matches v.same (d.read p) (d'.read p') := by
  have hm := h.find hp
  unfold Disk.read
  generalize d.find p = x at hm
  generalize d'.find p' = y at hm
  cases hm with
  | error e => exact .error e
  | ok he =>
    cases he with
    | folders => exact .error _
    | files hc => exact .ok hc

/-- Under a view that knows contents apart, the same is found. -/
theorem find_eq (h : d.Alike v d') (hv : ∀ a b, v.same a b → a = b) (hp : v.Leads p p') :
    d'.find p' = d.find p := by
  have hm := h.find hp
  generalize d.find p = x at hm
  generalize d'.find p' = y at hm
  cases hm with
  | error e => rfl
  | ok he => rw [Option.some.inj (he.mono hv).eq]

theorem read_eq (h : d.Alike v d') (hv : ∀ a b, v.same a b → a = b) (hp : v.Leads p p') :
    d'.read p' = d.read p := by
  unfold Disk.read
  rw [h.find_eq hv hp]

/-! ## Changing -/

theorem set (h : d.Alike v d') {m : Location} {e e' : Entry} (hl : l ≠ []) (hm : m ≠ [])
    (hthere : v.there l = m) (he : Entry.Alike v.same (some e) (some e')) :
    (d.set l e).Alike v (d'.set m e') := by
  subst hthere
  intro n hn
  by_cases hnl : n = l
  · subst hnl
    rwa [get?_set_self hl, get?_set_self hm]
  · rw [get?_set_of_ne hnl, get?_set_of_ne fun he => hnl (v.injective he)]
    exact h n hn

theorem erase (h : d.Alike v d') {m : Location} (hl : l ≠ []) (hm : m ≠ [])
    (hthere : v.there l = m) : (d.erase l).Alike v (d'.erase m) := by
  subst hthere
  intro n hn
  by_cases hnl : n = l
  · subst hnl
    rw [get?_erase_self hl, get?_erase_self hm]
    exact .nothing
  · rw [get?_erase_of_ne hnl, get?_erase_of_ne fun he => hnl (v.injective he)]
    exact h n hn

theorem create (h : d.Alike v d') (hp : v.Leads p p') :
    Matches (Disk.Alike v) (d.create p) (d'.create p') := by
  refine h.bind_locate hp ?_
  have hkind := h.target hp
  have hset (hl : d.get? (location p) ≠ some .folder) :
      (d.set (location p) (.file [])).Alike v (d'.set (location p') (.file [])) :=
    h.set (ne_root hl) (ne_root (hkind.ne_folder hl)) hp.there (.files (v.refl []))
  revert hset
  generalize d.get? (location p) = x at hkind
  generalize d'.get? (location p') = y at hkind
  intro hset
  cases hkind with
  | nothing => exact .ok (hset (by simp))
  | folders => exact .error _
  | files _ => exact .ok (hset (by simp))

theorem append (h : d.Alike v d') (hp : v.Leads p p') {data data' : Bytes}
    (hdata : ∀ content content', d.get? (location p) = some (.file content) →
      d'.get? (location p') = some (.file content') → v.same content content' →
      v.same (content ++ data) (content' ++ data')) :
    Matches (Disk.Alike v) (d.append p data) (d'.append p' data') := by
  refine h.bind_locate hp ?_
  have hkind := h.target hp
  have hset (content content' : Bytes) (hl : d.get? (location p) = some (.file content))
      (hl' : d'.get? (location p') = some (.file content')) (hc : v.same content content') :
      (d.set (location p) (.file (content ++ data))).Alike v
        (d'.set (location p') (.file (content' ++ data'))) :=
    h.set (ne_root (by rw [hl]; simp)) (ne_root (by rw [hl']; simp)) hp.there
      (.files (hdata _ _ hl hl' hc))
  revert hset
  generalize d.get? (location p) = x at hkind
  generalize d'.get? (location p') = y at hkind
  intro hset
  cases hkind with
  | nothing => exact .error _
  | folders => exact .error _
  | files hc => exact .ok (hset _ _ rfl rfl hc)

theorem remove (h : d.Alike v d') (hp : v.Leads p p') :
    Matches (Disk.Alike v) (d.remove p) (d'.remove p') := by
  refine h.bind_locate hp ?_
  have hkind := h.target hp
  have herase (hl : d.get? (location p) ≠ some .folder) :
      (d.erase (location p)).Alike v (d'.erase (location p')) :=
    h.erase (ne_root hl) (ne_root (hkind.ne_folder hl)) hp.there
  revert herase
  generalize d.get? (location p) = x at hkind
  generalize d'.get? (location p') = y at hkind
  intro herase
  cases hkind with
  | nothing => exact .error _
  | folders => exact .error _
  | files _ => exact .ok (herase (by simp))

theorem rename (h : d.Alike v d') (hp : v.Leads p p') (hq : v.Leads q q') :
    Matches (Disk.Alike v) (d.rename p q) (d'.rename p' q') := by
  refine h.bind_locate hp (h.bind_locate hq ?_)
  have hsource := h.target hp
  have htarget := h.target hq
  have hmove (content content' : Bytes) (hl : d.get? (location p) ≠ some .folder)
      (hm : d.get? (location q) ≠ some .folder) (hc : v.same content content') :
      ((d.erase (location p)).set (location q) (.file content)).Alike v
        ((d'.erase (location p')).set (location q') (.file content')) :=
    (h.erase (ne_root hl) (ne_root (hsource.ne_folder hl)) hp.there).set (ne_root hm)
      (ne_root (htarget.ne_folder hm)) hq.there (.files hc)
  revert hmove
  generalize d.get? (location p) = x at hsource
  generalize d'.get? (location p') = y at hsource
  generalize d.get? (location q) = x' at htarget
  generalize d'.get? (location q') = y' at htarget
  intro hmove
  cases hsource with
  | nothing => exact .error _
  | folders => exact .error _
  | files hc =>
    cases htarget with
    | nothing => exact .ok (hmove _ _ (by simp) (by simp) hc)
    | folders => exact .error _
    | files _ => exact .ok (hmove _ _ (by simp) (by simp) hc)

/-! ## Making folders -/

theorem makeFoldersFrom (h : d.Alike v d') {here : Location}
    (hp : ∀ q, q <+: p → v.sees (q.foldl follow here) ∧
      v.there (q.foldl follow here) = q.foldl follow here) :
    (Disk.makeFoldersFrom p here d').1 = (Disk.makeFoldersFrom p here d).1 ∧
      (Disk.makeFoldersFrom p here d).2.Alike v (Disk.makeFoldersFrom p here d').2 := by
  induction p generalizing here d d' with
  | nil => exact ⟨rfl, h⟩
  | cons part rest ih =>
    obtain ⟨hs, hl⟩ := hp [] List.nil_prefix
    obtain ⟨hs', hl'⟩ := hp [part] (by simp)
    have hrest : ∀ q, q <+: rest → v.sees (q.foldl follow (follow here part)) ∧
        v.there (q.foldl follow (follow here part)) = q.foldl follow (follow here part) :=
      fun q hq => hp (part :: q) (List.cons_prefix_cons.2 ⟨rfl, hq⟩)
    have hm := h.enter_same (l := here) hs hl part
    have hkind := h _ hs'
    rw [hl'] at hkind
    change Entry.Alike _ (d.get? (follow here part)) (d'.get? (follow here part)) at hkind
    unfold Disk.makeFoldersFrom
    generalize d.enter here part = x at hm
    generalize d'.enter here part = y at hm
    cases hm with
    | error e => exact ⟨rfl, h⟩
    | ok hends =>
      obtain ⟨rfl, rfl⟩ := hends
      dsimp only
      have hset (hn : d.get? (follow here part) = none) :
          (d.set (follow here part) .folder).Alike v (d'.set (follow here part) .folder) :=
        h.set (ne_root (by rw [hn]; simp)) (ne_root (d := d) (by rw [hn]; simp)) hl' .folders
      revert hset
      generalize d.get? (follow here part) = x at hkind
      generalize d'.get? (follow here part) = y at hkind
      intro hset
      cases hkind with
      | nothing => exact ih (hset rfl) hrest
      | folders => exact ih h hrest
      | files _ => exact ⟨rfl, h⟩

theorem makeFolders (h : d.Alike v d') (hp : v.Walks p) :
    (d'.makeFolders p).1 = (d.makeFolders p).1 ∧
      (d.makeFolders p).2.Alike v (d'.makeFolders p).2 := by
  unfold Disk.makeFolders
  cases checkPath p with
  | error e => exact ⟨rfl, h⟩
  | ok _ => exact h.makeFoldersFrom hp

/-! ## Two locations in place of each other -/

/-- Where nothing is at two locations on both disks, they may as well be in place of each other. -/
theorem exchange (h : d.Alike v d') (hv : ∀ l, v.there l = l) {m : Location}
    (hl : d.get? l = none) (hm : d.get? m = none) (hl' : d'.get? l = none)
    (hm' : d'.get? m = none) : d.Alike (v.swap l m) d' := by
  intro n hn
  show Entry.Alike v.same (d.get? n) (d'.get? (Equiv.swap l m (v.there n)))
  rw [hv]
  by_cases hnl : n = l
  · rw [hnl, Equiv.swap_apply_left, hl, hm']
    exact .nothing
  · by_cases hnm : n = m
    · rw [hnm, Equiv.swap_apply_right, hm, hl']
      exact .nothing
    · rw [Equiv.swap_apply_of_ne_of_ne hnl hnm]
      have hseen := h n hn
      rwa [hv] at hseen

/-- And the other way around. -/
theorem restore {m : Location} (h : d.Alike (v.swap l m) d') (hv : ∀ l, v.there l = l)
    (hl : d.get? l = none) (hm : d.get? m = none) (hl' : d'.get? l = none)
    (hm' : d'.get? m = none) : d.Alike v d' := by
  intro n hn
  have hseen := h n hn
  change Entry.Alike v.same (d.get? n) (d'.get? (Equiv.swap l m (v.there n))) at hseen
  rw [hv] at hseen ⊢
  by_cases hnl : n = l
  · rw [hnl, hl, hl']
    exact .nothing
  · by_cases hnm : n = m
    · rw [hnm, hm, hm']
      exact .nothing
    · rwa [Equiv.swap_apply_of_ne_of_ne hnl hnm] at hseen

end Alike

end Disk

namespace View

variable {v : View} {l m : Location} {p q : Path} {name name' : String}

theorem swap_self (v : View) (l : Location) : v.swap l l = v := by
  cases v
  simp [swap]

/-- A way past both locations is the same to the view. -/
theorem Walks.swap (h : v.Walks p) (hl : ∀ q, q <+: p → location q ≠ l)
    (hm : ∀ q, q <+: p → location q ≠ m) : (v.swap l m).Walks p := by
  intro q hq
  refine ⟨(h q hq).1, ?_⟩
  show Equiv.swap l m (v.there (location q)) = location q
  rw [(h q hq).2, Equiv.swap_apply_of_ne_of_ne (hl q hq) (hm q hq)]

/-- Two names in one folder, whose locations are in place of each other. -/
theorem Walks.leads_swap (h : (v.swap (location (q ++ [name])) (location (q ++ [name']))).Walks q)
    (hname : name = name' ∨ Path.IsName name ∧ Path.IsName name')
    (hcheck : Disk.checkPath (q ++ [name']) = Disk.checkPath (q ++ [name]))
    (hsees : v.sees (location (q ++ [name])))
    (hthere : v.there (location (q ++ [name])) = location (q ++ [name])) :
    (v.swap (location (q ++ [name])) (location (q ++ [name']))).Leads (q ++ [name])
    (q ++ [name']) where
  way := ⟨q, name, name', rfl, rfl, h, hname⟩
  check := hcheck
  sees := hsees
  there := by
    show Equiv.swap _ _ (v.there _) = _
    rw [hthere, Equiv.swap_apply_left]

end View

end PullThrough
