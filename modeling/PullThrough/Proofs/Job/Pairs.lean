import PullThrough.Proofs.Disk.Views
import PullThrough.Proofs.Job.Does
/-
  Two runs side by side.

  `Job.Pair j w j' w' Q` says of the run of `j` in the world `w` and that of `j'` in `w'` that
  they end as `Q` says. The worlds that are looked at mirror each other (`Twins.Mirror`): their
  disks are alike under a view, and nothing else tells them apart but what was so from the
  start. A step on files keeps this up and is answered alike in both worlds if its paths lead
  to one place by the view.
-/
namespace PullThrough

open PullThrough.Path (location)

/-! ## Mirrored worlds -/

/-- What two worlds may differ in from the start. -/
structure Twins where
  /-- When what the clocks show counts as the same. -/
  times : Instant → Instant → Prop
  /-- The requests that the origin has seen. -/
  requests : List OriginRequest
  requests' : List OriginRequest
  /-- The first numbers that are given out. -/
  number : Nat
  number' : Nat
  /-- Whether these numbers may differ. -/
  apart : Prop
  same : ¬ apart → number' = number

namespace Twins

/-- Two worlds with disks that are alike, in which the same has happened since the start. Not more
than some numbers were given out. -/
structure Mirror (t : Twins) (v : View) (given : Nat) (w w' : World) : Prop where
  disk : w.disk.Alike v w'.disk
  trouble : w'.trouble = w.trouble
  writes : w'.writes = w.writes
  clock : ∀ n, t.times (w.clock n) (w'.clock n)
  readings : w'.readings = w.readings
  serial : ∃ n, n ≤ given ∧ w.serial = t.number + n ∧ w'.serial = t.number' + n
  origin : ∀ requests r, w'.origin (requests ++ t.requests') r = w.origin (requests ++ t.requests) r
  requests : ∃ requests, w.requests = requests ++ t.requests ∧ w'.requests = requests ++ t.requests'

variable {t : Twins} {v v' : View} {k m : Nat} {w w' : World}

namespace Mirror

/-- Another view of the disks. -/
theorem view (h : t.Mirror v k w w') (hd : w.disk.Alike v' w'.disk) : t.Mirror v' k w w' :=
  { h with disk := hd }

theorem mono (h : t.Mirror v k w w') (hk : k ≤ m) : t.Mirror v m w w' :=
  have ⟨n, hn, hs, hs'⟩ := h.serial
  { h with serial := ⟨n, Nat.le_trans hn hk, hs, hs'⟩ }

/-! ## Steps that are no steps on files -/

theorem clock_step (h : t.Mirror v k w w') :
    t.times (w.perform .clock).1 (w'.perform .clock).1 ∧
      t.Mirror v k (w.perform .clock).2 (w'.perform .clock).2 := by
  refine ⟨?_, { h with readings := congrArg (· + 1) h.readings }⟩
  show t.times (w.clock w.readings) (w'.clock w'.readings)
  rw [h.readings]
  exact h.clock _

theorem serial_step (h : t.Mirror v k w w') :
    (∃ n, n ≤ k ∧ (w.perform .serial).1 = t.number + n ∧ (w'.perform .serial).1 = t.number' + n) ∧
      t.Mirror v (k + 1) (w.perform .serial).2 (w'.perform .serial).2 := by
  obtain ⟨n, hn, hs, hs'⟩ := h.serial
  exact ⟨⟨n, hn, hs, hs'⟩, { h with serial := ⟨n + 1, Nat.succ_le_succ hn, congrArg (· + 1) hs,
    congrArg (· + 1) hs'⟩ }⟩

theorem send_step (h : t.Mirror v k w w') (r : OriginRequest) :
    (w'.perform (.send r)).1 = (w.perform (.send r)).1 ∧
      t.Mirror v k (w.perform (.send r)).2 (w'.perform (.send r)).2 := by
  obtain ⟨requests, hr, hr'⟩ := h.requests
  refine ⟨?_, { h with requests := ⟨r :: requests, congrArg (r :: ·) hr, congrArg (r :: ·) hr'⟩ }⟩
  show w'.origin w'.requests r = w.origin w.requests r
  rw [hr, hr']
  exact h.origin requests r

/-! ## Steps on files -/

/-- A write that does the same to both disks. -/
theorem write (h : t.Mirror v k w w') (op op' : Disk → Except DiskFault Unit × Disk)
    (hop : (op' w'.disk).1 = (op w.disk).1 ∧ (op w.disk).2.Alike v (op' w'.disk).2) :
    (w'.write op').1 = (w.write op).1 ∧ t.Mirror v k (w.write op).2 (w'.write op').2 := by
  have hwrites := congrArg (· + 1) h.writes
  have htrouble : w'.trouble w'.writes = w.trouble w.writes := by rw [h.trouble, h.writes]
  unfold World.write
  rw [htrouble]
  cases w.trouble w.writes with
  | true => exact ⟨rfl, { h with writes := hwrites }⟩
  | false => exact ⟨hop.1, { h with disk := hop.2, writes := hwrites }⟩

theorem change (h : t.Mirror v k w w') (op op' : Disk → Except DiskFault Disk)
    (hop : Matches (Disk.Alike v) (op w.disk) (op' w'.disk)) :
    (World.change op' w'.disk).1 = (World.change op w.disk).1 ∧
      (World.change op w.disk).2.Alike v (World.change op' w'.disk).2 := by
  unfold World.change
  generalize op w.disk = x at hop
  generalize op' w'.disk = y at hop
  cases hop with
  | ok hd => exact ⟨rfl, hd⟩
  | error e => exact ⟨rfl, h.disk⟩

theorem write_change (h : t.Mirror v k w w') (op op' : Disk → Except DiskFault Disk)
    (hop : Matches (Disk.Alike v) (op w.disk) (op' w'.disk)) :
    (w'.write (World.change op')).1 = (w.write (World.change op)).1 ∧
      t.Mirror v k (w.write (World.change op)).2 (w'.write (World.change op')).2 :=
  h.write _ _ (h.change op op' hop)

end Mirror

end Twins

/-! ## Pairs of runs -/

namespace Job

variable {α β γ δ : Type}

/-- The runs of two jobs, each in its world, end as `Q` says. -/
def Pair (j : Job α) (w : World) (j' : Job β) (w' : World)
    (Q : α → World → β → World → Prop) : Prop :=
  Q (j.run w).1 (j.run w).2 (j'.run w').1 (j'.run w').2

variable {j : Job α} {j' : Job β} {w w' : World} {Q Q' : α → World → β → World → Prop}

theorem Pair.post (h : j.Pair w j' w' Q) (hQ : ∀ a u b u', Q a u b u' → Q' a u b u') :
    j.Pair w j' w' Q' := hQ _ _ _ _ h

theorem Pair.bind {f : α → Job γ} {f' : β → Job δ} {Q : γ → World → δ → World → Prop}
    (h : j.Pair w j' w' fun a u b u' => (f a).Pair u (f' b) u' Q) :
    (j >>= f).Pair w (j' >>= f') w' Q := by
  unfold Pair
  rw [run_bind, run_bind]
  exact h

/-- What is known of each run may be said of the pair. -/
theorem Pair.ends {P : α → World → Prop} {P' : β → World → Prop} (h : j.Pair w j' w' Q)
    (hj : j.Ends w P) (hj' : j'.Ends w' P') :
    j.Pair w j' w' fun a u b u' => Q a u b u' ∧ P a u ∧ P' b u' := ⟨h, hj, hj'⟩

theorem ComesTo.pair {a : α} {b : β} {u u' : World} (h : ComesTo j w a u) (h' : ComesTo j' w' b u')
    (hQ : Q a u b u') : j.Pair w j' w' Q := by
  unfold Pair
  rw [h.run, h'.run]
  exact hQ

/-! ## Pairs of steps -/

variable {t : Twins} {v : View} {k : Nat} {p p' q q' : Path}

theorem pair_clock {next : Instant → Job α} {next' : Instant → Job β} (h : t.Mirror v k w w')
    (hnext : ∀ now now' u u', u.disk = w.disk → u'.disk = w'.disk → t.times now now' →
      t.Mirror v k u u' → (next now).Pair u (next' now') u' Q) :
    (step .clock next).Pair w (step .clock next') w' Q :=
  hnext _ _ _ _ rfl rfl h.clock_step.1 h.clock_step.2

theorem pair_serial {next : Nat → Job α} {next' : Nat → Job β} (h : t.Mirror v k w w')
    (hnext : ∀ n u u', n ≤ k → u.disk = w.disk → u'.disk = w'.disk → t.Mirror v (k + 1) u u' →
      (next (t.number + n)).Pair u (next' (t.number' + n)) u' Q) :
    (step .serial next).Pair w (step .serial next') w' Q := by
  obtain ⟨⟨n, hn, hs, hs'⟩, hmirror⟩ := h.serial_step
  have hp := hnext n (w.perform .serial).2 (w'.perform .serial).2 hn rfl rfl hmirror
  rw [← hs, ← hs'] at hp
  exact hp

/-- Two steps that are answered the same. -/
theorem pair_answered {ρ : Type} {next : ρ → Job α} {next' : ρ → Job β} {x x' : ρ × World}
    (hx : x'.1 = x.1) (hnext : (next x.1).Pair x.2 (next' x.1) x'.2 Q) :
    (next x.1).Pair x.2 (next' x'.1) x'.2 Q := by
  rw [hx]
  exact hnext

theorem pair_send {r : OriginRequest} {next : Exchange → Job α} {next' : Exchange → Job β}
    (h : t.Mirror v k w w')
    (hnext : ∀ x u u', u.disk = w.disk → u'.disk = w'.disk → t.Mirror v k u u' →
      (next x).Pair u (next' x) u' Q) :
    (step (.send r) next).Pair w (step (.send r) next') w' Q :=
  pair_answered (h.send_step r).1 (hnext _ _ _ rfl rfl (h.send_step r).2)

section Writes

variable {next : Except DiskFault Unit → Job α} {next' : Except DiskFault Unit → Job β}
  (h : t.Mirror v k w w')
include h

theorem pair_makeFolders (hp : v.Walks p)
    (hnext : ∀ r u u', t.Mirror v k u u' →
      (r = .ok () → w.disk.makeFolders p = (.ok (), u.disk) ∧
        w'.disk.makeFolders p = (.ok (), u'.disk)) → (next r).Pair u (next' r) u' Q) :
    (step (.makeFolders p) next).Pair w (step (.makeFolders p) next') w' Q := by
  have hwrite := h.write (fun d => d.makeFolders p) (fun d => d.makeFolders p)
    (h.disk.makeFolders hp)
  have hmade (w : World) (hr : (w.write fun d => d.makeFolders p).1 = .ok ()) :
      w.disk.makeFolders p = (.ok (), (w.write fun d => d.makeFolders p).2.disk) := by
    rcases w.write_cases fun d => d.makeFolders p with ⟨he, -⟩ | ⟨ho, hd⟩
    · rw [he] at hr
      cases hr
    · rw [hd, ← ho.symm.trans hr]
  refine pair_answered hwrite.1 (hnext _ _ _ hwrite.2 fun hr => ⟨hmade w hr, ?_⟩)
  exact hmade w' (hwrite.1.trans hr)

theorem pair_create (hp : v.Leads p p')
    (hnext : ∀ r u u', t.Mirror v k u u' →
      (r = .ok () → u.disk.get? (location p) = some (.file []) ∧
        u'.disk.get? (location p') = some (.file [])) → (next r).Pair u (next' r) u' Q) :
    (step (.create p) next).Pair w (step (.create p') next') w' Q := by
  have hwrite := h.write_change (fun d => d.create p) (fun d => d.create p') (h.disk.create hp)
  have hmade (w : World) (p : Path) (hr : (w.write (World.change fun d => d.create p)).1 = .ok ()) :
      (w.write (World.change fun d => d.create p)).2.disk.get? (location p) = some (.file []) := by
    rcases w.write_change_cases fun d => d.create p with ⟨e, he, -⟩ | ⟨-, hd⟩
    · rw [he] at hr
      cases hr
    · obtain ⟨-, hfolder, hset⟩ := Disk.create_eq_ok hd
      rw [hset]
      exact Disk.get?_set_self (Disk.ne_root hfolder)
  refine pair_answered hwrite.1 (hnext _ _ _ hwrite.2 fun hr => ⟨hmade w p hr, ?_⟩)
  exact hmade w' p' (hwrite.1.trans hr)

theorem pair_append (hp : v.Leads p p') {data data' : Bytes}
    (hdata : ∀ content content', w.disk.get? (location p) = some (.file content) →
      w'.disk.get? (location p') = some (.file content') → v.same content content' →
      v.same (content ++ data) (content' ++ data'))
    (hnext : ∀ r u u', t.Mirror v k u u' → (next r).Pair u (next' r) u' Q) :
    (step (.append p data) next).Pair w (step (.append p' data') next') w' Q := by
  have hwrite := h.write_change (fun d => d.append p data) (fun d => d.append p' data')
    (h.disk.append hp hdata)
  exact pair_answered hwrite.1 (hnext _ _ _ hwrite.2)

theorem pair_sync (hp : v.Leads p p')
    (hnext : ∀ r u u', t.Mirror v k u u' → (next r).Pair u (next' r) u' Q) :
    (step (.sync p) next).Pair w (step (.sync p') next') w' Q := by
  have hread := h.disk.read hp
  have hanswer : ((w'.disk.read p').map fun _ => ()) = (w.disk.read p).map fun _ => () := by
    generalize w.disk.read p = x at hread
    generalize w'.disk.read p' = y at hread
    cases hread <;> rfl
  have hwrite := h.write (fun d => ((d.read p).map fun _ => (), d))
    (fun d => ((d.read p').map fun _ => (), d)) ⟨hanswer, h.disk⟩
  exact pair_answered hwrite.1 (hnext _ _ _ hwrite.2)

theorem pair_rename (hp : v.Leads p p') (hq : v.Leads q q')
    (hnext : ∀ r u u', t.Mirror v k u u' → (next r).Pair u (next' r) u' Q) :
    (step (.rename p q) next).Pair w (step (.rename p' q') next') w' Q := by
  have hwrite := h.write_change (fun d => d.rename p q) (fun d => d.rename p' q')
    (h.disk.rename hp hq)
  exact pair_answered hwrite.1 (hnext _ _ _ hwrite.2)

theorem pair_remove (hp : v.Leads p p')
    (hnext : ∀ r u u', t.Mirror v k u u' → (next r).Pair u (next' r) u' Q) :
    (step (.remove p) next).Pair w (step (.remove p') next') w' Q := by
  have hchange := h.change (fun d => d.remove p) (fun d => d.remove p') (h.disk.remove hp)
  have hmirror : t.Mirror v k (w.perform (.remove p)).2 (w'.perform (.remove p')).2 :=
    { h with disk := hchange.2 }
  exact pair_answered hchange.1 (hnext _ _ _ hmirror)

end Writes

end Job

end PullThrough
