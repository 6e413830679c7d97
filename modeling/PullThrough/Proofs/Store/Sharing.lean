import PullThrough.Proofs.Job.Among
import PullThrough.Proofs.Store.Layout
/-
  How jobs share a cache.

  A scratch file is named by a serial number, and files of different numbers are different files
  (`Store.scratch_number`). So while jobs write in turns, each has its scratch files to itself
  (`Store.KeepsOff`), but not the places that they are meant for: a file there may be replaced at
  any time, though it is never taken away. What holds of such a cache between any two steps is any
  property that scratch files do not matter to and that each file that takes its place keeps
  (`Store.sharing`, `Store.writeWhole_among`).
-/
namespace PullThrough.Store

open PullThrough.Path (location)

variable {s : Store} {d d₀ d' : Disk} {x y : Place} {own other : List Nat} {m n : Nat}

/-! ## Numbers -/

/-- What is behind the last of some character. -/
theorem eq_of_append_cons {c : Char} {a b u v : List Char} (hu : c ∉ u) (hv : c ∉ v)
    (h : a ++ c :: u = b ++ c :: v) : u = v := by
  rcases List.append_eq_append_iff.1 h with ⟨rest, -, hrest⟩ | ⟨rest, -, hrest⟩
  · cases rest with
    | nil => exact (List.cons.inj hrest).2
    | cons _ rest => exact absurd (by simp [(List.cons.inj hrest).2]) hu
  · cases rest with
    | nil => exact (List.cons.inj hrest).2.symm
    | cons _ rest => exact absurd (by simp [(List.cons.inj hrest).2]) hv

theorem scratchLabel_toList (s : Store) (n : Nat) :
    (s.scratchLabel n).toList = (toString s.process).toList ++ '-' :: (toString n).toList := by
  simp [scratchLabel]

/-- A scratch file names the number that it was made with. -/
theorem scratch_number
    (h : (x.scratch (s.scratchLabel m)).names = (y.scratch (s.scratchLabel n)).names) : m = n := by
  have hfile := congrArg String.toList (Place.names_inj h).2.2.2.2
  simp only [Place.scratch, String.toList_append, scratchLabel_toList] at hfile
  have hlabel := (List.append_inj' hfile rfl).1
  rw [← List.append_assoc, ← List.append_assoc] at hlabel
  have hdigits := eq_of_append_cons (not_mem_digits (by decide) m)
    (not_mem_digits (by decide) n) hlabel
  rw [Nat.toString_eq_ofList_toDigits, Nat.toString_eq_ofList_toDigits, String.toList_ofList,
    String.toList_ofList] at hdigits
  calc m = Nat.ofDigitChars 10 (Nat.toDigits 10 m) 0 := Nat.ofDigitChars_ten_toDigits.symm
    _ = Nat.ofDigitChars 10 (Nat.toDigits 10 n) 0 := by rw [hdigits]
    _ = n := Nat.ofDigitChars_ten_toDigits

theorem scratch_ne_of_number (h : m ≠ n) : s.locationOf (x.scratch (s.scratchLabel m)) ≠
    s.locationOf (y.scratch (s.scratchLabel n)) :=
  fun hl => h (scratch_number (locationOf_inj hl))

theorem scratch_ne_of_isOwn (hy : y.IsOwn) (label : String) :
    s.locationOf y ≠ s.locationOf (x.scratch label) :=
  fun hl => hy x label (locationOf_inj hl)

/-! ## What others leave alone -/

/-- Nothing is taken away, and the scratch files of some numbers stay as they are. -/
structure KeepsOff (s : Store) (own : List Nat) (d d' : Disk) : Prop where
  folder : ∀ l, d.get? l = some .folder → d'.get? l = some .folder
  present : ∀ x : Place, x.IsOwn → ∀ content, d.get? (s.locationOf x) = some (.file content) →
    ∃ content', d'.get? (s.locationOf x) = some (.file content')
  scratch : ∀ n ∈ own, ∀ x : Place, SameFile (s.locationOf (x.scratch (s.scratchLabel n))) d d'

namespace KeepsOff

theorem refl (s : Store) (own : List Nat) (d : Disk) : s.KeepsOff own d d :=
  ⟨fun _ hl => hl, fun _ _ content hf => ⟨content, hf⟩, fun _ _ _ => SameFile.refl _ _⟩

theorem trans {d₁ d₂ d₃ : Disk} (h : s.KeepsOff own d₁ d₂) (h' : s.KeepsOff own d₂ d₃) :
    s.KeepsOff own d₁ d₃ where
  folder l hl := h'.folder l (h.folder l hl)
  present x hx content hf := by
    obtain ⟨content', hf'⟩ := h.present x hx content hf
    exact h'.present x hx content' hf'
  scratch n hn x := (h.scratch n hn x).trans (h'.scratch n hn x)

theorem mono (h : s.KeepsOff own d d') (hsub : ∀ n ∈ other, n ∈ own) : s.KeepsOff other d d' :=
  ⟨h.folder, h.present, fun n hn => h.scratch n (hsub n hn)⟩

/-- Any number or none: nothing is taken away. -/
theorem any (h : s.KeepsOff own d d') : s.KeepsOff [] d d' :=
  h.mono fun _ hn => absurd hn List.not_mem_nil

/-- A change that only the scratch files of one number take part in. -/
theorem of_change {allowed : Place → Prop} (h : s.Change allowed d d')
    (hscratch : ∀ m, m ≠ n → ∀ y : Place,
      SameFile (s.locationOf (y.scratch (s.scratchLabel m))) d d')
    (hn : n ∉ own) : s.KeepsOff own d d' where
  folder _ hl := h.folder hl
  present _ hx _ hf := h.present hx hf
  scratch m hm y := hscratch m (fun he => hn (he ▸ hm)) y

/-- No change takes anything away. -/
theorem none_of_change {allowed : Place → Prop} (h : s.Change allowed d d') : s.KeepsOff [] d d' :=
  ⟨fun _ hl => h.folder hl, fun _ hx _ hf => h.present hx hf,
    fun _ hn => absurd hn List.not_mem_nil⟩

theorem of_folders (own : List Nat) (p : Path) : s.KeepsOff own d (d.makeFolders p).2 where
  folder _ hl := (Disk.foldersMade d p).folder hl
  present _ _ content hf := ⟨content, (Disk.foldersMade d p).file.2 hf⟩
  scratch _ _ _ := SameFile.makeFolders _ _

end KeepsOff

/-! ## The rules -/

/-- A property of caches that scratch files do not matter to. -/
structure IsInvariant (s : Store) (J : Disk → Prop) : Prop where
  isLaidOut : ∀ d, J d → s.IsLaidOut d
  change : ∀ d d', J d → s.Change Place.IsRegular d d' →
    (∀ y : Place, y.IsOwn → SameFile (s.locationOf y) d d') → J d'

namespace IsInvariant

variable {J : Disk → Prop} (hJ : s.IsInvariant J) (hx : x.IsRegular)
include hJ hx

theorem makeFolders (hd : J d) : J (d.makeFolders (s.groupsFolder ++ x.names.dropLast)).2 :=
  hJ.change d _ hd (.folders x hx) fun _ _ => SameFile.makeFolders _ _

theorem create (hd : J d) (h : d.create (s.pathOf (x.scratch (s.scratchLabel n))) = .ok d') :
    J d' ∧ ∀ own, n ∉ own → s.KeepsOff own d d' := by
  obtain ⟨hc, rfl⟩ := create_scratch hx.isPlain hx h
  exact ⟨hJ.change d _ hd hc fun _ hy => SameFile.set (scratch_ne_of_isOwn hy _), fun own =>
    .of_change hc fun _ hm _ => SameFile.set (scratch_ne_of_number hm)⟩

theorem append {data : Bytes} (hd : J d)
    (h : d.append (s.pathOf (x.scratch (s.scratchLabel n))) data = .ok d') :
    J d' ∧ ∀ own, n ∉ own → s.KeepsOff own d d' := by
  obtain ⟨hc, content, -, rfl⟩ := append_scratch hx.isPlain hx h
  exact ⟨hJ.change d _ hd hc fun _ hy => SameFile.set (scratch_ne_of_isOwn hy _), fun own =>
    .of_change hc fun _ hm _ => SameFile.set (scratch_ne_of_number hm)⟩

theorem remove (hd : J d) (h : d.remove (s.pathOf (x.scratch (s.scratchLabel n))) = .ok d') :
    J d' ∧ ∀ own, n ∉ own → s.KeepsOff own d d' := by
  obtain ⟨hc, rfl⟩ := remove_scratch hx.isPlain hx h
  exact ⟨hJ.change d _ hd hc fun _ hy => SameFile.erase (scratch_ne_of_isOwn hy _), fun own =>
    .of_change hc fun _ hm _ => SameFile.erase (scratch_ne_of_number hm)⟩

end IsInvariant

/-- Jobs that write to regular places of a cache. -/
def sharing (s : Store) (clock : Nat → Instant) {J : Disk → Prop} (hJ : s.IsInvariant J) :
    Sharing where
  clock := clock
  Inv := J
  Spares := s.KeepsOff
  Mine own p := ∃ n ∈ own, ∃ x : Place, x.IsRegular ∧ p = s.pathOf (x.scratch (s.scratchLabel n))
  refl := KeepsOff.refl s
  trans := KeepsOff.trans
  mine_cons := by
    rintro own p m ⟨n, hn, hx⟩
    exact ⟨n, List.mem_cons_of_mem _ hn, hx⟩
  remove := by
    rintro own p w ⟨n, hn, x, hx, rfl⟩ hd
    rcases World.change_cases
      (fun d => d.remove (s.pathOf (x.scratch (s.scratchLabel n)))) w.disk with
      ⟨e, -, hw⟩ | ⟨-, hw⟩
    · have hsame : (w.perform (.remove (s.pathOf (x.scratch (s.scratchLabel n))))).2.disk =
        w.disk := hw
      rw [hsame]
      exact ⟨hd, fun other _ => KeepsOff.refl s other _⟩
    · obtain ⟨hinv, hspares⟩ := hJ.remove hx hd hw
      exact ⟨hinv, fun other ho => hspares other fun hm => ho n hm hn⟩

/-! ## Steps -/

/-- A scratch file has got some content, and nothing was taken away in the meantime. -/
structure IsDraft (s : Store) (x : Place) (n : Nat) (content : Bytes) (d₀ d : Disk) : Prop where
  scratch : d.get? (s.locationOf (x.scratch (s.scratchLabel n))) = some (.file content)
  since : s.KeepsOff [] d₀ d

theorem IsDraft.later {content : Bytes} (h : s.IsDraft x n content d₀ d) (hd : s.KeepsOff own d d')
    (hn : n ∈ own) : s.IsDraft x n content d₀ d' :=
  ⟨(hd.scratch n hn x content).2 h.scratch, h.since.trans hd.any⟩

section Steps

variable {J : Disk → Prop} (hJ : s.IsInvariant J) {clock : Nat → Instant}
  (hx : x.IsRegular) {α : Type}
  {Q : Except Failure α → List Nat → Disk → Prop}
include hx

/-- Giving up: the scratch file is removed, as far as that works. -/
theorem discard_among {failure : Failure} (hn : n ∈ own)
    (herror : ∀ own' d', Q (.error failure) own' d') :
    (Job.step (.remove (s.pathOf (x.scratch (s.scratchLabel n)))) fun _ =>
      .done (.error failure)).Among (s.sharing clock hJ) own d Q := by
  intro w _ hinv _
  obtain ⟨hinv', hspares⟩ := (s.sharing clock hJ).remove ⟨n, hn, x, hx, rfl⟩ hinv
  exact ⟨⟨hinv', hspares, fun p hp => by cases hp⟩, herror _ _⟩

/-- The folders above a place are made, as far as that works. -/
theorem makeFolders_among {β : Type} {next : Except DiskFault Unit → Job β}
    {Q : β → List Nat → Disk → Prop}
    (h : ∀ r d', s.KeepsOff [] d d' → (next r).Among (s.sharing clock hJ) own d' Q) :
    (Job.step (.makeFolders (s.groupsFolder ++ x.names.dropLast)) next).Among (s.sharing clock hJ)
      own d Q := by
  intro w _ hinv hd
  have hmade : J (w.perform (.makeFolders (s.groupsFolder ++ x.names.dropLast))).2.disk ∧
      ∀ own, s.KeepsOff own w.disk
        (w.perform (.makeFolders (s.groupsFolder ++ x.names.dropLast))).2.disk := by
    rcases w.makeFolders_disk (s.groupsFolder ++ x.names.dropLast) with hw | hw
    · rw [hw]
      exact ⟨hinv, fun own => KeepsOff.refl s own _⟩
    · rw [hw]
      exact ⟨hJ.makeFolders hx hinv, fun own => .of_folders _ _⟩
  exact ⟨⟨hmade.1, fun other _ => hmade.2 other, fun p hp => by cases hp⟩,
    h _ _ (hd.any.trans (hmade.2 []))⟩

/-- Folders are made and a scratch file is created in them. -/
theorem begin_among {fault fault' : CacheFault} {f : Path → Attempt α}
    (herror : ∀ fault own' d', Q (.error (.cache fault)) own' d')
    (hnext : ∀ n own' d', n ∈ own' → s.IsDraft x n [] d d' →
      (f (s.pathOf (x.scratch (s.scratchLabel n)))).run.Among (s.sharing clock hJ) own' d' Q) :
    (do
      orFail fault (← Attempt.ask (.makeFolders (s.pathOf x).parent))
      let scratch ← s.newScratch (s.pathOf x)
      orFail fault' (← Attempt.ask (.create scratch))
      f scratch : Attempt α).run.Among (s.sharing clock hJ) own d Q := by
  rw [parent_pathOf s hx.isPlain]
  refine makeFolders_among hJ hx fun r d₁ hsince => ?_
  rcases r with e | _
  · exact herror _ _ _
  -- drawing a number
  refine Job.among_step_same (fun _ => rfl) (fun p hp => by cases hp) fun w₂ _ _ hd₂ => ?_
  -- creating the scratch file
  show (Job.step (.create (scratchBeside (s.pathOf x) (s.scratchLabel w₂.serial))) _).Among _ _ _ _
  rw [scratchBeside_pathOf s hx.isPlain]
  refine Job.among_step_change
    (fun d => d.create (s.pathOf (x.scratch (s.scratchLabel w₂.serial)))) id
    (fun _ => rfl) (fun _ => rfl) ?_ (fun e d' _ => herror _ _ _) fun d₃ d₄ hinv₃ hd₃ hcreate => ?_
  · intro p hp
    cases hp
    exact ⟨w₂.serial, List.mem_cons_self, x, hx, rfl⟩
  · obtain ⟨hinv₄, hspares⟩ := hJ.create hx hinv₃ hcreate
    refine ⟨hinv₄, fun other ho => hspares other fun hm => ho _ hm List.mem_cons_self, ?_⟩
    have hdraft : s.IsDraft x w₂.serial [] d d₄ := by
      refine ⟨?_, ((hsince.trans hd₂.any).trans hd₃.any).trans (hspares [] List.not_mem_nil)⟩
      rw [(create_scratch hx.isPlain hx hcreate).2, Disk.get?_set_self (s.locationOf_ne_nil _)]
    have hf := hnext w₂.serial (w₂.serial :: own) d₄ List.mem_cons_self hdraft
    rw [← scratchBeside_pathOf s hx.isPlain] at hf
    exact hf

/-- More octets are added to a scratch file. -/
theorem append_among {seen data : Bytes} {failure : Failure} {f : Attempt α} (hn : n ∈ own)
    (hw : s.IsDraft x n seen d₀ d) (herror : ∀ own' d', Q (.error failure) own' d')
    (hnext : ∀ d', s.IsDraft x n (seen ++ data) d₀ d' →
      f.run.Among (s.sharing clock hJ) own d' Q) :
    (do
      orDiscard (s.pathOf (x.scratch (s.scratchLabel n))) failure
        (← Attempt.ask (.append (s.pathOf (x.scratch (s.scratchLabel n))) data))
      f : Attempt α).run.Among (s.sharing clock hJ) own d Q := by
  refine Job.among_step_change (fun d => d.append (s.pathOf (x.scratch (s.scratchLabel n))) data) id
    (fun _ => rfl) (fun _ => rfl) (fun p hp => by cases hp)
    (fun e d' _ => discard_among hJ hx hn herror) fun d₁ d' hinv hd happend => ?_
  obtain ⟨hinv', hspares⟩ := hJ.append hx hinv happend
  refine ⟨hinv', fun other ho => hspares other fun hm => ho n hm hn, hnext d' ⟨?_, ?_⟩⟩
  · obtain ⟨-, content, hc, rfl⟩ := append_scratch hx.isPlain hx happend
    rw [(hw.later hd hn).scratch] at hc
    cases hc
    exact Disk.get?_set_self (s.locationOf_ne_nil _)
  · exact (hw.later hd hn).since.trans (hspares [] List.not_mem_nil)

/-- A scratch file is given to the device. -/
theorem sync_among {seen : Bytes} {failure : Failure} {f : Attempt α} (hn : n ∈ own)
    (hw : s.IsDraft x n seen d₀ d) (herror : ∀ own' d', Q (.error failure) own' d')
    (hnext : ∀ d', s.IsDraft x n seen d₀ d' → f.run.Among (s.sharing clock hJ) own d' Q) :
    (do
      orDiscard (s.pathOf (x.scratch (s.scratchLabel n))) failure
        (← Attempt.ask (.sync (s.pathOf (x.scratch (s.scratchLabel n)))))
      f : Attempt α).run.Among (s.sharing clock hJ) own d Q := by
  refine Job.among_step_same (fun w => w.sync_disk _) (fun p hp => by cases hp) fun w _ _ hd => ?_
  generalize (w.perform _).1 = r
  cases r with
  | ok _ => exact hnext _ (hw.later hd hn)
  | error e => exact discard_among hJ hx hn herror

/-- A scratch file takes its place, where others may have put one in the meantime. -/
theorem rename_among {content : Bytes} {failure : Failure}
    {Q : Except Failure Unit → List Nat → Disk → Prop} (hn : n ∈ own) (ho : x.IsOwn)
    (hfit : x.fits content) (hw : s.IsDraft x n content d₀ d)
    (hput : ∀ d₁ d', J d₁ → s.KeepsOff [] d₀ d₁ → s.Change (Eq x) d₁ d' →
      d'.find (s.pathOf x) = .ok (.file content) → J d')
    (herror : ∀ own' d', Q (.error failure) own' d')
    (hok : ∀ d', J d' → s.KeepsOff [] d₀ d' → d'.find (s.pathOf x) = .ok (.file content) →
      Q (.ok ()) own d') :
    (do
      orDiscard (s.pathOf (x.scratch (s.scratchLabel n))) failure
        (← Attempt.ask (.rename (s.pathOf (x.scratch (s.scratchLabel n))) (s.pathOf x)))
      : Attempt Unit).run.Among (s.sharing clock hJ) own d Q := by
  refine Job.among_step_change
    (fun d => d.rename (s.pathOf (x.scratch (s.scratchLabel n))) (s.pathOf x)) id
    (fun _ => rfl) (fun _ => rfl) (fun p hp => by cases hp)
    (fun e d' _ => discard_among hJ hx hn herror) fun d₁ d' hinv hd hrename => ?_
  have hdraft := hw.later hd hn
  obtain ⟨hc, hfind⟩ := rename_scratch hx.isPlain (Eq.refl x) hfit hdraft.scratch hrename
  have hspares : ∀ other, n ∉ other → s.KeepsOff other d₁ d' := by
    refine fun other => .of_change hc fun m hm y => ?_
    obtain ⟨-, -, c, -, -, rfl⟩ := Disk.rename_eq_ok hrename
    rw [location_pathOf s hx.isPlain, location_pathOf s (hx.isPlain.scratch _)]
    exact (SameFile.erase (scratch_ne_of_number hm)).trans
      (SameFile.set (scratch_ne_of_isOwn ho _).symm)
  have hinv' := hput d₁ d' hinv hdraft.since hc hfind
  have hsince := hdraft.since.trans (hspares [] List.not_mem_nil)
  exact ⟨hinv', fun other ho => hspares other fun hm => ho n hm hn, hok d' hinv' hsince hfind⟩

/-- The whole content gets to its place, or nothing of it. -/
theorem writeWhole_among {data : Bytes} {Q : Except Failure Unit → List Nat → Disk → Prop}
    (ho : x.IsOwn) (hfit : x.fits data)
    (hput : ∀ d₁ d', J d₁ → s.KeepsOff [] d d₁ → s.Change (Eq x) d₁ d' →
      d'.find (s.pathOf x) = .ok (.file data) → J d')
    (herror : ∀ failure own' d', Q (.error failure) own' d')
    (hok : ∀ own' d', J d' → s.KeepsOff [] d d' → d'.find (s.pathOf x) = .ok (.file data) →
      Q (.ok ()) own' d') :
    (s.writeWhole (s.pathOf x) data).run.Among (s.sharing clock hJ) own d Q := by
  refine begin_among hJ hx (fun _ => herror _) fun n own' d₁ hn h₁ => ?_
  refine append_among hJ hx hn h₁ (herror _) fun d₂ h₂ => ?_
  refine sync_among hJ hx hn h₂ (herror _) fun d₃ h₃ => ?_
  exact rename_among hJ hx hn ho hfit h₃ hput (herror _) fun d' => hok own' d'

/-- A file is read that may be missing. Nothing else can be wrong but its path. -/
theorem readIfThere_among {fault : CacheFault} {f : Option Bytes → Attempt α}
    (hrefused : ∀ e d', Disk.checkPath (s.pathOf x) = .error e → Q (.error (.cache fault)) own d')
    (hnone : ∀ d', J d' → s.KeepsOff own d d' → d'.get? (s.locationOf x) = none →
      (f none).run.Among (s.sharing clock hJ) own d' Q)
    (hsome : ∀ d' content, J d' → s.KeepsOff own d d' →
      d'.get? (s.locationOf x) = some (.file content) →
        (f (some content)).run.Among (s.sharing clock hJ) own d' Q) :
    (readIfThere fault (s.pathOf x) >>= f).run.Among (s.sharing clock hJ) own d Q := by
  rw [Attempt.run_bind, Job.among_bind]
  refine Job.among_step_same (fun _ => rfl) (fun p hp => by cases hp) fun w _ hinv hd => ?_
  have hlaid := hJ.isLaidOut w.disk hinv
  have hfind := hlaid.find_eq hx
  dsimp only [World.perform, Disk.read]
  cases hc : Disk.checkPath (s.pathOf x) with
  | error e =>
    rw [hc] at hfind
    rw [hfind]
    rcases Disk.checkPath_eq_error hc with rfl | rfl
    · exact hrefused _ _ hc
    · exact hrefused _ _ hc
  | ok _ =>
    rw [hc] at hfind
    cases hg : w.disk.get? (s.locationOf x) with
    | none =>
      rw [hg] at hfind
      rw [hfind]
      exact hnone w.disk hinv hd hg
    | some e =>
      cases e with
      | folder => exact absurd hg (hlaid.not_folder hx.toIsFlat)
      | file content =>
        rw [hg] at hfind
        rw [hfind]
        exact hsome w.disk content hinv hd hg

end Steps

end PullThrough.Store
