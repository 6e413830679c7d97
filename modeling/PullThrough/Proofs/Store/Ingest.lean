import PullThrough.Proofs.Job.Flawless
import PullThrough.Proofs.Store.Success
/-
  What becomes of a blob that comes in pieces.

  A blob is hashed, counted and written piece by piece, but only what the pieces are together
  counts. The main result (`Store.writeBlobStream_ingests`) says what keeping a stream comes to
  where no step fails, for all names that are checked and every disk of an open cache on which the
  place of the blob holds nothing or the blob: the stream is kept just if it comes to its end and
  all of it has the digest, what is there stays, and in any other case nothing changes for readers.

  The loop keeps one invariant (`IsPouring`): the scratch file holds what was seen, and the place of
  the blob can be reached and holds what it did. That the place can be reached follows from the
  creation of the scratch file beside it (`Disk.locate_sibling`).
-/
namespace PullThrough.Store

open PullThrough.Path (location)

variable {s : Store} {x : Place} {label : String} {d d' : Disk} {w : World} {found : Option Bytes}
  {seen : Bytes} {α : Type}

/-! ## Places that hold a file or nothing -/

/-- A place holds nothing, or a file that can be found. -/
def Bears (s : Store) (x : Place) (d : Disk) : Option Bytes → Prop
  | none => d.get? (s.locationOf x) = none
  | some content => d.find (s.pathOf x) = .ok (.file content)

/-- What looking for a file comes to. -/
def foundAs : Option Bytes → Except DiskFault Entry
  | none => .error .missing
  | some content => .ok (.file content)

theorem Bears.get? (h : s.Bears x d found) (hx : x.IsPlain) :
    d.get? (s.locationOf x) = found.map .file := by
  cases found with
  | none => exact h
  | some content =>
    rw [← location_pathOf s hx]
    exact (Disk.find_eq_ok h).2

theorem find_of_reach (hreach : d.locate (s.pathOf x) = .ok (s.locationOf x))
    (hplace : d.get? (s.locationOf x) = found.map .file) : d.find (s.pathOf x) = foundAs found := by
  have hlocation := Disk.location_of_locate hreach
  rw [hlocation] at hreach hplace
  cases found with
  | none => exact Disk.find_missing hreach hplace
  | some content => exact Disk.find_of_locate hreach hplace

/-- A path is no longer than that of a scratch file beside its end. -/
theorem checkPath_of_scratch (h : Disk.checkPath (s.pathOf (x.scratch label)) = .ok ()) :
    Disk.checkPath (s.pathOf x) = .ok () := by
  obtain ⟨hclear, hsize⟩ := Disk.checkPath_eq_ok h
  rw [pathOf_concat, Place.dropLast_scratch] at hclear hsize
  rw [pathOf_concat]
  have hfile : (x.scratch label).file = x.file ++ "." ++ label ++ ".tmp" := rfl
  refine Disk.checkPath_of_size (fun part hp => ?_) ?_
  · rcases List.mem_append.1 hp with hp | hp
    · exact hclear part (List.mem_append_left _ hp)
    · obtain rfl := List.mem_singleton.1 hp
      have hlast := hclear (x.scratch label).file (by simp)
      rw [hfile] at hlast
      simp only [String.toList_append, List.mem_append, not_or] at hlast
      exact hlast.1.1.1
  · rw [Disk.pathSize_append] at hsize ⊢
    refine Nat.le_trans (Nat.add_le_add_left ?_ _) hsize
    show x.file.utf8ByteSize + 1 + 0 ≤ (x.scratch label).file.utf8ByteSize + 1 + 0
    rw [hfile, String.utf8ByteSize_append, String.utf8ByteSize_append, String.utf8ByteSize_append]
    omega

/-- The folder of all groups is there, or the way to it leads only down. -/
def IsReachable (s : Store) (d : Disk) : Prop :=
  d.find s.groupsFolder = .ok .folder ∨ ".." ∉ s.groupsFolder

/-- Making the folders on the way changes nothing at a place. -/
theorem get?_makeFolders (hx : x.IsPlain) (hreach : s.IsReachable d) :
    (d.makeFolders (s.groupsFolder ++ x.names.dropLast)).2.get? (s.locationOf x) =
      d.get? (s.locationOf x) := by
  have hplain : ∀ n ∈ x.names.dropLast, Path.IsPlain n :=
    fun n hn => hx n (List.dropLast_subset _ hn)
  -- all folders on the way have shorter locations
  have hshorter : ∀ names, names <+: s.root ++ x.names.dropLast → s.locationOf x ≠ names := by
    rintro _ hnames rfl
    have hlength := hnames.length_le
    rw [locationOf, List.length_append, List.length_append, List.length_dropLast] at hlength
    have hpos : 0 < x.names.length := by simp [Place.names]
    omega
  rcases hreach with hready | hdown
  · rcases folders_of_ready hready hplain (s.locationOf x) with hsame | ⟨-, -, q, part, hq, hl, -⟩
    · exact hsame
    · rw [List.append_assoc] at hl
      exact absurd hl (hshorter _ ((List.prefix_append_right_inj _).2 hq))
  · rcases Disk.foldersMade d (s.groupsFolder ++ x.names.dropLast) (s.locationOf x) with
      hsame | ⟨-, -, q, part, hq, hl, -⟩
    · exact hsame
    · have hdown' : ".." ∉ s.groupsFolder ++ x.names.dropLast := by
        rw [List.mem_append, not_or]
        exact ⟨hdown, fun hn => (hplain _ hn).2.2 rfl⟩
      have hprefix := Path.location_prefix hdown' hq
      rw [Path.location_append_plain _ hplain] at hprefix
      exact absurd hl (hshorter _ hprefix)

/-! ## The work on a scratch file -/

/-- A scratch file holds what was seen, and the place beside it can be reached and holds what it
did. -/
structure IsPouring (s : Store) (x : Place) (label : String) (seen : Bytes) (found : Option Bytes)
    (d : Disk) : Prop where
  scratch : d.get? (s.locationOf (x.scratch label)) = some (.file seen)
  reach : d.locate (s.pathOf x) = .ok (s.locationOf x)
  place : d.get? (s.locationOf x) = found.map .file

namespace IsPouring

theorem find (h : IsPouring s x label seen found d) : d.find (s.pathOf x) = foundAs found :=
  find_of_reach h.reach h.place

/-- A scratch file that was created beside a place. -/
theorem create (hx : x.IsPlain) (hshort : x.file.utf8ByteSize ≤ Disk.maxName)
    (hplace : d.get? (s.locationOf x) = found.map .file)
    (h : d.create (s.pathOf (x.scratch label)) = .ok d') : IsPouring s x label [] found d' := by
  obtain ⟨hlocate, hfolder, -⟩ := Disk.create_eq_ok h
  obtain ⟨-, rfl⟩ := create_scratch hx (Eq.refl x) h
  rw [location_pathOf s (hx.scratch label)] at hfolder
  have hreach := Disk.locate_mono (fun _ => Disk.get?_set_of_folder (e := .file []) hfolder) hlocate
  have hcheck := checkPath_of_scratch (Disk.locate_ok hlocate).1
  refine ⟨Disk.get?_set_self (s.locationOf_ne_nil _), ?_, ?_⟩
  · rw [pathOf_concat, Place.dropLast_scratch] at hreach
    rw [← location_pathOf s hx, pathOf_concat]
    rw [pathOf_concat] at hcheck
    exact Disk.locate_sibling hreach hcheck hshort
  · rw [Disk.get?_set_of_ne (s.scratch_ne x label).symm]
    exact hplace

theorem append {piece : Bytes} (hx : x.IsPlain) (h : IsPouring s x label seen found d)
    (hop : d.append (s.pathOf (x.scratch label)) piece = .ok d') :
    IsPouring s x label (seen ++ piece) found d' := by
  obtain ⟨-, content, hcontent, rfl⟩ := append_scratch hx (Eq.refl x) hop
  rw [h.scratch] at hcontent
  obtain rfl : seen = content := by simpa using hcontent
  have hfolder : d.get? (s.locationOf (x.scratch label)) ≠ some .folder := by
    rw [h.scratch]
    simp
  refine ⟨Disk.get?_set_self (s.locationOf_ne_nil _), ?_, ?_⟩
  · exact Disk.locate_mono (fun _ => Disk.get?_set_of_folder hfolder) h.reach
  · rw [Disk.get?_set_of_ne (s.scratch_ne x label).symm]
    exact h.place

/-- A scratch file that is removed leaves the place as it was. -/
theorem discard (hx : x.IsPlain) (h : IsPouring s x label seen found d)
    (hop : d.remove (s.pathOf (x.scratch label)) = .ok d') :
    d'.find (s.pathOf x) = foundAs found := by
  obtain ⟨-, rfl⟩ := remove_scratch hx (Eq.refl x) hop
  have hfolder : d.get? (s.locationOf (x.scratch label)) ≠ some .folder := by
    rw [h.scratch]
    simp
  refine find_of_reach (Disk.locate_mono (fun _ => Disk.get?_erase_of_folder hfolder) h.reach) ?_
  rw [Disk.get?_erase_of_ne (s.scratch_ne x label).symm]
  exact h.place

end IsPouring

/-- Folders are made and a scratch file is created in them. -/
theorem begin_flawlessly {fault fault' : CacheFault} {f : Path → Attempt α}
    {Q : Except Failure α → World → Prop} (hx : x.IsPlain)
    (hshort : x.file.utf8ByteSize ≤ Disk.maxName) (hreach : s.IsReachable w.disk)
    (hbears : s.Bears x w.disk found)
    (hnext : ∀ label w', w.disk.find (s.pathOf x) = foundAs found →
      IsPouring s x label [] found w'.disk → (f (s.pathOf (x.scratch label))).run.Flawlessly w' Q) :
    (do
      orFail fault (← Attempt.ask (.makeFolders (s.pathOf x).parent))
      let scratch ← s.newScratch (s.pathOf x)
      orFail fault' (← Attempt.ask (.create scratch))
      f scratch : Attempt α).run.Flawlessly w Q := by
  rw [parent_pathOf s hx]
  refine Job.flawlessly_makeFolders fun w₁ hmade hd₁ => ?_
  refine Job.flawlessly_step fun _ => ?_
  show (Job.step (.create (scratchBeside (s.pathOf x) (s.scratchLabel _))) _).Flawlessly _ _
  rw [scratchBeside_pathOf s hx]
  refine Job.flawlessly_create fun w₂ hcreated => hnext _ w₂ ?_ ?_
  · cases found with
    | some content => exact hbears
    | none =>
      have hlocate := (Disk.create_eq_ok hcreated).1
      have hcheck := checkPath_of_scratch (Disk.locate_ok hlocate).1
      have hfree := hbears.get? hx
      rw [← location_pathOf s hx] at hfree
      rw [pathOf_concat] at hcheck hfree ⊢
      exact Disk.find_of_makeFolders hmade hcheck hshort hfree
  · refine .create hx hshort ?_ hcreated
    show w₁.disk.get? _ = _
    rw [hd₁, get?_makeFolders hx hreach]
    exact hbears.get? hx

/-- The pieces of a stream are added to a scratch file. -/
theorem writePieces_flawlessly (hx : x.IsPlain) {stream : List (Except Failure Bytes)}
    (h : IsPouring s x label seen found w.disk) :
    (writePieces (s.pathOf (x.scratch label)) seen stream).run.Flawlessly w fun r w' =>
      r = (arrived stream).map (seen ++ ·) ∧
        match r with
        | .ok data => IsPouring s x label data found w'.disk
        | .error _ => w'.disk.find (s.pathOf x) = foundAs found := by
  induction stream generalizing seen w with
  | nil => exact Job.flawlessly_done.2 ⟨by simp [arrived, Except.map], h⟩
  | cons piece rest ih =>
    cases piece with
    | error failure =>
      exact Job.flawlessly_remove fun w' hop => Job.flawlessly_done.2 ⟨rfl, h.discard hx hop⟩
    | ok piece =>
      refine Job.flawlessly_append fun w' hop => (ih (h.append hx hop)).post ?_
      rintro r w'' ⟨rfl, hend⟩
      refine ⟨?_, hend⟩
      rw [arrived]
      cases arrived rest with
      | error failure => rfl
      | ok more => simp [Except.map]

/-! ## Streams -/

/-- What the place of a digest holds after a stream was offered for it. -/
def keptOf (digest : Digest) (stream : List (Except Failure Bytes)) (found : Option Bytes) :
    Option Bytes :=
  match arrived stream with
  | .ok data => if Digest.of data = digest then some (found.getD data) else found
  | .error _ => found

variable {group image : String} {digest : Digest} {stream : List (Except Failure Bytes)}

/-- Where no step fails, the answer goes by what arrives of the stream, and so does what is found at
the place of the blob. -/
theorem writeBlobStream_flawlessly (hg : Name.checkGroup group = .ok ())
    (hi : Name.checkImage image = .ok ()) (hreach : s.IsReachable w.disk)
    (hbears : s.Bears (.blob group image digest) w.disk found) :
    (s.writeBlobStream group image digest stream).run.Flawlessly w fun r w' =>
      r = s.streamOutcome group image digest stream ∧
        w.disk.find (s.blobPath group image digest) = foundAs found ∧
        w'.disk.find (s.blobPath group image digest) = foundAs (keptOf digest stream found) := by
  have hg' := Name.isGroup_of_check hg
  have hi' := Name.isImage_of_check hi
  have hx := Place.isPlain_blob hg' hi' digest
  unfold writeBlobStream streamOutcome keptOf
  rw [s.blobPath_eq hg' hi']
  have hshort := Place.isShort_blob hg' hi' digest digest.hex (by simp [Place.names, Place.blob])
  refine begin_flawlessly hx hshort hreach hbears ?_
  intro label w₁ hbefore h₁
  rw [Attempt.run_bind]
  refine Job.Flawlessly.bind ((writePieces_flawlessly hx h₁).post ?_)
  rintro r w₂ ⟨hr, h₂⟩
  cases ha : arrived stream with
  | error failure =>
    rw [ha] at hr
    subst hr
    exact Job.flawlessly_done.2 ⟨rfl, hbefore, h₂⟩
  | ok data =>
    obtain rfl : r = .ok data := by rw [hr, ha]; rfl
    change IsPouring s _ label data found w₂.disk at h₂
    refine Job.flawlessly_sync fun w₃ hd₃ => ?_
    rw [← hd₃] at h₂
    dsimp only
    by_cases hd : Digest.of data = digest
    case neg =>
      rw [if_pos hd, if_neg hd, if_neg hd]
      exact Job.flawlessly_remove fun w₄ hop =>
        Job.flawlessly_done.2 ⟨rfl, hbefore, h₂.discard hx hop⟩
    rw [if_neg (by simpa using hd), if_pos hd, if_pos hd]
    refine Job.flawlessly_step fun _ => ?_
    show Job.Flawlessly (ExceptT.run (if (w₃.disk.find
      (s.pathOf (.blob group image digest))).toOption.isSome then _ else _)) w₃ _
    rw [h₂.find]
    cases found with
    | some content =>
      -- the file that is there stays, and the scratch file goes
      exact Job.flawlessly_remove fun w₄ hop =>
        Job.flawlessly_done.2 ⟨rfl, hbefore, h₂.discard hx hop⟩
    | none =>
      refine Job.flawlessly_rename fun w₄ hop => Job.flawlessly_done.2 ⟨rfl, hbefore, ?_⟩
      exact (rename_scratch hx (Eq.refl (Place.blob group image digest)) hd h₂.scratch hop).2

theorem blobAt_congr
    (h : d'.find (s.blobPath group image digest) = d.find (s.blobPath group image digest)) :
    s.blobAt group image digest d' = s.blobAt group image digest d := by
  unfold blobAt
  dsimp only
  rw [h]

section Outcomes

variable {pieces : List Bytes} {failure : Failure} {rest : List (Except Failure Bytes)}

theorem outcome_of_good (s : Store) (group image : String) (hd : Digest.of pieces.flatten = digest)
    (found : Option Bytes) :
    s.streamOutcome group image digest (pieces.map .ok) =
        .ok ⟨group, image, digest, pieces.flatten.length, s.blobPath group image digest⟩ ∧
      keptOf digest (pieces.map .ok) found = some (found.getD pieces.flatten) := by
  unfold streamOutcome keptOf
  rw [arrived_map]
  exact ⟨if_pos hd, if_pos hd⟩

theorem outcome_of_mismatch (s : Store) (group image : String)
    (hd : Digest.of pieces.flatten ≠ digest) (found : Option Bytes) :
    s.streamOutcome group image digest (pieces.map .ok) =
        .error (.digestMismatch digest.text (Digest.of pieces.flatten).text) ∧
      keptOf digest (pieces.map .ok) found = found := by
  unfold streamOutcome keptOf
  rw [arrived_map]
  exact ⟨if_neg hd, if_neg hd⟩

theorem outcome_of_failure (s : Store) (group image : String) (digest : Digest)
    (pieces : List Bytes) (failure : Failure) (rest : List (Except Failure Bytes))
    (found : Option Bytes) :
    s.streamOutcome group image digest (pieces.map .ok ++ .error failure :: rest) = .error failure ∧
      keptOf digest (pieces.map .ok ++ .error failure :: rest) found = found := by
  unfold streamOutcome keptOf
  rw [arrived_append]
  exact ⟨rfl, rfl⟩

/-- The streams that are kept. -/
theorem isOk_streamOutcome_iff :
    (s.streamOutcome group image digest stream).isOk = true ↔
      ∃ pieces : List Bytes, stream = pieces.map .ok ∧ Digest.of pieces.flatten = digest := by
  constructor
  · intro h
    rcases stream_cases stream with ⟨pieces, rfl⟩ | ⟨pieces, failure, rest, rfl⟩
    · by_cases hd : Digest.of pieces.flatten = digest
      · exact ⟨pieces, rfl, hd⟩
      · rw [(outcome_of_mismatch s group image hd none).1] at h
        cases h
    · rw [(outcome_of_failure s group image digest pieces failure rest none).1] at h
      cases h
  · rintro ⟨pieces, rfl, hd⟩
    rw [(outcome_of_good s group image hd none).1]
    rfl

end Outcomes

/-- What keeping a stream comes to, where the place of the blob holds nothing or the blob, and
no step fails. The stream is kept if and only if it has no failure and all of it has the
digest. Then the record has the length of all pieces, and what is found at the place is what
was there or else the pieces, and has the digest. Otherwise the answer is the first failure of
the stream, or that the digests differ, and the blob is found or not as before. How a stream is
cut into pieces does not count.

The cache has been opened, so its folder of all groups is there. If that was taken away
since, its path must not go up, since it could lead over the place of the blob, where making
it would leave a folder. -/
theorem writeBlobStream_ingests (hg : Name.checkGroup group = .ok ())
    (hi : Name.checkImage image = .ok ()) (hreach : s.IsReachable w.disk)
    (hbears : s.Bears (.blob group image digest) w.disk found)
    (hfits : ∀ content, found = some content → Digest.of content = digest)
    (hsteps : (s.writeBlobStream group image digest stream).run.IsFlawless w) :
    let path := s.blobPath group image digest
    let keep := fun stream => (s.writeBlobStream group image digest stream).run
    let seek := fun w => ((s.blob group image digest).run.run w).1
    let answer := ((keep stream).run w).1
    let w' := ((keep stream).run w).2
    (answer.isOk = true ↔
      ∃ pieces : List Bytes, stream = pieces.map .ok ∧ Digest.of pieces.flatten = digest) ∧
    (∀ pieces : List Bytes, stream = pieces.map .ok → Digest.of pieces.flatten = digest →
      answer = .ok ⟨group, image, digest, pieces.flatten.length, path⟩ ∧
        ∃ content, w'.disk.find path = .ok (.file content) ∧
          content = found.getD pieces.flatten ∧ Digest.of content = digest ∧
            seek w' = .ok (some ⟨group, image, digest, content.length, path⟩)) ∧
    (∀ (pieces : List Bytes) failure rest, stream = pieces.map .ok ++ .error failure :: rest →
      answer = .error failure ∧ seek w' = seek w) ∧
    (∀ pieces : List Bytes, stream = pieces.map .ok → Digest.of pieces.flatten ≠ digest →
      answer = .error (.digestMismatch digest.text (Digest.of pieces.flatten).text) ∧
        seek w' = seek w) ∧
    ∀ (pieces pieces' : List Bytes) (u : World), stream = pieces.map .ok →
      pieces'.flatten = pieces.flatten → u.disk = w.disk → (keep (pieces'.map .ok)).IsFlawless u →
        ((keep (pieces'.map .ok)).run u).1 = answer ∧
          ((keep (pieces'.map .ok)).run u).2.disk.find path = w'.disk.find path := by
  intro path keep seek answer w'
  obtain ⟨hanswer, hbefore, hafter⟩ := writeBlobStream_flawlessly hg hi hreach hbears hsteps
  change answer = _ at hanswer
  change w'.disk.find path = _ at hafter
  have hseek : ∀ w, seek w = s.blobAt group image digest w.disk := fun w => by
    show ((s.blob group image digest).run.run w).1 = _
    rw [(s.blob_comesTo group image digest w).run]
  -- where nothing new is kept, a look at the place gives what it gave
  have hsame : keptOf digest stream found = found → seek w' = seek w := by
    intro hkept
    rw [hseek, hseek]
    refine blobAt_congr (hafter.trans ?_)
    rw [hkept]
    exact hbefore.symm
  refine ⟨?_, ?_, ?_, ?_, ?_⟩
  · rw [hanswer]
    exact isOk_streamOutcome_iff
  · rintro pieces rfl hd
    obtain ⟨hgood, hkept⟩ := outcome_of_good s group image hd found
    rw [hkept] at hafter
    refine ⟨hanswer.trans hgood, _, hafter, rfl, ?_, ?_⟩
    · cases found with
      | none => exact hd
      | some content => exact hfits content rfl
    · rw [hseek, blobAt, hafter]
      rfl
  · rintro pieces failure rest rfl
    obtain ⟨hbad, hkept⟩ := outcome_of_failure s group image digest pieces failure rest found
    exact ⟨hanswer.trans hbad, hsame hkept⟩
  · rintro pieces rfl hd
    obtain ⟨hbad, hkept⟩ := outcome_of_mismatch s group image hd found
    exact ⟨hanswer.trans hbad, hsame hkept⟩
  · rintro pieces pieces' u rfl hflat hdisk hsteps'
    rw [← hdisk] at hreach hbears
    obtain ⟨hanswer', -, hafter'⟩ := writeBlobStream_flawlessly hg hi hreach hbears hsteps'
    have harrived : arrived (pieces'.map .ok) = arrived (pieces.map .ok) := by
      rw [arrived_map, arrived_map, hflat]
    refine ⟨hanswer'.trans (Eq.trans ?_ hanswer.symm), hafter'.trans (Eq.trans ?_ hafter.symm)⟩
    · unfold streamOutcome
      rw [harrived]
    · unfold keptOf
      rw [harrived]

/-- A text in three pieces, one of them empty, comes into a new cache. -/
theorem writeBlobStream_ingests_of_new :
    let s : Store := { base := [""] }
    let w : World :=
      { disk := ⟨[(Slot.of ["groups"], .folder)]⟩, clock := fun _ => ⟨0, 0⟩
        origin := fun _ _ => .failed }
    let pieces := [Bytes.ofText "he", [], Bytes.ofText "llo"]
    let digest := Digest.of (Bytes.ofText "hello")
    let stream : List (Except Failure Bytes) := pieces.map .ok
    (s.writeBlobStream "g" "library/i" digest stream).run.IsFlawless w ∧
      ((s.writeBlobStream "g" "library/i" digest stream).run.run w).1 =
        .ok ⟨"g", "library/i", digest, 5, s.blobPath "g" "library/i" digest⟩ := by
  intro s w pieces digest stream
  have hsteps : (s.writeBlobStream "g" "library/i" digest stream).run.IsFlawless w := by
    show ∀ e ∈ Job.trace _ _, _
    decide +kernel
  have hflat : pieces.flatten = Bytes.ofText "hello" := by decide +kernel
  have hlength : pieces.flatten.length = 5 := by decide +kernel
  have hdigest : Digest.of pieces.flatten = digest := congrArg Digest.of hflat
  have hnothing : s.Bears (.blob "g" "library/i" digest) w.disk none := isEmpty_of_new.place _
  obtain ⟨-, hgood, -⟩ := writeBlobStream_ingests (by decide +kernel) (by decide +kernel)
    (.inl isEmpty_of_new.ready) hnothing (fun _ h => by cases h) hsteps
  obtain ⟨hanswer, -⟩ := hgood pieces rfl hdigest
  rw [hlength] at hanswer
  exact ⟨hsteps, hanswer⟩

end PullThrough.Store
