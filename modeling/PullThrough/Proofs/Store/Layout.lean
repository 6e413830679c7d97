import PullThrough.Proofs.Job.Smooth
import PullThrough.Proofs.Store.Reading
import PullThrough.Proofs.Store.Writing
/-
  Caches in which files and folders do not get in each other's way.

  If no image has a part that is named as a folder of tags or of digests, then what lies deep,
  behind such a folder, are files, and all that is not deep are folders (`Store.IsLaidOut`). So the
  way to a place is never blocked by a file, and its file is never a folder. Looking for a file is
  then a look at its location (`Store.IsLaidOut.find_eq`), and what is read depends on nothing but
  the files that are read (`Store.IsLaidOut.manifestAt_eq`, `Store.IsLaidOut.blobAt_eq`).
-/
namespace PullThrough

open PullThrough.Path (location)

/-! ## Deep names -/

/-- Names behind a folder of tags or of digests. -/
def IsDeep (names : Location) : Prop :=
  "tags" ∈ (names.drop 2).dropLast ∨ "sha256" ∈ (names.drop 2).dropLast

/-- A place behind just one such folder. -/
structure Place.IsFlat (x : Place) : Prop where
  tags : "tags" ∉ Path.ofText x.image
  digests : "sha256" ∉ Path.ofText x.image
  folder : x.folder = "tags" ∨ x.folder = "sha256"

namespace Place.IsFlat

variable {x : Place} {q : Location}

theorem isDeep (h : x.IsFlat) : IsDeep x.names := by
  have hnames : (x.names.drop 2).dropLast = Path.ofText x.image ++ [x.folder] := by
    simp [names, List.dropLast_append_of_ne_nil]
  rw [IsDeep, hnames]
  rcases h.folder with hf | hf
  · exact .inl (by simp [hf])
  · exact .inr (by simp [hf])

theorem scratch (h : x.IsFlat) (label : String) : (x.scratch label).IsFlat := ⟨h.1, h.2, h.3⟩

theorem not_isDeep (h : x.IsFlat) (hq : q <+: x.names.dropLast) : ¬ IsDeep q := by
  rintro (hd | hd)
  · exact Store.not_mem_of_prefix h.tags hq hd
  · exact Store.not_mem_of_prefix h.digests hq hd

end Place.IsFlat

/-- A place that files of a cache may be written to. -/
structure Place.IsRegular (x : Place) : Prop extends x.IsFlat where
  isPlain : x.IsPlain
  isShort : x.IsShort
  isSound : x.IsSound

namespace Store

variable {s : Store} {d d' : Disk} {x : Place} {allowed : Place → Prop}

/-- What lies deep are files, and all else are folders. -/
structure IsLaidOut (s : Store) (d : Disk) : Prop where
  isTidy : s.IsTidy d
  folders : ∀ names, d.get? (s.root ++ names) = some .folder → ¬ IsDeep names
  files : ∀ names content, d.get? (s.root ++ names) = some (.file content) → IsDeep names

namespace IsLaidOut

theorem change (h : s.IsLaidOut d) (hreg : ∀ x, allowed x → x.IsRegular)
    (hc : s.Change allowed d d') : s.IsLaidOut d' where
  isTidy := h.isTidy.change (fun x hx => (hreg x hx).isPlain) (fun x hx => (hreg x hx).isSound) hc
  folders names hf := by
    rcases hc.folder_cases h.isTidy (fun x hx => (hreg x hx).isPlain) hf with hold | ⟨x, hx, hq⟩
    · exact h.folders names hold
    · exact (hreg x hx).not_isDeep hq
  files names content hf := by
    rcases hc.file_cases hf with hold | ⟨x, hx, hl | ⟨label, hl⟩⟩
    · exact h.files names content hold
    · rw [List.append_cancel_left hl]
      exact (hreg x hx).isDeep
    · rw [List.append_cancel_left hl]
      exact ((hreg x hx).scratch label).isDeep

theorem of_isEmpty (h : s.IsEmpty d) : s.IsLaidOut d where
  isTidy := h.isTidy
  folders names hf := by
    cases names with
    | nil => rintro (hd | hd) <;> cases hd
    | cons name names =>
      rw [h.nothing _ (by simp)] at hf
      cases hf
  files names content hf := by
    cases names with
    | nil =>
      rw [List.append_nil, h.isTidy.root] at hf
      cases hf
    | cons name names =>
      rw [h.nothing _ (by simp)] at hf
      cases hf

/-! ## Looking -/

/-- No file is in the way to a place. -/
theorem not_file (h : s.IsLaidOut d) (hx : x.IsFlat) {q : Location} (hq : q <+: x.names.dropLast)
    (content : Bytes) : d.get? (s.root ++ q) ≠ some (.file content) :=
  fun hf => hx.not_isDeep hq (h.files q content hf)

/-- No folder is at a place. -/
theorem not_folder (h : s.IsLaidOut d) (hx : x.IsFlat) : d.get? (s.locationOf x) ≠ some .folder :=
  fun hf => h.folders x.names hf hx.isDeep

/-- Looking for what is at a place is a look at its location. -/
theorem find_eq (h : s.IsLaidOut d) (hx : x.IsRegular) : d.find (s.pathOf x) =
    match Disk.checkPath (s.pathOf x) with
    | .error e => .error e
    | .ok _ =>
      match d.get? (s.locationOf x) with
      | some e => .ok e
      | none => .error .missing := by
  cases hc : Disk.checkPath (s.pathOf x) with
  | error e =>
    rw [Disk.find, Disk.locate_of_check_error hc]
    rfl
  | ok _ =>
    have hgroups := (Disk.locate_ok (Disk.find_eq_ok h.isTidy.ready).1).2
    have hway : (s.pathOf x).foldlM d.enter [] = x.names.foldlM d.enter s.root := by
      rw [pathOf, List.foldlM_append, hgroups]
      rfl
    -- no file stands on the way, so it ends at the place or before something that is missing
    have hfree : ∀ r part, r ++ [part] <+: x.names → ∀ content,
        d.get? (s.root ++ r) ≠ some (.file content) := by
      intro r part hr
      refine h.not_file hx.toIsFlat ?_
      obtain ⟨rest, hrest⟩ := hr
      rw [← hrest, List.append_assoc, List.dropLast_append_of_ne_nil (by simp)]
      exact List.prefix_append _ _
    rw [Disk.find, Disk.locate_of_check hc, hway]
    rcases Disk.foldlM_enter_of_free hx.isPlain hx.isShort hfree with hl | ⟨hl, r, part, hr, hn⟩
    · rw [hl, locationOf]
      rfl
    · -- and behind what is missing there is nothing
      have hnone : d.get? (s.locationOf x) = none := by
        by_contra hsome
        have := h.isTidy.below hsome hr
        rw [hn] at this
        cases this
      rw [hl, hnone]
      rfl

/-- What is found at a place depends on nothing but its file. -/
theorem find_same (h : s.IsLaidOut d) (h' : s.IsLaidOut d') (hx : x.IsRegular)
    (hs : SameFile (s.locationOf x) d d') : d'.find (s.pathOf x) = d.find (s.pathOf x) := by
  have hget : d'.get? (s.locationOf x) = d.get? (s.locationOf x) := by
    cases hg : d.get? (s.locationOf x) with
    | some e =>
      cases e with
      | folder => exact absurd hg (h.not_folder hx.toIsFlat)
      | file content => exact (hs content).2 hg
    | none =>
      cases hg' : d'.get? (s.locationOf x) with
      | none => rfl
      | some e =>
        cases e with
        | folder => exact absurd hg' (h'.not_folder hx.toIsFlat)
        | file content =>
          rw [(hs content).1 hg'] at hg
          cases hg
  rw [h.find_eq hx, h'.find_eq hx, hget]

/-- Unless the device fails, what is found is what lies at the location. -/
theorem find_of_works (h : s.IsLaidOut d) (hx : x.IsRegular)
    (hf : failedByDevice (d.find (s.pathOf x)) = false) :
    d.find (s.pathOf x) = (d.get? (s.locationOf x)).elim (.error .missing) .ok := by
  rw [h.find_eq hx] at hf ⊢
  cases hc : Disk.checkPath (s.pathOf x) with
  | error e =>
    rw [hc] at hf
    rcases Disk.checkPath_eq_error hc with rfl | rfl <;> cases hf
  | ok _ => cases d.get? (s.locationOf x) <;> rfl

/-- A file is found, or missing, unless its path is no path of the device. -/
theorem find_cases (h : s.IsLaidOut d) (hx : x.IsRegular) :
    (∃ e, d.find (s.pathOf x) = .error e ∧ e.isOfDevice = true) ∨
      (∃ content, d.find (s.pathOf x) = .ok (.file content)) ∨
        d.find (s.pathOf x) = .error .missing := by
  rw [h.find_eq hx]
  cases hc : Disk.checkPath (s.pathOf x) with
  | error e =>
    refine .inl ⟨e, rfl, ?_⟩
    rcases Disk.checkPath_eq_error hc with rfl | rfl
    · rfl
    · rfl
  | ok _ =>
    cases hg : d.get? (s.locationOf x) with
    | none => exact .inr (.inr rfl)
    | some e =>
      cases e with
      | folder => exact absurd hg (h.not_folder hx.toIsFlat)
      | file content => exact .inr (.inl ⟨content, rfl⟩)

theorem fileAt_same (h : s.IsLaidOut d) (h' : s.IsLaidOut d') (hx : x.IsRegular)
    (hs : SameFile (s.locationOf x) d d') (fault : CacheFault) :
    fileAt fault (s.pathOf x) d' = fileAt fault (s.pathOf x) d := by
  unfold fileAt Disk.read
  rw [h.find_same h' hx hs]

end IsLaidOut

/-! ## Regular places -/

/-- A checked group and a checked image that has no part named as a folder of tags or of digests. -/
structure IsUsual (group image : String) : Prop where
  checkGroup : Name.checkGroup group = .ok ()
  checkImage : Name.checkImage image = .ok ()
  tags : "tags" ∉ Path.ofText image
  digests : "sha256" ∉ Path.ofText image

namespace IsUsual

variable {group image tag : String}

theorem isGroup (h : IsUsual group image) : Name.isGroup group = true :=
  Name.isGroup_of_check h.checkGroup

theorem isImage (h : IsUsual group image) : Name.isImage image = true :=
  Name.isImage_of_check h.checkImage

theorem record (h : IsUsual group image) (ht : Name.checkTag tag = .ok ()) :
    (Place.record group image tag).IsRegular where
  tags := h.tags
  digests := h.digests
  folder := .inl rfl
  isPlain := Place.isPlain_record h.isGroup h.isImage tag
  isShort := Place.isShort_record h.isGroup h.isImage ht
  isSound := Place.isSound_record group image tag

theorem payload (h : IsUsual group image) (digest : Digest) :
    (Place.payload group image digest).IsRegular where
  tags := h.tags
  digests := h.digests
  folder := .inr rfl
  isPlain := Place.isPlain_payload h.isGroup h.isImage digest
  isShort := Place.isShort_payload h.isGroup h.isImage digest
  isSound := Place.isSound_payload group image digest

theorem blob (h : IsUsual group image) (digest : Digest) :
    (Place.blob group image digest).IsRegular where
  tags := h.tags
  digests := h.digests
  folder := .inr rfl
  isPlain := Place.isPlain_blob h.isGroup h.isImage digest
  isShort := Place.isShort_blob h.isGroup h.isImage digest
  isSound := Place.isSound_blob group image digest

theorem isRegular_of_manifest {digest : Digest} (h : IsUsual group image)
    (ht : Name.checkTag tag = .ok ()) (hx : IsOfManifest group image tag digest x) :
    x.IsRegular := by
  rcases hx with rfl | rfl
  · exact h.record ht
  · exact h.payload digest

end IsUsual

/-! ## Looking up -/

variable {group image tag : String} {w : World}

theorem IsLaidOut.readIfThere_smoothly (h : s.IsLaidOut w.disk) (hx : x.IsRegular)
    (fault : CacheFault) :
    (readIfThere fault (s.pathOf x)).run.Smoothly w fun r w' => w' = w ∧
      ∃ content, r = .ok content := by
  unfold readIfThere
  rw [Attempt.run_ask_bind]
  refine Job.smoothly_step fun hs => ?_
  dsimp only [World.perform, Step.failedByDevice] at hs ⊢
  unfold Disk.read at hs ⊢
  rcases h.find_cases hx with ⟨e, hf, he⟩ | ⟨content, hf⟩ | hf
  · rw [hf] at hs
    exact absurd (hs.symm.trans he) (by decide)
  · rw [hf]
    exact Job.smoothly_done.2 ⟨rfl, _, rfl⟩
  · rw [hf]
    exact Job.smoothly_done.2 ⟨rfl, _, rfl⟩

/-- Looking up a manifest fails by the device only. -/
theorem IsLaidOut.readManifest_smoothly (h : s.IsLaidOut w.disk) (hu : IsUsual group image)
    (ht : Name.checkTag tag = .ok ()) :
    (s.readManifest group image tag).run.Smoothly w fun r _ => ∃ found, r = .ok found := by
  unfold readManifest
  dsimp only
  rw [s.recordPath_eq hu.isGroup hu.isImage ht, Attempt.run_bind]
  refine Job.Smoothly.bind ((h.readIfThere_smoothly (hu.record ht) _).post ?_)
  rintro _ _ ⟨rfl, content, rfl⟩
  dsimp only [Attempt.andThen_ok]
  cases content with
  | none => exact Job.smoothly_done.2 ⟨_, rfl⟩
  | some content =>
    dsimp only
    cases ManifestRecord.decode? content with
    | none => exact Job.smoothly_done.2 ⟨_, rfl⟩
    | some record =>
      dsimp only
      rw [s.payloadPath_eq hu.isGroup hu.isImage, Attempt.run_bind]
      refine Job.Smoothly.bind ((h.readIfThere_smoothly (hu.payload record.digest) _).post ?_)
      rintro _ _ ⟨rfl, payload, rfl⟩
      dsimp only [Attempt.andThen_ok]
      cases payload with
      | none => exact Job.smoothly_done.2 ⟨_, rfl⟩
      | some payload =>
        dsimp only
        split <;> exact Job.smoothly_done.2 ⟨_, rfl⟩

/-- Looking for a blob fails by the device only. -/
theorem IsLaidOut.blob_smoothly (h : s.IsLaidOut w.disk) (hu : IsUsual group image)
    (digest : Digest) :
    (s.blob group image digest).run.Smoothly w fun r _ => ∃ found, r = .ok found := by
  unfold Store.blob
  dsimp only
  rw [s.blobPath_eq hu.isGroup hu.isImage, Attempt.run_ask_bind]
  refine Job.smoothly_step fun hs => ?_
  dsimp only [World.perform, Step.failedByDevice] at hs ⊢
  rcases h.find_cases (hu.blob digest) with ⟨e, hf, he⟩ | ⟨content, hf⟩ | hf
  · rw [hf] at hs
    exact absurd (hs.symm.trans he) (by decide)
  · rw [hf]
    exact Job.smoothly_done.2 ⟨_, rfl⟩
  · rw [hf]
    exact Job.smoothly_done.2 ⟨_, rfl⟩

theorem IsLaidOut.blobAt_same (h : s.IsLaidOut d) (h' : s.IsLaidOut d') (hu : IsUsual group image)
    {digest : Digest} (hs : SameFile (s.locationOf (.blob group image digest)) d d') :
    s.blobAt group image digest d' = s.blobAt group image digest d := by
  unfold blobAt
  dsimp only
  rw [s.blobPath_eq hu.isGroup hu.isImage, h.find_same h' (hu.blob digest) hs]

/-- What is read for a tag depends on its record and on the payload that the record names. -/
theorem IsLaidOut.manifestAt_same (h : s.IsLaidOut d) (h' : s.IsLaidOut d')
    (hu : IsUsual group image) (ht : Name.checkTag tag = .ok ())
    (hrecord : SameFile (s.locationOf (.record group image tag)) d d')
    (hpayload : ∀ content r, d.find (s.recordPath group image tag) = .ok (.file content) →
      ManifestRecord.decode? content = some r →
        d'.find (s.payloadPath group image r.digest) =
          d.find (s.payloadPath group image r.digest)) :
    s.manifestAt group image tag d' = s.manifestAt group image tag d := by
  unfold manifestAt
  dsimp only
  rw [s.recordPath_eq hu.isGroup hu.isImage ht] at hpayload ⊢
  rw [h.fileAt_same h' (hu.record ht) hrecord]
  cases hf : fileAt (.readRecord (s.pathOf (.record group image tag)).text)
      (s.pathOf (.record group image tag)) d with
  | error failure => rfl
  | ok content =>
    cases content with
    | none => rfl
    | some content =>
      dsimp only
      cases hd : ManifestRecord.decode? content with
      | none => rfl
      | some r =>
        have hsame := hpayload content r (Disk.read_eq_ok (fileAt_eq_some hf)) hd
        dsimp only [payloadAt, fileAt, Disk.read]
        rw [hsame]

end Store

end PullThrough
