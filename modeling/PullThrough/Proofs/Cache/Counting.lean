import PullThrough.Proofs.Cache.Maps
import PullThrough.Proofs.Store.Stats
/-
  What a cache counts after some calls.

  Whatever calls a new cache gets, and whatever fails on the way, its counts are those of the
  calls that succeeded: the references of manifests that were written, those of blobs that were
  kept, and the sizes that these were kept with first, each counted once (`Store.stats_count`).
  What a disk has to do with such lists is `Store.HasKept`, which each call keeps
  (`Store.HasKept.call`). It says which files are there at all, so that none is missed and none is
  counted that is no record and no blob.
-/
namespace PullThrough

open Store (SameFile endingOf)

/-! ## Calls that succeeded -/

/-- The counts of some manifests and of some blobs with their sizes. Each counts once, and a
blob with its first size. -/
def CacheStats.ofLists (manifests : List ManifestRef) (blobs : List (BlobRef × Nat)) : CacheStats :=
  let refs := (blobs.map Prod.fst).dedup
  { manifests := manifests.dedup.length
    blobs := refs.length
    blobOctets := (refs.map fun r => (blobs.lookup r).getD 0).sum }

namespace StoreCall

/-- Its reference is a usual one. -/
def IsUsual : StoreCall → Prop
  | writeManifest r _ _ _ => r.IsUsual
  | readManifest r => r.IsUsual
  | writeBlob r _ => r.IsUsual
  | blob r => r.IsUsual

/-- The reference of a manifest, if the call has written it. -/
def written? : StoreCall × StoreReply → Option ManifestRef
  | (writeManifest r _ _ _, .written (.ok _)) => some r
  | _ => none

/-- The reference of a blob and its size, if the call has kept it. -/
def kept? : StoreCall × StoreReply → Option (BlobRef × Nat)
  | (writeBlob r _, .kept (.ok record)) => some (r, record.size)
  | _ => none

end StoreCall

namespace Store

variable {s : Store} {d : Disk} {w : World} {x : Place} {names : Location}

/-! ## Caches in use -/

/-- A place of a manifest or of a blob with a usual reference. -/
def IsUsualPlace (x : Place) : Prop :=
  (∃ r : ManifestRef, r.IsUsual ∧ IsOfTag r.group r.image r.tag x) ∨
    ∃ r : BlobRef, r.IsUsual ∧ x = r.place

theorem IsUsualPlace.isRegular (h : IsUsualPlace x) : x.IsRegular := by
  rcases h with ⟨r, hr, rfl | ⟨digest, rfl⟩⟩ | ⟨r, hr, rfl⟩
  · exact hr.isRegular
  · exact hr.image_isUsual.payload digest
  · exact IsUsual.blob hr r.digest

/-- What is at a usual place or beside one is a record, a payload, a blob or a scratch file, as the
ending of its name tells. -/
theorem IsUsualPlace.ending (h : IsUsualPlace x)
    (hn : names = x.names ∨ ∃ label, names = (x.scratch label).names) :
    (∃ r : ManifestRef, r.IsUsual ∧ names = r.place.names ∧ endingOf names = some "json") ∨
      (∃ r : ManifestRef, ∃ digest, names = (Place.payload r.group r.image digest).names ∧
        endingOf names = none) ∨
      (∃ r : BlobRef, r.IsUsual ∧ names = r.place.names ∧ endingOf names = none) ∨
      endingOf names = some "tmp" := by
  rcases hn with rfl | ⟨label, rfl⟩
  · rcases h with ⟨r, hr, rfl | ⟨digest, rfl⟩⟩ | ⟨r, hr, rfl⟩
    · exact .inl ⟨r, hr, rfl, endingOf_record hr.tag⟩
    · exact .inr (.inl ⟨r, digest, rfl, endingOf_hex rfl⟩)
    · exact .inr (.inr (.inl ⟨r, hr, rfl, endingOf_hex rfl⟩))
  · exact .inr (.inr (.inr (endingOf_scratch x label)))

/-- A proper disk on which calls with usual references have written, and nothing else. -/
structure IsInUse (s : Store) (d : Disk) : Prop where
  isLaidOut : s.IsLaidOut d
  isProper : d.IsProper
  isFiled : s.IsFiled IsUsualPlace d

theorem IsInUse.does {α : Type} {j : Job α} {allowed : Place → Prop} {Q : α → World → Prop}
    (h : s.IsInUse w.disk) (hallowed : ∀ x, allowed x → IsUsualPlace x)
    (hdoes : j.Does (s.Change allowed) w Q) : s.IsInUse (j.run w).2.disk := by
  have hregular (x : Place) (hx : allowed x) : x.IsRegular := (hallowed x hx).isRegular
  have hkeeps : ∀ d d', s.IsLaidOut d ∧ s.IsFiled IsUsualPlace d → s.Change allowed d d' →
      s.IsLaidOut d' ∧ s.IsFiled IsUsualPlace d' := by
    rintro d d' ⟨hlaid, hfiled⟩ hc
    exact ⟨hlaid.change hregular hc, hfiled.change hlaid.isTidy
      (fun x hx => hx.isRegular.isPlain) (hc.mono hallowed)⟩
  obtain ⟨-, hlaid, hfiled⟩ := (hdoes.keeps hkeeps ⟨h.isLaidOut, h.isFiled⟩).run
  exact ⟨hlaid, j.run_isProper h.isProper, hfiled⟩

namespace IsInUse

variable (h : s.IsInUse d)
include h

theorem nodup_filesOfKind {kind : String} (hkind : Path.IsPlain kind) :
    ((s.filesOfKind d kind).map Prod.fst).Nodup :=
  h.isFiled.nodup_filesOfKind h.isLaidOut.isTidy h.isProper (fun _ hx => hx.isRegular.isPlain) hkind

/-- What is listed are files at usual places and beside them. -/
theorem of_mem_filesOfKind {kind : String} (hkind : Path.IsPlain kind) {size : Nat}
    (hmem : (names, size) ∈ s.filesOfKind d kind) :
    (∃ group rest, names = group :: kind :: rest) ∧
      (∃ content, d.get? (s.root ++ names) = some (.file content) ∧ content.length = size) ∧
        ∃ x, IsUsualPlace x ∧ (names = x.names ∨ ∃ label, names = (x.scratch label).names) := by
  obtain ⟨group, rest, content, hnames, hsize, -, hget⟩ := (h.isFiled.mem_filesOfKind
    h.isLaidOut.isTidy h.isProper (fun _ hx => hx.isRegular.isPlain) hkind).1 hmem
  exact ⟨⟨group, rest, hnames⟩, ⟨content, hget, hsize⟩, h.isFiled.files names content hget⟩

/-- A file at a usual place is listed, if its path can be followed. -/
theorem mem_filesOfKind (hx : IsUsualPlace x) (hcheck : Disk.checkPath (s.pathOf x) = .ok ())
    {content : Bytes} (hget : d.get? (s.locationOf x) = some (.file content)) :
    (x.names, content.length) ∈ s.filesOfKind d x.kind := by
  have hfind : d.find (s.pathOf x) = .ok (.file content) := by
    rw [h.isLaidOut.find_eq hx.isRegular, hcheck, hget]
  exact h.isFiled.mem_filesOfKind_of_find h.isLaidOut.isTidy h.isProper
    (fun _ hy => hy.isRegular.isPlain) hx.isRegular.isPlain hfind

end IsInUse

/-! ## What was kept -/

/-- The records and the blobs that are there are those of two lists, whose paths can be followed. -/
structure HasKept (s : Store) (manifests : List ManifestRef) (blobs : List (BlobRef × Nat))
    (d : Disk) : Prop extends s.IsInUse d where
  manifest : ∀ r ∈ manifests, r.IsUsual ∧ Disk.checkPath (s.pathOf r.place) = .ok ()
  blob : ∀ b ∈ blobs, b.1.IsUsual ∧ Disk.checkPath (s.pathOf b.1.place) = .ok ()
  record_iff : ∀ r : ManifestRef, r.IsUsual →
    (r ∈ manifests ↔ ∃ content, d.get? (s.locationOf r.place) = some (.file content))
  blob_iff : ∀ r : BlobRef, r.IsUsual → ∀ size,
    (blobs.lookup r = some size ↔
      ∃ content, d.get? (s.locationOf r.place) = some (.file content) ∧ content.length = size)

namespace HasKept

variable {manifests : List ManifestRef} {blobs : List (BlobRef × Nat)}

theorem of_isEmpty (h : s.IsEmpty d) (hproper : d.IsProper) : s.HasKept [] [] d where
  isLaidOut := .of_isEmpty h
  isProper := hproper
  isFiled := .of_isEmpty h
  manifest r hr := absurd hr List.not_mem_nil
  blob b hb := absurd hb List.not_mem_nil
  record_iff r _ := by simp [h.place]
  blob_iff r _ size := by simp [h.place]

/-! ### Counting -/

theorem mem_refs_iff {r : BlobRef} :
    r ∈ blobs.map Prod.fst ↔ ∃ size, blobs.lookup r = some size := by
  rw [← Option.isSome_iff_exists, List.lookup_isSome_iff, List.mem_map]
  simp only [beq_iff_eq, @eq_comm _ r]

section Counts

variable (h : s.HasKept manifests blobs d)
include h

/-- The records that are listed are those of the manifests. -/
theorem records_perm :
    (((s.filesOfKind d "manifests").filter fun f => endingOf f.1 == some "json").map Prod.fst).Perm
      (manifests.dedup.map fun r => r.place.names) := by
  have hplain : Path.IsPlain "manifests" := by decide
  refine (List.perm_ext_iff_of_nodup ?_ ?_).2 fun names => ?_
  · exact (h.nodup_filesOfKind hplain).sublist (List.filter_sublist.map Prod.fst)
  · refine List.Nodup.map_on (fun r hr r' hr' hn => ?_) manifests.nodup_dedup
    exact (h.manifest r (List.mem_dedup.1 hr)).1.record_inj
      (h.manifest r' (List.mem_dedup.1 hr')).1.toIsAlone hn
  simp only [List.mem_map, List.mem_filter, List.mem_dedup, beq_iff_eq, Prod.exists,
    exists_eq_right, exists_and_right]
  constructor
  · rintro ⟨⟨size, hmem⟩, hjson⟩
    obtain ⟨-, ⟨content, hget, -⟩, x, hx, hn⟩ := h.of_mem_filesOfKind hplain hmem
    rcases hx.ending hn with ⟨r, hr, rfl, -⟩ | ⟨r, digest, -, hend⟩ | ⟨r, -, -, hend⟩ | hend
    · exact ⟨r, (h.record_iff r hr).2 ⟨content, hget⟩, rfl⟩
    · rw [hend] at hjson
      cases hjson
    · rw [hend] at hjson
      cases hjson
    · rw [hend] at hjson
      exact absurd hjson (by decide)
  · rintro ⟨r, hr, rfl⟩
    obtain ⟨husual, hcheck⟩ := h.manifest r hr
    obtain ⟨content, hget⟩ := (h.record_iff r husual).1 hr
    exact ⟨⟨_, h.mem_filesOfKind (.inl ⟨r, husual, .inl rfl⟩) hcheck hget⟩,
      endingOf_record husual.tag⟩

/-- The blobs that are listed are those that were kept, with the sizes they were kept with. -/
theorem blobs_perm :
    ((s.filesOfKind d "blobs").filter fun f => endingOf f.1 != some "tmp").Perm
      ((blobs.map Prod.fst).dedup.map fun r => (r.place.names, (blobs.lookup r).getD 0)) := by
  have hplain : Path.IsPlain "blobs" := by decide
  have husual {r : BlobRef} (hr : r ∈ (blobs.map Prod.fst).dedup) : r.IsUsual := by
    obtain ⟨b, hb, rfl⟩ := List.mem_map.1 (List.mem_dedup.1 hr)
    exact (h.blob b hb).1
  refine (List.perm_ext_iff_of_nodup ?_ ?_).2 ?_
  · exact (h.nodup_filesOfKind hplain).of_map _ |>.filter _
  · refine List.Nodup.map_on (fun r hr r' hr' hn => ?_) (List.nodup_dedup _)
    by_contra hne
    exact BlobRef.locationOf_ne hne (congrArg (s.root ++ ·) (Prod.mk.inj hn).1)
  rintro ⟨names, size⟩
  simp only [List.mem_map, List.mem_filter, bne_iff_ne, ne_eq, Prod.mk.injEq]
  constructor
  · rintro ⟨hmem, htmp⟩
    obtain ⟨⟨group, rest, hkind⟩, hfile, x, hx, hn⟩ := h.of_mem_filesOfKind hplain hmem
    rcases hx.ending hn with ⟨r, -, rfl, -⟩ | ⟨r, digest, rfl, -⟩ | ⟨r, hr, rfl, -⟩ | hend
    · exact absurd (List.cons.inj (List.cons.inj hkind).2).1
        (show "manifests" ≠ "blobs" by decide)
    · exact absurd (List.cons.inj (List.cons.inj hkind).2).1
        (show "manifests" ≠ "blobs" by decide)
    · have hlookup := (h.blob_iff r hr size).2 hfile
      exact ⟨r, List.mem_dedup.2 (mem_refs_iff.2 ⟨size, hlookup⟩), rfl, by rw [hlookup]; rfl⟩
    · exact absurd hend htmp
  · rintro ⟨r, hr, rfl, rfl⟩
    obtain ⟨size, hlookup⟩ := mem_refs_iff.1 (List.mem_dedup.1 hr)
    obtain ⟨content, hget, hsize⟩ := (h.blob_iff r (husual hr) size).1 hlookup
    obtain ⟨b, hb, rfl⟩ := List.mem_map.1 (List.mem_dedup.1 hr)
    have hmem := h.mem_filesOfKind (.inr ⟨b.1, husual hr, rfl⟩) (h.blob b hb).2 hget
    rw [hlookup, Option.getD_some, ← hsize]
    exact ⟨hmem, by rw [endingOf_hex (show b.1.place.file = b.1.digest.hex from rfl)]; decide⟩

/-- So the counts are those of the two lists. -/
theorem counts :
    countBlobs (countRecords {} (s.filesOfKind d "manifests")) (s.filesOfKind d "blobs") =
    .ofLists manifests blobs := by
  have hrecords := h.records_perm.length_eq
  have hblobs := h.blobs_perm.length_eq
  have hsizes := (h.blobs_perm.map Prod.snd).sum_nat
  simp only [List.length_map] at hrecords hblobs
  rw [List.map_map] at hsizes
  simp only [countBlobs, countRecords, CacheStats.ofLists, Nat.zero_add,
    List.countP_eq_length_filter, octetsOf_eq_sum, hrecords, hblobs, hsizes]
  rfl

end Counts

/-! ### Calls -/

variable {d' : Disk}

theorem record_iff_later (h : s.HasKept manifests blobs d) {r : ManifestRef} (hr : r.IsUsual)
    (hsame : SameFile (s.locationOf r.place) d d') :
    r ∈ manifests ↔ ∃ content, d'.get? (s.locationOf r.place) = some (.file content) :=
  (h.record_iff r hr).trans (exists_congr fun content => (hsame content).symm)

theorem blob_iff_later (h : s.HasKept manifests blobs d) {r : BlobRef} (hr : r.IsUsual)
    (hsame : SameFile (s.locationOf r.place) d d') (size : Nat) :
    blobs.lookup r = some size ↔
      ∃ content, d'.get? (s.locationOf r.place) = some (.file content) ∧ content.length = size :=
  (h.blob_iff r hr size).trans (exists_congr fun content => and_congr_left fun _ =>
    (hsame content).symm)

/-- Where all records and blobs are as before, the lists are as before. -/
theorem same (h : s.HasKept manifests blobs d) (hin : s.IsInUse d')
    (hrecords : ∀ r : ManifestRef, r.IsUsual → SameFile (s.locationOf r.place) d d')
    (hblobs : ∀ r : BlobRef, SameFile (s.locationOf r.place) d d') :
    s.HasKept manifests blobs d' where
  toIsInUse := hin
  manifest := h.manifest
  blob := h.blob
  record_iff r hr := h.record_iff_later hr (hrecords r hr)
  blob_iff r hr := h.blob_iff_later hr (hblobs r)

/-- A record that was written is one more. -/
theorem add_manifest (h : s.HasKept manifests blobs d) (hin : s.IsInUse d') {r : ManifestRef}
    (hr : r.IsUsual) {content : Bytes} (hfind : d'.find (s.pathOf r.place) = .ok (.file content))
    (hrecords : ∀ r' : ManifestRef, r'.IsUsual → r' ≠ r → SameFile (s.locationOf r'.place) d d')
    (hblobs : ∀ r : BlobRef, SameFile (s.locationOf r.place) d d') :
    s.HasKept (manifests ++ [r]) blobs d' where
  toIsInUse := hin
  manifest r' hr' := by
    rcases List.mem_append.1 hr' with hold | hnew
    · exact h.manifest r' hold
    · rw [List.mem_singleton.1 hnew]
      exact ⟨hr, (Disk.locate_ok (Disk.find_eq_ok hfind).1).1⟩
  blob := h.blob
  record_iff r' hr' := by
    rw [List.mem_append, List.mem_singleton]
    by_cases hne : r' = r
    · subst hne
      have hget := (Disk.find_eq_ok hfind).2
      rw [location_pathOf s hr.isRegular.isPlain] at hget
      exact ⟨fun _ => ⟨content, hget⟩, fun _ => .inr rfl⟩
    · rw [or_iff_left hne]
      exact h.record_iff_later hr' (hrecords r' hr' hne)
  blob_iff r hr := h.blob_iff_later hr (hblobs r)

/-- A blob that was kept is one more, unless it was there. -/
theorem add_blob (h : s.HasKept manifests blobs d) (hin : s.IsInUse d') {r : BlobRef}
    (hr : r.IsUsual) {data : Bytes} (hcheck : Disk.checkPath (s.pathOf r.place) = .ok ())
    (hrecords : ∀ r : ManifestRef, SameFile (s.locationOf r.place) d d')
    (hblobs : ∀ r' : BlobRef, r' ≠ r → SameFile (s.locationOf r'.place) d d')
    (hold : ∀ content, d.get? (s.locationOf r.place) = some (.file content) →
      SameFile (s.locationOf r.place) d d')
    (hnew : (∀ content, d.get? (s.locationOf r.place) ≠ some (.file content)) →
      d'.get? (s.locationOf r.place) = some (.file data)) :
    s.HasKept manifests (blobs ++ [(r, data.length)]) d' where
  toIsInUse := hin
  manifest := h.manifest
  blob b hb := by
    rcases List.mem_append.1 hb with hbefore | hnow
    · exact h.blob b hbefore
    · rw [List.mem_singleton.1 hnow]
      exact ⟨hr, hcheck⟩
  record_iff r' hr' := h.record_iff_later hr' (hrecords r')
  blob_iff r' hr' size := by
    rw [List.lookup_append]
    by_cases hne : r' = r
    · subst hne
      by_cases hthere : ∃ content, d.get? (s.locationOf r'.place) = some (.file content)
      · -- the blob that was there counts with its size
        obtain ⟨content, hget⟩ := hthere
        have hlookup := (h.blob_iff r' hr' content.length).2 ⟨content, hget, rfl⟩
        have hstays := (hold content hget content).2 hget
        simp [hlookup, hstays]
      · have hnone : blobs.lookup r' = none := by
          by_contra hsome
          obtain ⟨n, hn⟩ := Option.ne_none_iff_exists'.1 hsome
          obtain ⟨content, hget, -⟩ := (h.blob_iff r' hr' n).1 hn
          exact hthere ⟨content, hget⟩
        have hput := hnew fun content hget => hthere ⟨content, hget⟩
        simp [hnone, hput]
    · have hother : ([(r, data.length)] : List (BlobRef × Nat)).lookup r' = none := by
        simp [hne]
      rw [hother, Option.or_none]
      exact h.blob_iff_later hr' (hblobs r' hne) size

/-- Writing a manifest adds its reference, if it succeeds. -/
theorem writeManifest (h : s.HasKept manifests blobs w.disk) {r : ManifestRef} (hr : r.IsUsual)
    (digest : Digest) (contentType : String) (data : Bytes) :
    (s.writeManifest r.group r.image r.tag digest contentType data).run.Ends w fun reply w' =>
      s.HasKept (manifests ++ (reply.toOption.map fun _ => r).toList) blobs w'.disk := by
  have hdoes := writeManifest_does (s := s) hr.isGroup hr.isImage hr.tag digest contentType data w
  have hin := h.toIsInUse.does (fun x hx => .inl ⟨r, hr, hx.isOfTag⟩) hdoes
  have hleaves := leaves_of_does hdoes
  have hend := writeManifest_end s hr.isGroup hr.isImage hr.tag digest contentType data w
  unfold Job.Ends
  generalize (s.writeManifest r.group r.image r.tag digest contentType data).run.run w = out at *
  obtain ⟨reply, w'⟩ := out
  dsimp only at *
  have hblobs (b : BlobRef) : SameFile (s.locationOf b.place) w.disk w'.disk := by
    refine hleaves.file b.place (Place.isOwn_blob _ _ _) ?_
    rintro _ (rfl | rfl) hn
    · exact absurd (Place.names_inj hn).2.1 (show "blobs" ≠ "manifests" by decide)
    · exact absurd (Place.names_inj hn).2.1 (show "blobs" ≠ "manifests" by decide)
  cases reply with
  | error failure =>
    rw [show (Except.error failure : Except Failure ManifestRecord).toOption = none from rfl,
      Option.map_none, Option.toList_none, List.append_nil]
    exact h.same hin (fun r' _ => hleaves.record hend.2 r'.group r'.image r'.tag) hblobs
  | ok record =>
    obtain ⟨-, -, hfind⟩ := hend
    rw [hr.recordPath] at hfind
    exact h.add_manifest hin hr hfind
      (fun r' hr' hne => hleaves.otherRecord fun hn => hne (hr'.record_inj hr.toIsAlone hn)) hblobs

/-- Keeping a blob adds its reference and its size, if it succeeds. -/
theorem writeBlob (h : s.HasKept manifests blobs w.disk) {r : BlobRef} (hr : r.IsUsual)
    (stream : List (Except Failure Bytes)) :
    (s.writeBlobStream r.group r.image r.digest stream).run.Ends w fun reply w' =>
      s.HasKept manifests (blobs ++ (reply.toOption.map fun record => (r, record.size)).toList)
        w'.disk := by
  have hdoes := (writeBlobStream_amid hr.isGroup hr.isImage r.digest (s.spares_of_eq _)
    (Eq.refl r.place) stream w.disk).does fun _ _ _ hw => hw.2
  have hin := h.toIsInUse.does (by rintro _ rfl; exact .inr ⟨r, hr, rfl⟩) hdoes
  have hleaves := leaves_of_does hdoes
  have hpresent (content : Bytes)
      (hget : w.disk.get? (s.locationOf r.place) = some (.file content)) :=
    ((writeBlobStream_keeps_present hr.isGroup hr.isImage r.digest hget stream).does
      fun _ _ _ hw => hw.2).run
  obtain ⟨hkept, hfailed⟩ := hdoes.run
  unfold Job.Ends
  generalize (s.writeBlobStream r.group r.image r.digest stream).run.run w = out at *
  obtain ⟨reply, w'⟩ := out
  dsimp only at *
  have hrecords (r' : ManifestRef) : SameFile (s.locationOf r'.place) w.disk w'.disk := by
    refine hleaves.other (Place.isOwn_record _ _ _) fun hn => ?_
    exact absurd (Place.names_inj hn).2.1 (show "manifests" ≠ "blobs" by decide)
  have hothers (r' : BlobRef) (hne : r' ≠ r) : SameFile (s.locationOf r'.place) w.disk w'.disk :=
    hleaves.other (Place.isOwn_blob _ _ _) fun hn =>
      BlobRef.locationOf_ne hne (congrArg (s.root ++ ·) hn)
  cases reply with
  | error failure =>
    have hown : SameFile (s.locationOf r.place) w.disk w'.disk := hfailed rfl
    rw [show (Except.error failure : Except Failure BlobRecord).toOption = none from rfl,
      Option.map_none, Option.toList_none, List.append_nil]
    refine h.same hin (fun r' _ => hrecords r') fun r' => ?_
    by_cases hne : r' = r
    · rwa [hne]
    · exact hothers r' hne
  | ok record =>
    obtain ⟨data, -, rfl, hfind⟩ := hkept
    dsimp only at hfind
    rw [s.blobPath_eq hr.isGroup hr.isImage] at hfind
    have hlocation := location_pathOf s (Place.isPlain_blob hr.isGroup hr.isImage r.digest)
    have hcheck : Disk.checkPath (s.pathOf r.place) = .ok () := by
      rcases hfind with hfind | ⟨⟨e, hfind⟩, -⟩
      · exact (Disk.locate_ok (Disk.find_eq_ok hfind).1).1
      · exact (Disk.locate_ok (Disk.find_eq_ok hfind).1).1
    refine h.add_blob hin hr hcheck hrecords hothers hpresent fun hnone => ?_
    rcases hfind with hfind | ⟨⟨e, hfind⟩, hsame⟩
    · have hget := (Disk.find_eq_ok hfind).2
      rwa [hlocation] at hget
    · -- what was found instead was there before
      have hget := (Disk.find_eq_ok hfind).2
      rw [hlocation] at hget
      cases e with
      | folder => exact absurd hget (hin.isLaidOut.not_folder (IsUsual.blob hr r.digest).toIsFlat)
      | file content => exact absurd ((hsame content).1 hget) (hnone content)

/-- A call adds what it has written or kept. -/
theorem call (h : s.HasKept manifests blobs w.disk) {c : StoreCall} (hc : c.IsUsual) :
    (c.job s).Ends w fun reply w' =>
      s.HasKept (manifests ++ (StoreCall.written? (c, reply)).toList)
        (blobs ++ (StoreCall.kept? (c, reply)).toList) w'.disk := by
  cases c with
  | writeManifest r digest contentType data =>
    refine Job.ends_bind.2 ((h.writeManifest hc digest contentType data).post ?_)
    rintro (failure | record) w' h' <;>
      simpa [Job.Ends, StoreCall.written?, StoreCall.kept?, Except.toOption] using h'
  | readManifest r =>
    refine Job.ends_bind.2 ((s.readManifest_comesTo r.group r.image r.tag w).ends ?_)
    simpa [Job.Ends, StoreCall.written?, StoreCall.kept?] using h
  | writeBlob r stream =>
    refine Job.ends_bind.2 ((h.writeBlob hc stream).post ?_)
    rintro (failure | record) w' h' <;>
      simpa [Job.Ends, StoreCall.written?, StoreCall.kept?, Except.toOption] using h'
  | blob r =>
    refine Job.ends_bind.2 ((s.blob_comesTo r.group r.image r.digest w).ends ?_)
    simpa [Job.Ends, StoreCall.written?, StoreCall.kept?] using h

/-- So calls one after the other add all that they have written or kept. -/
theorem calls (h : s.HasKept manifests blobs w.disk) {calls : List StoreCall}
    (hcalls : ∀ call ∈ calls, call.IsUsual) :
    (StoreCall.jobs s calls).Ends w fun replies w' =>
      s.HasKept (manifests ++ (calls.zip replies).filterMap StoreCall.written?)
        (blobs ++ (calls.zip replies).filterMap StoreCall.kept?) w'.disk := by
  induction calls generalizing w manifests blobs with
  | nil => simpa [StoreCall.jobs, Job.Ends] using h
  | cons c rest ih =>
    refine Job.ends_bind.2 ((h.call (hcalls c List.mem_cons_self)).post fun reply w₁ h₁ => ?_)
    refine Job.ends_bind.2 ((ih h₁ fun c' hc' => hcalls c' (List.mem_cons_of_mem _ hc')).post ?_)
    intro replies w₂ h₂
    change s.HasKept (manifests ++ ((c, reply) :: rest.zip replies).filterMap StoreCall.written?)
      (blobs ++ ((c, reply) :: rest.zip replies).filterMap StoreCall.kept?) w₂.disk
    simp only [List.filterMap_eq_flatMap_toList, List.append_assoc] at h₂
    simp only [List.filterMap_eq_flatMap_toList, List.flatMap_cons]
    exact h₂

end HasKept

/-- Whatever calls a new cache gets one after the other, and whatever they come to, it counts the
references that were written and kept, each once, and the sizes that blobs were kept with. A blob
that is given whole is a stream of one piece. -/
theorem stats_count (h : s.IsEmpty w.disk) (hproper : w.disk.IsProper) {calls : List StoreCall}
    (hcalls : ∀ call ∈ calls, call.IsUsual) :
    (StoreCall.jobs s calls).Ends w fun replies w' =>
      (s.stats.run.run w').1 = .ok (.ofLists ((calls.zip replies).filterMap StoreCall.written?)
        ((calls.zip replies).filterMap StoreCall.kept?)) := by
  refine ((HasKept.of_isEmpty h hproper).calls hcalls).post fun replies w' hkept => ?_
  rw [(s.stats_comesTo w').run, hkept.counts, List.nil_append, List.nil_append]

/-- Names that end like files of the cache, an image inside another one, a manifest that is written
again and stopped by the disk, a stream that fails, and a blob that is given twice. -/
theorem stats_count_of_new :
    let s : Store := { base := [""] }
    let w : World :=
      { disk := ⟨[(Slot.of ["groups"], .folder)]⟩
        clock := fun n => if n = 0 then ⟨0, 0⟩ else ⟨1, 0⟩
        origin := fun _ _ => .failed
        trouble := fun n => n == 22 }
    let r : ManifestRef := ⟨"g", "i", "t.json"⟩
    let r' : ManifestRef := ⟨"g", "i/j.json", "t.tmp"⟩
    let b : BlobRef := ⟨"g", "i.tmp", Digest.of [1]⟩
    let calls : List StoreCall :=
      [.writeManifest r (Digest.of [1]) "a" [1], .writeManifest r' (Digest.of [1]) "b" [1],
        .writeManifest r (Digest.of [1]) "a" [1], .writeBlob b [.ok [1], .error (.notFound "")],
        .writeBlob b [.ok [1]], .writeBlob b [.ok [1]]]
    s.IsEmpty w.disk ∧ w.disk.IsProper ∧ (∀ call ∈ calls, call.IsUsual) ∧
      (StoreCall.jobs s calls).Ends w fun replies w' =>
        (calls.zip replies).filterMap StoreCall.written? = [r, r'] ∧
          (calls.zip replies).filterMap StoreCall.kept? = [(b, 1), (b, 1)] ∧
            (s.stats.run.run w').1 = .ok { manifests := 2, blobs := 1, blobOctets := 1 } := by
  intro s w r r' b calls
  have hw : s.IsEmpty w.disk := isEmpty_of_new
  have hproper : w.disk.IsProper :=
    ⟨List.forall_mem_singleton.2 (by decide +kernel), List.nodup_singleton _⟩
  have hr : r.IsUsual :=
    ⟨⟨⟨by decide +kernel, by decide +kernel, by decide +kernel⟩, by decide +kernel,
      Name.ne_underscored (by decide +kernel)⟩, by decide +kernel⟩
  have hr' : r'.IsUsual :=
    ⟨⟨⟨by decide +kernel, by decide +kernel, by decide +kernel⟩, by decide +kernel,
      Name.ne_underscored (by decide +kernel)⟩, by decide +kernel⟩
  have hb : b.IsUsual :=
    ⟨by decide +kernel, by decide +kernel, by decide +kernel, by decide +kernel⟩
  have hcalls : ∀ call ∈ calls, call.IsUsual := by
    simp only [calls, List.forall_mem_cons, List.not_mem_nil, false_implies, implies_true, and_true]
    exact ⟨hr, hr', hr, hb, hb, hb⟩
  obtain ⟨hwritten, hkept⟩ :
      (calls.zip ((StoreCall.jobs s calls).run w).1).filterMap StoreCall.written? = [r, r'] ∧
        (calls.zip ((StoreCall.jobs s calls).run w).1).filterMap StoreCall.kept? =
          [(b, 1), (b, 1)] := by decide +kernel
  have hstats := stats_count hw hproper hcalls
  unfold Job.Ends at hstats ⊢
  beta_reduce at hstats ⊢
  rw [hwritten, hkept] at hstats
  exact ⟨hw, hproper, hcalls, hwritten, hkept, hstats.trans (by decide +kernel)⟩

end Store

end PullThrough
