import PullThrough.Proofs.Store.Reading
import PullThrough.Proofs.Store.Writing
/-
  Payloads that are in the way.

  A manifest is read only if its payload has the right digest, but it is kept without a look at what
  lies in the place of its payload. So what becomes of a manifest hangs on that place alone
  (`Store.IsBlocked`): if something else is there, the manifest cannot be read although it was kept
  (`Store.IsBlocked.not_read`), and if not, it is read as it was kept, whatever else was on the disk
  (`Store.manifestAt_of_kept`). A record that was damaged does no harm. Nothing that is written to
  the cache takes away what is in the way (`Store.IsBlocked.writeManifest`).
-/
namespace PullThrough.Store

/-- Something else is in the place of a payload: a folder, or a file with another digest. -/
def IsBlocked (s : Store) (group image : String) (digest : Digest) (d : Disk) : Prop :=
  ∃ e, d.find (s.payloadPath group image digest) = .ok e ∧
    ∀ content, e = .file content → Digest.of content ≠ digest

variable {s : Store} {d d' : Disk} {group image tag : String} {digest : Digest} {w w' : World}

/-- What is found in a place that is not blocked has the right digest. -/
theorem file_of_not_isBlocked (h : ¬ s.IsBlocked group image digest d) {e : Entry}
    (hf : d.find (s.payloadPath group image digest) = .ok e) :
    ∃ content, e = .file content ∧ Digest.of content = digest := by
  cases e with
  | folder => exact absurd ⟨.folder, hf, by rintro content ⟨⟩⟩ h
  | file content =>
    by_cases hd : Digest.of content = digest
    · exact ⟨content, rfl, hd⟩
    · exact absurd ⟨.file content, hf, by rintro _ ⟨⟩; exact hd⟩ h

theorem IsBlocked.of_sameFile (h : s.IsBlocked group image digest d)
    (hg : Name.isGroup group = true)
    (hi : Name.isImage image = true) (hfolder : ∀ l, d.get? l = some .folder →
      d'.get? l = some .folder)
    (hs : ∀ e, d.find (s.payloadPath group image digest) = .ok e →
      SameFile (s.locationOf (.payload group image digest)) d d') :
    s.IsBlocked group image digest d' := by
  obtain ⟨e, hf, he⟩ := h
  have hsame := hs e hf
  rw [s.payloadPath_eq hg hi] at hf
  refine ⟨e, ?_, he⟩
  rw [s.payloadPath_eq hg hi]
  exact find_of_sameFile (Place.isPlain_payload hg hi digest) hfolder hsame hf

/-- No manifest is read by a digest that is blocked. -/
theorem IsBlocked.digest_ne (h : s.IsBlocked group image digest d) {record : ManifestRecord}
    {data : Bytes} (hm : s.manifestAt group image tag d = .ok (some (record, data))) :
    record.digest ≠ digest := by
  rintro rfl
  obtain ⟨-, hread, hdigest⟩ := files_of_manifestAt hm
  obtain ⟨e, hf, he⟩ := h
  rw [Disk.read_eq_ok hread] at hf
  exact he data (Except.ok.inj hf).symm hdigest

/-- A record that names a blocked digest makes no manifest. -/
theorem IsBlocked.not_read (h : s.IsBlocked group image digest d) {kept : ManifestRecord}
    (hr : d.find (s.recordPath group image tag) = .ok (.file kept.encode))
    (hd : kept.digest = digest)
    (found : ManifestRecord × Bytes) : s.manifestAt group image tag d ≠ .ok (some found) := by
  obtain ⟨record, data⟩ := found
  intro hm
  obtain ⟨⟨content, hread, hdecode⟩, -⟩ := files_of_manifestAt hm
  rw [Disk.read_of_find hr] at hread
  cases hread
  exact h.digest_ne hm ((ManifestRecord.decode?_encode hdecode).2.2.2.1.trans hd)

/-! ## Keeping a manifest -/

/-- Whatever manifest is kept, what is in the way of a payload stays there. -/
theorem IsBlocked.writeManifest (h : s.IsBlocked group image digest w.disk)
    (hg : Name.isGroup group = true) (hi : Name.isImage image = true) {group' image' tag' : String}
    (hg' : Name.isGroup group' = true) (hi' : Name.isImage image' = true)
    (ht' : Name.checkTag tag' = .ok ()) {digest' : Digest} {contentType : String} {data : Bytes}
    {result : Except Failure ManifestRecord}
    (hw : (s.writeManifest group' image' tag' digest' contentType data).run.run w = (result, w')) :
    s.IsBlocked group image digest w'.disk := by
  have hdoes := writeManifest_does (s := s) hg' hi' ht' digest' contentType data w
  have hleaves := leaves_of_does hdoes
  have hpayload := hdoes.run.2
  rw [hw] at hleaves hpayload
  exact h.of_sameFile hg hi hleaves.folder fun e hf => hpayload.sameFile hleaves hf

section Kept

variable {contentType : String} {data : Bytes} {record : ManifestRecord}
  (hg : Name.isGroup group = true) (hi : Name.isImage image = true)
  (ht : Name.checkTag tag = .ok ())
  (hw : (s.writeManifest group image tag digest contentType data).run.run w = (.ok record, w'))
include hg hi ht hw

/-- A manifest that was kept is read as it was kept, if nothing was in the way of its payload. -/
theorem manifestAt_of_kept (hclock : ∀ n, (w.clock n).IsShown) (hsize : data.length < 2 ^ 64)
    (hdistinct : ∀ l content, w.disk.get? l = some (.file content) →
      Digest.of content = digest → content = data)
    (hfree : ¬ s.IsBlocked group image digest w.disk) :
    s.manifestAt group image tag w'.disk = .ok (some (record, data)) := by
  have hdoes := writeManifest_does (s := s) hg hi ht digest contentType data w
  have htimed : s.IsTimed w record := writeManifest_isTimed hg hi ht (by rw [hw])
  have hleaves := leaves_of_does hdoes
  obtain ⟨hmanifest, hpayload⟩ := hdoes.run
  rw [hw] at hleaves hmanifest hpayload
  obtain ⟨hdata, ⟨created, updated, rfl⟩, hrecord⟩ := hmanifest
  have hproper := htimed.isProper hclock hsize
  obtain ⟨e, hthere, rfl | hbefore⟩ := hpayload.there hg hi hleaves.folder
  · exact manifestAt_of_find hproper hrecord hthere hdata
  · obtain ⟨content, rfl, hcontent⟩ := file_of_not_isBlocked hfree hbefore
    obtain rfl := hdistinct _ content (Disk.find_eq_ok hbefore).2 hcontent
    exact manifestAt_of_find hproper hrecord hthere hdata

/-- A manifest that was kept is not read, if something was in the way of its payload. -/
theorem IsBlocked.not_read_of_kept (h : s.IsBlocked group image digest w.disk)
    (found : ManifestRecord × Bytes) : s.manifestAt group image tag w'.disk ≠ .ok (some found) := by
  have hend := s.writeManifest_end hg hi ht digest contentType data w
  rw [hw] at hend
  obtain ⟨-, ⟨created, updated, rfl⟩, hrecord⟩ := hend
  exact (h.writeManifest hg hi hg hi ht hw).not_read hrecord rfl found

end Kept

end PullThrough.Store
