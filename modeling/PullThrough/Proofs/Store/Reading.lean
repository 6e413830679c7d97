import Mathlib.Algebra.Group.Nat.Defs
import PullThrough.Proofs.Job.Does
import PullThrough.Proofs.Json.Documents
import PullThrough.Proofs.Store.Places
import PullThrough.Proofs.Time.Rfc3339
import PullThrough.Store.Blobs
import PullThrough.Store.Manifests
/-
  What the reading operations of a store come to.

  They only look at the disk, so each is a function of the disk: `Store.manifestAt` is what
  `Store.readManifest` reads and `Store.blobAt` what `Store.blob` finds. A manifest is read only if
  its payload has the digest in its record, whatever the disk holds (`digest_of_manifestAt`).
-/
namespace PullThrough

/-! ## Records -/

/-- The time is read back as it is written. -/
def Instant.Survives (t : Instant) : Prop := Rfc3339.parse? (Rfc3339.text "Z" t) = some t

theorem Instant.IsShown.survives {t : Instant} (h : t.IsShown) : t.Survives := Rfc3339.parse?_text h

theorem Digest.ofJson?_text (d : Digest) : Digest.ofJson? (.text d.text) = some d := by
  rw [Digest.ofJson?, Json.text?_text, Option.bind_some, Digest.parse_text]
  rfl

namespace ManifestRecord

theorem fieldsOrItems?_toJson (r : ManifestRecord) :
    r.toJson.fieldsOrItems? fieldNames = some [some (.text r.group), some (.text r.image),
      some (.text r.tag), some (.text r.digest.text), some (.text r.contentType),
      some (.nat r.size), some (.text (Rfc3339.text "Z" r.createdAt)),
      some (.text (Rfc3339.text "Z" r.updatedAt))] := by
  refine Json.fieldsOrItems?_record ?_
  show fieldNames.Nodup
  decide

/-- A record that is read back differs in nothing but perhaps its size and its times. -/
theorem decode?_encode {r r' : ManifestRecord} (h : decode? r.encode = some r') :
    r'.group = r.group ∧ r'.image = r.image ∧ r'.tag = r.tag ∧ r'.digest = r.digest ∧
      r'.contentType = r.contentType := by
  rw [decode?, encode, Json.parse?_pretty, Option.bind_some, ofJson?,
    fieldsOrItems?_toJson] at h
  simp only [Json.text?_text, Digest.ofJson?_text, Option.bind_eq_bind, Option.bind_some,
    Option.bind_eq_some_iff, Option.some.injEq] at h
  obtain ⟨size, -, created, -, updated, -, rfl⟩ := h
  exact ⟨rfl, rfl, rfl, rfl, rfl⟩

/-- A record whose size has sixty-four bits and whose times are those of a clock. -/
structure IsProper (r : ManifestRecord) : Prop where
  size : r.size < 2 ^ 64
  created : r.createdAt.IsShown
  updated : r.updatedAt.IsShown

theorem size?_nat {n : Nat} (h : n < 2 ^ 64) : size? (.nat n) = some n := by
  rw [size?, Json.nat, Json.integer?, if_pos ⟨by omega, by omega⟩, Option.map_some,
    Int.toNat_natCast]

/-- A record whose size and times are read back out of JSON as they are written. -/
structure Survives (r : ManifestRecord) : Prop where
  size : r.size < 2 ^ 64
  created : r.createdAt.Survives
  updated : r.updatedAt.Survives

theorem Survives.decode?_encode {r : ManifestRecord} (h : r.Survives) :
    decode? r.encode = some r := by
  have hcreated : Rfc3339.parse? (Rfc3339.text "Z" r.createdAt) = some r.createdAt := h.created
  have hupdated : Rfc3339.parse? (Rfc3339.text "Z" r.updatedAt) = some r.updatedAt := h.updated
  rw [decode?, encode, Json.parse?_pretty, Option.bind_some, ofJson?, fieldsOrItems?_toJson]
  simp only [instant?, Json.text?_text, Digest.ofJson?_text, size?_nat h.size, Option.bind_eq_bind,
    Option.bind_some, hcreated, hupdated]

/-- A proper record is read back as it was written. -/
theorem IsProper.decode?_encode {r : ManifestRecord} (h : r.IsProper) : decode? r.encode = some r :=
  Survives.decode?_encode ⟨h.size, h.created.survives, h.updated.survives⟩

theorem size?_lt {j : Json} {n : Nat} (h : size? j = some n) : n < 2 ^ 64 := by
  obtain ⟨i, hi, rfl⟩ := Option.map_eq_some_iff.1 h
  cases j with
  | integer v =>
    obtain ⟨⟨hlow, hhigh⟩, heq⟩ := Option.ite_none_right_eq_some.1 hi
    obtain rfl := Option.some.inj heq
    omega
  | _ => cases hi

theorem isShown_of_instant? {j : Json} {t : Instant} (h : instant? j = some t) : t.IsShown := by
  obtain ⟨text, -, hread⟩ := Option.bind_eq_some_iff.1 h
  exact Rfc3339.isShown_of_parse? hread

/-- Whatever record is read, it is a proper one. -/
theorem isProper_of_decode? {content : Bytes} {r : ManifestRecord} (h : decode? content = some r) :
    r.IsProper := by
  obtain ⟨j, -, hj⟩ := Option.bind_eq_some_iff.1 h
  unfold ofJson? at hj
  split at hj
  · simp only [Option.bind_eq_bind, Option.bind_eq_some_iff, Option.some.injEq] at hj
    obtain ⟨group, -, image, -, tag, -, digest, -, contentType, -, size, hsize, created, hcreated,
      updated, hupdated, rfl⟩ := hj
    exact ⟨size?_lt hsize, isShown_of_instant? hcreated, isShown_of_instant? hupdated⟩
  · cases hj

end ManifestRecord

end PullThrough

namespace PullThrough.Store

open Job (ComesTo)

variable {s : Store} {d : Disk} {group image tag : String}

/-! ## Manifests -/

/-- The content of a file that may be missing. -/
def fileAt (fault : CacheFault) (p : Path) (d : Disk) : Except Failure (Option Bytes) :=
  match d.read p with
  | .ok content => .ok (some content)
  | .error .missing => .ok none
  | .error _ => .error (.cache fault)

/-- The payload of a record, if it is the one that the record names. -/
def payloadAt (s : Store) (group image : String) (record : ManifestRecord) (d : Disk) :
    Except Failure (Option (ManifestRecord × Bytes)) :=
  let p := s.payloadPath group image record.digest
  match fileAt (.readPayload p.text) p d with
  | .ok (some payload) =>
    if Digest.of payload = record.digest then .ok (some (record, payload)) else .ok none
  | .ok none => .ok none
  | .error failure => .error failure

/-- What the disk holds for a tag. -/
def manifestAt (s : Store) (group image tag : String) (d : Disk) :
    Except Failure (Option (ManifestRecord × Bytes)) :=
  let p := s.recordPath group image tag
  match fileAt (.readRecord p.text) p d with
  | .ok (some content) =>
    match ManifestRecord.decode? content with
    | some record => s.payloadAt group image record d
    | none => .ok none
  | .ok none => .ok none
  | .error failure => .error failure

theorem readIfThere_comesTo (fault : CacheFault) (p : Path) (w : World) :
    ComesTo (readIfThere fault p).run w (fileAt fault p w.disk) w := by
  unfold readIfThere fileAt
  rw [Attempt.run_ask_bind]
  refine ComesTo.step rfl ?_
  dsimp only [World.perform]
  rcases w.disk.read p with e | content
  · cases e <;> exact ComesTo.done _ _
  · exact ComesTo.done _ _

/-- Reading a manifest is a function of the disk. -/
theorem readManifest_comesTo (s : Store) (group image tag : String) (w : World) :
    ComesTo (s.readManifest group image tag).run w (s.manifestAt group image tag w.disk) w := by
  unfold readManifest manifestAt payloadAt
  rw [Attempt.run_bind]
  refine (readIfThere_comesTo _ _ w).bind ?_
  dsimp only
  rcases fileAt _ _ w.disk with failure | content
  · exact ComesTo.done _ _
  cases content with
  | none => exact ComesTo.done _ _
  | some content =>
    dsimp only [Attempt.andThen_ok]
    cases ManifestRecord.decode? content with
    | none => exact ComesTo.done _ _
    | some record =>
      dsimp only
      rw [Attempt.run_bind]
      refine (readIfThere_comesTo _ _ w).bind ?_
      rcases fileAt _ _ w.disk with failure | payload
      · exact ComesTo.done _ _
      cases payload with
      | none => exact ComesTo.done _ _
      | some payload =>
        dsimp only [Attempt.andThen_ok]
        split <;> exact ComesTo.done _ _

theorem fileAt_eq_some {fault : CacheFault} {p : Path} {content : Bytes}
    (h : fileAt fault p d = .ok (some content)) : d.read p = .ok content := by
  unfold fileAt at h
  split at h <;> simp_all

/-- A manifest that is read has its record and its payload in their files, and the payload has the
digest of the record. -/
theorem files_of_manifestAt {r : ManifestRecord} {data : Bytes}
    (h : s.manifestAt group image tag d = .ok (some (r, data))) :
    (∃ content, d.read (s.recordPath group image tag) = .ok content ∧
      ManifestRecord.decode? content = some r) ∧
      d.read (s.payloadPath group image r.digest) = .ok data ∧ Digest.of data = r.digest := by
  unfold manifestAt at h
  dsimp only at h
  split at h
  · next content hc =>
    split at h
    · next record hr =>
      unfold payloadAt at h
      dsimp only at h
      split at h
      · next payload hp =>
        split at h
        · next hd =>
          simp only [Except.ok.injEq, Option.some.injEq, Prod.mk.injEq] at h
          obtain ⟨rfl, rfl⟩ := h
          exact ⟨⟨content, fileAt_eq_some hc, hr⟩, fileAt_eq_some hp, hd⟩
        · cases h
      · cases h
      · cases h
    · cases h
  · cases h
  · cases h

theorem manifestAt_eq_some {r : ManifestRecord} {data : Bytes}
    (h : s.manifestAt group image tag d = .ok (some (r, data))) :
    Digest.of data = r.digest ∧
      ∃ content, d.read (s.recordPath group image tag) = .ok content ∧
        ManifestRecord.decode? content = some r := by
  obtain ⟨hrecord, -, hdigest⟩ := files_of_manifestAt h
  exact ⟨hdigest, hrecord⟩

/-- A manifest is read if its record and its payload are there. -/
theorem manifestAt_of_find {r : ManifestRecord} {data : Bytes} (hp : r.IsProper)
    (hr : d.find (s.recordPath group image tag) = .ok (.file r.encode))
    (hd : d.find (s.payloadPath group image r.digest) = .ok (.file data))
    (hdigest : Digest.of data = r.digest) :
    s.manifestAt group image tag d = .ok (some (r, data)) := by
  unfold manifestAt payloadAt fileAt
  dsimp only
  rw [Disk.read_of_find hr]
  dsimp only
  rw [hp.decode?_encode]
  dsimp only
  rw [Disk.read_of_find hd]
  exact if_pos hdigest

/-! ## Blobs -/

/-- What the disk holds for a digest. -/
def blobAt (s : Store) (group image : String) (digest : Digest) (d : Disk) :
    Except Failure (Option BlobRecord) :=
  let p := s.blobPath group image digest
  match d.find p with
  | .ok (.file content) => .ok (some ⟨group, image, digest, content.length, p⟩)
  | .ok .folder => .ok none
  | .error .missing => .ok none
  | .error _ => .error (.cache (.statBlob p.text))

/-- Looking for a blob is one look at its place. -/
theorem blob_run (s : Store) (group image : String) (digest : Digest) :
    ∃ answer : Except DiskFault Entry → Except Failure (Option BlobRecord),
      (s.blob group image digest).run =
          .step (.find (s.blobPath group image digest)) (fun x => .done (answer x)) ∧
        (∀ d : Disk, answer (d.find (s.blobPath group image digest)) =
          s.blobAt group image digest d) ∧
        ∀ x failure, answer x = .error failure →
          failure = .cache (.statBlob (s.blobPath group image digest).text) := by
  refine ⟨fun
    | .ok (.file content) => .ok (some ⟨group, image, digest, content.length,
        s.blobPath group image digest⟩)
    | .ok .folder => .ok none
    | .error .missing => .ok none
    | .error _ => .error (.cache (.statBlob (s.blobPath group image digest).text)), ?_,
    fun d => rfl, fun x failure h => ?_⟩
  · unfold blob
    rw [Attempt.run_ask_bind]
    congr 1
    funext x
    rcases x with e | e
    · cases e <;> rfl
    · cases e <;> rfl
  · dsimp only at h
    split at h <;> simp_all

/-- Looking for a blob is a function of the disk. -/
theorem blob_comesTo (s : Store) (group image : String) (digest : Digest) (w : World) :
    ComesTo (s.blob group image digest).run w (s.blobAt group image digest w.disk) w := by
  obtain ⟨answer, hrun, hanswer, -⟩ := s.blob_run group image digest
  rw [hrun, ← hanswer]
  exact ComesTo.step rfl (ComesTo.done _ _)

/-- A blob that is found is the content of its file. -/
theorem blobAt_eq_some {digest : Digest} {r : BlobRecord}
    (h : s.blobAt group image digest d = .ok (some r)) :
    ∃ content, d.find (s.blobPath group image digest) = .ok (.file content) ∧
      r = ⟨group, image, digest, content.length, s.blobPath group image digest⟩ := by
  unfold blobAt at h
  dsimp only at h
  split at h
  · next content hc =>
    simp only [Except.ok.injEq, Option.some.injEq] at h
    exact ⟨content, hc, h.symm⟩
  all_goals cases h

/-- Where no blob is found there is no file. -/
theorem find_of_blobAt_eq_none {digest : Digest} (h : s.blobAt group image digest d = .ok none)
    (content : Bytes) : d.find (s.blobPath group image digest) ≠ .ok (.file content) := by
  intro hc
  simp [blobAt, hc] at h

/-! ## The steps of reading -/

section Only

variable {P : Step → Prop}

theorem readIfThere_only {p : Path} (h : P (.read p)) (fault : CacheFault) :
    (readIfThere fault p).run.Only P := by
  refine ⟨h, fun r => ?_⟩
  rcases r with (- | - | -) | - <;> trivial

/-- The digest of the payload that is read is any that a record may name. -/
theorem readManifest_only (hrecord : P (.read (s.recordPath group image tag)))
    (hpayload : ∀ digest, P (.read (s.payloadPath group image digest))) :
    (s.readManifest group image tag).run.Only P := by
  refine (readIfThere_only hrecord _).andThen fun content => ?_
  cases content with
  | none => trivial
  | some content =>
    dsimp only
    cases ManifestRecord.decode? content with
    | none => trivial
    | some record =>
      refine (readIfThere_only (hpayload record.digest) _).andThen fun payload => ?_
      cases payload with
      | none => trivial
      | some payload =>
        dsimp only
        split <;> trivial

theorem blob_only {digest : Digest} (h : P (.find (s.blobPath group image digest))) :
    (s.blob group image digest).run.Only P := by
  refine ⟨h, fun r => ?_⟩
  rcases r with (- | - | -) | (- | -) <;> trivial

end Only

end PullThrough.Store
