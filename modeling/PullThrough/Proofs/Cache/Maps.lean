import Mathlib.Logic.Function.Basic
import PullThrough.Proofs.Cache.Concurrency
import PullThrough.Proofs.Cache.Download
import PullThrough.Proofs.Store.Success
/-
  A cache as two maps.

  Seen from outside a cache is a map from references to manifests and a map from references to blobs
  (`Shelf`). Whoever calls it one call after the other gets the answers of these two maps
  (`Store.calls_refine`), on a device that works: records in JSON, payloads that tags share, scratch
  files and folders do not show. What a disk has to do with a shelf is `Shelf.Models`; each call
  keeps it, and answers as the shelf does (`Shelf.Models.answer`).

  Payloads are shared by their digest. So the data of the calls have to differ in their digests if
  they differ at all, and a payload on the disk is known to be that of some call.
-/
namespace PullThrough

open Store (SameFile arrived)

/-! ## Calls -/

/-- A call of a user of the cache. -/
inductive StoreCall where
  | writeManifest (r : ManifestRef) (digest : Digest) (contentType : String) (data : Bytes)
  | readManifest (r : ManifestRef)
  | writeBlob (r : BlobRef) (stream : List (Except Failure Bytes))
  | blob (r : BlobRef)

/-- What a call comes to. -/
inductive StoreReply where
  | written (outcome : Except Failure ManifestRecord)
  | manifest (outcome : Except Failure (Option (ManifestRecord × Bytes)))
  | kept (outcome : Except Failure BlobRecord)
  | blob (outcome : Except Failure (Option BlobRecord))
  deriving DecidableEq

/-- The record of a blob. -/
def BlobRef.record (s : Store) (r : BlobRef) (data : Bytes) : BlobRecord :=
  ⟨r.group, r.image, r.digest, data.length, s.blobPath r.group r.image r.digest⟩

/-- Checked names, and an image that no file is in the way of. -/
def BlobRef.IsUsual (r : BlobRef) : Prop := Store.IsUsual r.group r.image

namespace StoreCall

def job (s : Store) : StoreCall → Job StoreReply
  | writeManifest r digest contentType data => do
    return .written (← (s.writeManifest r.group r.image r.tag digest contentType data).run)
  | readManifest r => do
    return .manifest (← (s.readManifest r.group r.image r.tag).run)
  | writeBlob r stream => do
    return .kept (← (s.writeBlobStream r.group r.image r.digest stream).run)
  | blob r => do
    return .blob (← (s.blob r.group r.image r.digest).run)

/-- Calls one after the other. -/
def jobs (s : Store) : List StoreCall → Job (List StoreReply)
  | [] => return []
  | call :: rest => do
    let reply ← call.job s
    let replies ← jobs s rest
    return reply :: replies

/-- Its reference is a usual one, and the size of a payload has sixty-four bits. -/
def IsFair : StoreCall → Prop
  | writeManifest r _ _ data => r.IsUsual ∧ data.length < 2 ^ 64
  | readManifest r => r.IsUsual
  | writeBlob r _ => r.IsUsual
  | blob r => r.IsUsual

/-- The payload that is given to a call. -/
def payload? : StoreCall → Option Bytes
  | writeManifest _ _ _ data => some data
  | _ => none

end StoreCall

/-! ## Shelves -/

/-- Two maps, and how often the clock was read. -/
structure Shelf where
  manifests : ManifestRef → Option (ManifestRecord × Bytes) := fun _ => none
  blobs : BlobRef → Option Bytes := fun _ => none
  readings : Nat := 0

namespace Shelf

/-- When the manifest of a reference was written first, which may be now. -/
def createdAt (shelf : Shelf) (r : ManifestRef) (now : Instant) : Instant :=
  match shelf.manifests r with
  | some (record, _) => record.createdAt
  | none => now

/-- A manifest takes the place of the one before it, and a blob is put where none is. -/
def answer (s : Store) (clock : Nat → Instant) (shelf : Shelf) : StoreCall → StoreReply × Shelf
  | .writeManifest r digest contentType data =>
    if Digest.of data = digest then
      let now := clock shelf.readings
      let record : ManifestRecord :=
        ⟨r.group, r.image, r.tag, digest, contentType, data.length, shelf.createdAt r now, now⟩
      (.written (.ok record),
        { shelf with
          manifests := Function.update shelf.manifests r (some (record, data))
          readings := shelf.readings + 1 })
    else (.written (.error (.digestMismatch digest.text (Digest.of data).text)), shelf)
  | .readManifest r => (.manifest (.ok (shelf.manifests r)), shelf)
  | .writeBlob r stream =>
    match arrived stream with
    | .error failure => (.kept (.error failure), shelf)
    | .ok data =>
      if Digest.of data = r.digest then
        (.kept (.ok (r.record s data)),
          { shelf with blobs := Function.update shelf.blobs r ((shelf.blobs r).or (some data)) })
      else (.kept (.error (.digestMismatch r.digest.text (Digest.of data).text)), shelf)
  | .blob r => (.blob (.ok ((shelf.blobs r).map (r.record s))), shelf)

/-- The answers to calls one after the other, and the shelf after them. -/
def answers (s : Store) (clock : Nat → Instant) (shelf : Shelf) :
    List StoreCall → List StoreReply × Shelf
  | [] => ([], shelf)
  | call :: rest =>
    let (reply, shelf) := shelf.answer s clock call
    let (replies, shelf) := shelf.answers s clock rest
    (reply :: replies, shelf)

/-! ## What a shelf says of a disk -/

/-- What the disk has for a reference, by what the shelf has for it. -/
def HasManifest (s : Store) (r : ManifestRef) (d : Disk) : Option (ManifestRecord × Bytes) → Prop
  | none => ∀ content, d.get? (s.locationOf r.place) ≠ some (.file content)
  | some (record, data) => record.Survives ∧ Digest.of data = record.digest ∧
      d.get? (s.locationOf r.place) = some (.file record.encode) ∧
      d.get? (s.locationOf (.payload r.group r.image record.digest)) = some (.file data)

/-- The disk has what the shelf has, and only payloads of one kind. -/
structure Models (shelf : Shelf) (s : Store) (known : Bytes → Prop) (w : World) : Prop where
  isLaidOut : s.IsLaidOut w.disk
  readings : w.readings = shelf.readings
  payloads : ∀ group image digest content,
    w.disk.get? (s.locationOf (.payload group image digest)) = some (.file content) → known content
  manifests : ∀ r : ManifestRef, r.IsUsual → HasManifest s r w.disk (shelf.manifests r)
  blobs : ∀ r : BlobRef, r.IsUsual → ∀ content,
    w.disk.get? (s.locationOf r.place) = some (.file content) ↔ shelf.blobs r = some content

end Shelf

namespace Store

variable {s : Store} {d : Disk} {x : Place} {w : World}

/-! ## Looking -/

/-- What a look at a file of a cache tells, unless the device fails. -/
theorem IsLaidOut.fileAt_of_ok (h : s.IsLaidOut d) (hx : x.IsRegular) {fault : CacheFault}
    {found : Option Bytes} (hok : fileAt fault (s.pathOf x) d = .ok found) (content : Bytes) :
    d.get? (s.locationOf x) = some (.file content) ↔ found = some content := by
  have hworks : failedByDevice (d.find (s.pathOf x)) = false := by
    cases hf : d.find (s.pathOf x) with
    | ok e => rfl
    | error e =>
      rw [fileAt, Disk.read, hf] at hok
      cases e <;> first | rfl | cases hok
  have hfind := h.find_of_works hx hworks
  cases hget : d.get? (s.locationOf x) with
  | none =>
    rw [hget] at hfind
    rw [fileAt, Disk.read, hfind] at hok
    cases hok
    simp
  | some e =>
    cases e with
    | folder => exact absurd hget (h.not_folder hx.toIsFlat)
    | file before =>
      rw [hget] at hfind
      rw [fileAt, Disk.read, hfind] at hok
      cases hok
      simp

/-- What is read at a place whose path can be followed. -/
theorem IsLaidOut.read_of_check (h : s.IsLaidOut d) (hx : x.IsRegular)
    (hc : Disk.checkPath (s.pathOf x) = .ok ()) (content : Bytes) :
    d.get? (s.locationOf x) = some (.file content) ↔
      (d.read (s.pathOf x)).toOption = some content := by
  unfold Disk.read
  rw [h.find_eq hx, hc]
  cases hget : d.get? (s.locationOf x) with
  | none => simp [Except.toOption, bind, Except.bind]
  | some e =>
    cases e with
    | folder => exact absurd hget (h.not_folder hx.toIsFlat)
    | file before => simp [Except.toOption, bind, Except.bind]

end Store

namespace Shelf

open Store

variable {s : Store} {shelf : Shelf} {known : Bytes → Prop} {w : World} {r : ManifestRef}

/-! ## Reading manifests -/

theorem Models.readManifest (h : shelf.Models s known w) (hr : r.IsUsual) :
    (s.readManifest r.group r.image r.tag).run.Smoothly w fun reply w' =>
      reply = .ok (shelf.manifests r) ∧ w' = w := by
  intro hs
  have hrun := (s.readManifest_comesTo r.group r.image r.tag w).run
  obtain ⟨found, hok⟩ := h.isLaidOut.readManifest_smoothly hr.image_isUsual hr.tag hs
  rw [hrun] at hok ⊢
  dsimp only at hok
  refine ⟨?_, rfl⟩
  rw [hok]
  have hhas := h.manifests r hr
  unfold manifestAt at hok
  dsimp only at hok
  rw [hr.recordPath] at hok
  cases hrecord : fileAt (.readRecord (s.pathOf r.place).text) (s.pathOf r.place) w.disk with
  | error failure => rw [hrecord] at hok; cases hok
  | ok content? =>
    rw [hrecord] at hok
    have hfile := h.isLaidOut.fileAt_of_ok hr.isRegular hrecord
    cases hshelf : shelf.manifests r with
    | none =>
      rw [hshelf] at hhas
      cases content? with
      | none => cases hok; rfl
      | some content => exact absurd ((hfile content).2 rfl) (hhas content)
    | some held =>
      obtain ⟨record, data⟩ := held
      rw [hshelf] at hhas
      obtain ⟨hsurvives, hdigest, hget, hpayload⟩ := hhas
      obtain rfl := (hfile _).1 hget
      dsimp only at hok
      rw [hsurvives.decode?_encode] at hok
      dsimp only at hok
      unfold payloadAt at hok
      dsimp only at hok
      rw [hr.payloadPath] at hok
      cases hpay : fileAt (.readPayload (s.pathOf (.payload r.group r.image record.digest)).text)
          (s.pathOf (.payload r.group r.image record.digest)) w.disk with
      | error failure => rw [hpay] at hok; cases hok
      | ok payload? =>
        obtain rfl := (h.isLaidOut.fileAt_of_ok (hr.image_isUsual.payload record.digest) hpay _).1
          hpayload
        rw [hpay] at hok
        dsimp only at hok
        rw [if_pos hdigest] at hok
        cases hok
        rfl

/-! ## Writing manifests -/

/-- What is there for a reference stays if its two files do. -/
theorem HasManifest.later {d d' : Disk} {held : Option (ManifestRecord × Bytes)}
    (h : HasManifest s r d held) (hrecord : SameFile (s.locationOf r.place) d d')
    (hpayload : ∀ digest content,
      d.get? (s.locationOf (.payload r.group r.image digest)) = some (.file content) →
        d'.get? (s.locationOf (.payload r.group r.image digest)) = some (.file content)) :
    HasManifest s r d' held := by
  cases held with
  | none => exact fun content hget => h content ((hrecord content).1 hget)
  | some held =>
    obtain ⟨hsurvives, hdigest, hget, hpay⟩ := h
    exact ⟨hsurvives, hdigest, (hrecord _).2 hget, hpayload _ _ hpay⟩

/-- A manifest that is kept has the time of now, and that of the first one for its reference. -/
theorem Models.record_eq (h : shelf.Models s known w) (hr : r.IsUsual) {digest : Digest}
    {contentType : String} {data : Bytes} {record : ManifestRecord}
    (hok : ((s.writeManifest r.group r.image r.tag digest contentType data).run.run w).1 =
      .ok record) :
    record = ⟨r.group, r.image, r.tag, digest, contentType, data.length,
        shelf.createdAt r (w.clock shelf.readings), w.clock shelf.readings⟩ ∧
      ((s.writeManifest r.group r.image r.tag digest contentType data).run.run w).2.readings =
        shelf.readings + 1 := by
  have hpay : (Place.payload r.group r.image digest).IsRegular := hr.image_isUsual.payload digest
  have hend := writeManifest_end s hr.isGroup hr.isImage hr.tag digest contentType data w
  rw [hok] at hend
  obtain ⟨-, -, hfind⟩ := hend
  rw [hr.recordPath] at hfind
  obtain ⟨w₁, hrun, hclock, hreadings, hkeeps⟩ := writeManifest_second hr.isGroup hr.isImage hok
  have hlaid : s.IsLaidOut w₁.disk :=
    hkeeps s.IsLaidOut (fun _ _ hd hc => hd.changed hpay hc) h.isLaidOut
  have hsame : SameFile (s.locationOf r.place) w.disk w₁.disk :=
    hkeeps (SameFile _ w.disk) (fun _ _ hd hc => hd.trans (hc.leaves.other
      (Place.isOwn_record r.group r.image r.tag) (Place.record_ne_payload _ _ _ _ _ _))) (.refl _ _)
  have hread := hlaid.read_of_check hr.isRegular (Disk.locate_ok (Disk.find_eq_ok hfind).1).1
  have hcreated : (((w₁.disk.read (s.pathOf r.place)).toOption.bind ManifestRecord.decode?).map
      ManifestRecord.createdAt).getD (w.clock shelf.readings) =
        shelf.createdAt r (w.clock shelf.readings) := by
    have hhas := h.manifests r hr
    unfold Shelf.createdAt
    cases hshelf : shelf.manifests r with
    | none =>
      rw [hshelf] at hhas
      cases hc : (w₁.disk.read (s.pathOf r.place)).toOption with
      | none => rfl
      | some content => exact absurd ((hsame content).1 ((hread content).2 hc)) (hhas content)
    | some held =>
      rw [hshelf] at hhas
      obtain ⟨hsurvives, -, hget, -⟩ := hhas
      rw [(hread _).1 ((hsame _).2 hget), Option.bind_some, hsurvives.decode?_encode]
      rfl
  rw [hrun] at hok ⊢
  refine ⟨?_, by rw [writeRecord_readings, hreadings, h.readings]⟩
  rw [writeRecord_record hok, hclock, hreadings, h.readings, hr.recordPath, hcreated]

theorem Models.createdAt_survives (h : shelf.Models s known w) (hr : r.IsUsual) {now : Instant}
    (hnow : now.Survives) : (shelf.createdAt r now).Survives := by
  have hhas := h.manifests r hr
  unfold Shelf.createdAt
  cases hshelf : shelf.manifests r with
  | none => exact hnow
  | some held =>
    rw [hshelf] at hhas
    exact hhas.1.created

section Writes

variable (hdistinct : ∀ a b, known a → known b → Digest.of a = Digest.of b → a = b)
include hdistinct

/-- A payload stays the same as long as some payload that is known stays in its place. -/
theorem Models.payload_stays {w' : World} {allowed : Place → Prop} (h : shelf.Models s known w)
    (hlaid : s.IsLaidOut w'.disk) (hl : s.Leaves allowed w.disk w'.disk)
    (hknown : ∀ group image digest content,
      w'.disk.get? (s.locationOf (.payload group image digest)) = some (.file content) →
        known content)
    (group image : String) (digest : Digest) (content : Bytes)
    (hget : w.disk.get? (s.locationOf (.payload group image digest)) = some (.file content)) :
    w'.disk.get? (s.locationOf (.payload group image digest)) = some (.file content) := by
  obtain ⟨content', hget'⟩ := hl.present _ (Place.isOwn_payload group image digest) content hget
  obtain rfl : content' = content :=
    hdistinct _ _ (hknown _ _ _ _ hget') (h.payloads _ _ _ _ hget)
      ((digest_of_payload hlaid hget').trans (digest_of_payload h.isLaidOut hget).symm)
  exact hget'

/-- The payload of a manifest that was kept is in its place. -/
theorem Models.payload_there (h : shelf.Models s known w) (hr : r.IsUsual) {data : Bytes}
    (hknown : known data) {d' : Disk} {record : ManifestRecord}
    (hp : s.PayloadKept r.group r.image (Digest.of data) data w.disk d' (.ok record)) :
    d'.get? (s.locationOf (.payload r.group r.image (Digest.of data))) = some (.file data) := by
  have hx : (Place.payload r.group r.image (Digest.of data)).IsRegular :=
    hr.image_isUsual.payload _
  cases hp with
  | written hn hf =>
    rw [hr.payloadPath] at hf
    rw [← location_pathOf s hx.isPlain]
    exact (Disk.find_eq_ok hf).2
  | @present _ e hf hs =>
    have hget := (Disk.find_eq_ok hf).2
    rw [hr.payloadPath, location_pathOf s hx.isPlain] at hget
    cases e with
    | folder => exact absurd hget (h.isLaidOut.not_folder hx.toIsFlat)
    | file content =>
      obtain rfl : content = data :=
        hdistinct _ _ (h.payloads _ _ _ _ hget) hknown (digest_of_payload h.isLaidOut hget)
      exact (hs content).2 hget

/-- A manifest that is kept takes its place on the shelf. -/
theorem Models.writeManifest (h : shelf.Models s known w) (hclock : ∀ n, (w.clock n).Survives)
    (hr : r.IsUsual) (digest : Digest) (contentType : String) {data : Bytes} (hknown : known data)
    (hsize : data.length < 2 ^ 64) :
    (s.writeManifest r.group r.image r.tag digest contentType data).run.Smoothly w fun reply w' =>
      .written reply = (shelf.answer s w.clock (.writeManifest r digest contentType data)).1 ∧
        (shelf.answer s w.clock (.writeManifest r digest contentType data)).2.Models s
          known w' := by
  unfold Shelf.answer
  dsimp only
  by_cases hd : Digest.of data = digest
  case neg =>
    unfold Store.writeManifest
    rw [if_neg hd, if_pos hd]
    exact Job.smoothly_done.2 ⟨rfl, h⟩
  subst hd
  rw [if_pos rfl]
  intro hs
  have hu := hr.image_isUsual
  have hdoes := writeManifest_does (s := s) hr.isGroup hr.isImage hr.tag
    (Digest.of data) contentType
    data w
  have hleaves := leaves_of_does hdoes
  have hlaid := (hdoes.keeps (fun _ _ hd hc =>
    hd.change (fun _ hx => hu.isRegular_of_manifest hr.tag hx) hc) h.isLaidOut).run.2
  have hisOk := writeManifest_smoothly hu hr.tag rfl h.isLaidOut hs
  have hrecord : ∀ record, ((s.writeManifest r.group r.image r.tag (Digest.of data) contentType
    data).run.run w).1 = .ok record → _ := fun _ => h.record_eq hr
  obtain ⟨hmanifest, hpayload⟩ := hdoes.run
  have hpayloads := hpayload.known hleaves hr.isGroup hr.isImage hknown h.payloads
  generalize (s.writeManifest r.group r.image r.tag (Digest.of data) contentType data).run.run w =
    out at *
  obtain ⟨reply, w'⟩ := out
  dsimp only at *
  cases reply with
  | error failure => cases hisOk
  | ok record =>
    obtain ⟨rfl, hreadings⟩ := hrecord record rfl
    refine ⟨rfl, hlaid, hreadings, hpayloads, ?_, ?_⟩
    · intro r' hr'
      dsimp only
      by_cases hne : r' = r
      · subst hne
        rw [Function.update_self]
        refine ⟨⟨hsize, h.createdAt_survives hr' (hclock _), hclock _⟩, rfl, ?_,
          h.payload_there hdistinct hr' hknown hpayload⟩
        rw [← location_pathOf s hr'.isRegular.isPlain, ← hr'.recordPath]
        exact (Disk.find_eq_ok hmanifest.2.2).2
      · rw [Function.update_of_ne hne]
        exact (h.manifests r' hr').later
          (hleaves.otherRecord fun hn => hne (hr'.record_inj hr.toIsAlone hn))
          (h.payload_stays hdistinct hlaid hleaves hpayloads r'.group r'.image)
    · intro b hb content
      rw [hleaves.file b.place (Place.isOwn_blob _ _ _) ?_ content]
      · exact h.blobs b hb content
      · rintro _ (rfl | rfl) hn
        · exact absurd (Place.names_inj hn).2.1 (show "blobs" ≠ "manifests" by decide)
        · exact absurd (Place.names_inj hn).2.1 (show "blobs" ≠ "manifests" by decide)

end Writes

/-! ## Blobs -/

theorem Models.blob (h : shelf.Models s known w) {r : BlobRef} (hr : r.IsUsual) :
    (s.blob r.group r.image r.digest).run.Smoothly w fun reply w' =>
      reply = .ok ((shelf.blobs r).map (r.record s)) ∧ w' = w := by
  have hx : r.place.IsRegular := Store.IsUsual.blob hr r.digest
  have hblobs := h.blobs r hr
  unfold Store.blob BlobRef.record
  dsimp only
  rw [s.blobPath_eq hr.isGroup hr.isImage, Attempt.run_ask_bind]
  refine Job.smoothly_step fun hs => ?_
  have hfind : w.disk.find (s.pathOf (.blob r.group r.image r.digest)) =
      (w.disk.get? (s.locationOf r.place)).elim (.error .missing) .ok :=
    h.isLaidOut.find_of_works hx hs
  dsimp only [World.perform]
  rw [hfind]
  cases hget : w.disk.get? (s.locationOf r.place) with
  | none =>
    have hnone : shelf.blobs r = none := by
      cases hheld : shelf.blobs r with
      | none => rfl
      | some content =>
        rw [(hblobs content).2 hheld] at hget
        cases hget
    rw [hnone]
    exact Job.smoothly_done.2 ⟨rfl, rfl⟩
  | some e =>
    cases e with
    | folder => exact absurd hget (h.isLaidOut.not_folder hx.toIsFlat)
    | file content =>
      rw [(hblobs content).1 hget]
      exact Job.smoothly_done.2 ⟨rfl, rfl⟩

/-- Writing the file of one blob leaves the rest of a shelf. -/
theorem Models.with_blob (h : shelf.Models s known w) {r : BlobRef} {w' : World}
    (hlaid : s.IsLaidOut w'.disk) (hreadings : w'.readings = w.readings)
    (hl : s.Leaves (Eq r.place) w.disk w'.disk) {held : Option Bytes}
    (hheld : ∀ content,
      w'.disk.get? (s.locationOf r.place) = some (.file content) ↔ held = some content) :
    { shelf with blobs := Function.update shelf.blobs r held : Shelf }.Models s known w' := by
  have hpayload (group image : String) (digest : Digest) :
      SameFile (s.locationOf (.payload group image digest)) w.disk w'.disk := by
    refine hl.other (Place.isOwn_payload _ _ _) fun hn => ?_
    exact absurd (Place.names_inj hn).2.1 (show "manifests" ≠ "blobs" by decide)
  refine ⟨hlaid, hreadings.trans h.readings, ?_, ?_, ?_⟩
  · exact fun group image digest content hget =>
      h.payloads group image digest content ((hpayload _ _ _ content).1 hget)
  · intro m hm
    have hrecord : SameFile (s.locationOf m.place) w.disk w'.disk := by
      refine hl.other (Place.isOwn_record _ _ _) fun hn => ?_
      exact absurd (Place.names_inj hn).2.1 (show "manifests" ≠ "blobs" by decide)
    exact (h.manifests m hm).later hrecord fun _ content hget => (hpayload _ _ _ content).2 hget
  · intro b hb content
    dsimp only
    by_cases hne : b = r
    · subst hne
      rw [Function.update_self]
      exact hheld content
    · rw [Function.update_of_ne hne]
      have hother : SameFile (s.locationOf b.place) w.disk w'.disk :=
        hl.other (Place.isOwn_blob _ _ _) fun hn =>
          BlobRef.locationOf_ne hne (congrArg (s.root ++ ·) hn)
      exact (hother content).trans (h.blobs b hb content)

/-- A stream that is kept puts its blob where none is. -/
theorem Models.writeBlob (h : shelf.Models s known w) {r : BlobRef} (hr : r.IsUsual)
    (stream : List (Except Failure Bytes)) :
    (s.writeBlobStream r.group r.image r.digest stream).run.Smoothly w fun reply w' =>
      .kept reply = (shelf.answer s w.clock (.writeBlob r stream)).1 ∧
        (shelf.answer s w.clock (.writeBlob r stream)).2.Models s known w' := by
  intro hs
  have hx : r.place.IsRegular := Store.IsUsual.blob hr r.digest
  have hdoes := (writeBlobStream_amid hr.isGroup hr.isImage r.digest (s.spares_of_eq _)
    (Eq.refl r.place) stream w.disk).does fun _ _ _ hw => hw.2
  have hlaid := (hdoes.keeps (fun _ _ hd hc => hd.changed hx hc) h.isLaidOut).run.2
  have hreadings :=
    Job.Only.readings (s.writeBlobStream_isOfFiles r.group r.image r.digest stream) w
  have hleaves := leaves_of_does hdoes
  have hsame := hdoes.run.2
  obtain ⟨hreply, hfile⟩ := writeBlobStream_outcome hr r.digest stream h.isLaidOut hs
  generalize (s.writeBlobStream r.group r.image r.digest stream).run.run w = out at *
  obtain ⟨reply, w'⟩ := out
  dsimp only at *
  -- a stream that is not kept leaves the entry of its blob
  have hfailed (hno : reply.isOk = false) : shelf.Models s known w' := by
    have hheld (content : Bytes) : w'.disk.get? (s.locationOf r.place) = some (.file content) ↔
        shelf.blobs r = some content := (hsame hno content).trans (h.blobs r hr content)
    have hmodels := h.with_blob hlaid hreadings hleaves hheld
    rwa [Function.update_eq_self] at hmodels
  unfold streamOutcome at hreply
  unfold Shelf.answer
  dsimp only
  cases harrived : arrived stream with
  | error failure =>
    rw [harrived] at hreply
    subst hreply
    exact ⟨rfl, hfailed rfl⟩
  | ok data =>
    rw [harrived] at hreply
    dsimp only at hreply ⊢
    by_cases hd : Digest.of data = r.digest
    case neg =>
      rw [if_neg hd] at hreply ⊢
      subst hreply
      exact ⟨rfl, hfailed rfl⟩
    rw [if_pos hd] at hreply ⊢
    subst hreply
    refine ⟨rfl, h.with_blob hlaid hreadings hleaves fun content => (hfile _ rfl content).trans ?_⟩
    have hblobs := h.blobs r hr
    change w.disk.get? (s.locationOf r.place) = _ ∨
      (∀ before, w.disk.get? (s.locationOf r.place) ≠ _) ∧ _ ↔ _
    cases hheld : shelf.blobs r with
    | none =>
      have hnone (before : Bytes) : w.disk.get? (s.locationOf r.place) ≠ some (.file before) := by
        intro hget
        rw [(hblobs before).1 hget] at hheld
        cases hheld
      simp [hnone, harrived]
    | some before =>
      have hget := (hblobs before).2 hheld
      simp [hget]

/-! ## One call after the other -/

variable (hdistinct : ∀ a b, known a → known b → Digest.of a = Digest.of b → a = b)
  (hclock : ∀ n, (w.clock n).Survives)
include hdistinct hclock

/-- A call is answered as the shelf answers it, and the shelf after it says what the disk has. -/
theorem Models.answer (h : shelf.Models s known w) {call : StoreCall} (hfair : call.IsFair)
    (hknown : ∀ data, call.payload? = some data → known data) :
    (call.job s).Smoothly w fun reply w' =>
      reply = (shelf.answer s w.clock call).1 ∧
        (shelf.answer s w.clock call).2.Models s known w' := by
  cases call with
  | writeManifest r digest contentType data =>
    exact .bind ((h.writeManifest hdistinct hclock hfair.1 digest contentType (hknown _ rfl)
      hfair.2).post fun _ _ hq => Job.smoothly_done.2 hq)
  | readManifest r =>
    refine .bind ((h.readManifest hfair).post ?_)
    rintro _ _ ⟨rfl, rfl⟩
    exact Job.smoothly_done.2 ⟨rfl, h⟩
  | writeBlob r stream =>
    exact .bind ((h.writeBlob hfair stream).post fun _ _ hq => Job.smoothly_done.2 hq)
  | blob r =>
    refine .bind ((h.blob hfair).post ?_)
    rintro _ _ ⟨rfl, rfl⟩
    exact Job.smoothly_done.2 ⟨rfl, h⟩

theorem Models.answers (h : shelf.Models s known w) {calls : List StoreCall}
    (hfair : ∀ call ∈ calls, call.IsFair)
    (hknown : ∀ call ∈ calls, ∀ data, call.payload? = some data → known data) :
    (StoreCall.jobs s calls).Smoothly w fun replies w' =>
      replies = (shelf.answers s w.clock calls).1 ∧
        (shelf.answers s w.clock calls).2.Models s known w' := by
  induction calls generalizing shelf w with
  | nil => exact Job.smoothly_done.2 ⟨rfl, h⟩
  | cons call rest ih =>
    have hcall := (h.answer hdistinct hclock (hfair call List.mem_cons_self)
      (hknown call List.mem_cons_self)).fixed
    refine .bind (hcall.post ?_)
    rintro _ w₁ ⟨⟨rfl, h₁⟩, -, hclock₁⟩
    have hrest := ih (by rwa [hclock₁]) h₁ (fun c hc => hfair c (List.mem_cons_of_mem _ hc))
      fun c hc => hknown c (List.mem_cons_of_mem _ hc)
    rw [hclock₁] at hrest
    refine .bind (hrest.post ?_)
    rintro _ w₂ ⟨rfl, h₂⟩
    exact Job.smoothly_done.2 ⟨rfl, h₂⟩

end Shelf

theorem Shelf.models_of_isEmpty {s : Store} {w : World} (h : s.IsEmpty w.disk)
    (known : Bytes → Prop) : { readings := w.readings : Shelf }.Models s known w where
  isLaidOut := .of_isEmpty h
  readings := rfl
  payloads group image digest content hget := by
    rw [h.place] at hget
    cases hget
  manifests r _ content := by simp [h.place]
  blobs r _ content := by simp [h.place]

/-- A cache answers as two maps do, whatever calls it gets one after the other. -/
theorem Store.calls_refine {s : Store} {w : World} (h : s.IsEmpty w.disk)
    (hclock : ∀ n, (w.clock n).Survives) {calls : List StoreCall}
    (hfair : ∀ call ∈ calls, call.IsFair)
    (hdistinct : ∀ a ∈ calls.filterMap StoreCall.payload?, ∀ b ∈ calls.filterMap StoreCall.payload?,
      Digest.of a = Digest.of b → a = b) :
    (StoreCall.jobs s calls).Smoothly w fun replies w' =>
      replies = (Shelf.answers s w.clock { readings := w.readings } calls).1 ∧
        (Shelf.answers s w.clock { readings := w.readings } calls).2.Models s
          (· ∈ calls.filterMap StoreCall.payload?) w' :=
  (Shelf.models_of_isEmpty h _).answers (fun a b ha hb => hdistinct a ha b hb) hclock hfair
    fun call hcall _ hdata => List.mem_filterMap.2 ⟨call, hcall, hdata⟩

/-- A manifest that is replaced, one that is refused, and a blob that is given twice. -/
theorem Store.calls_refine_of_new :
    let s : Store := { base := [""] }
    let w : World :=
      { disk := ⟨[(Slot.of ["groups"], .folder)]⟩
        clock := fun n => if n = 0 then ⟨0, 0⟩ else ⟨1, 0⟩
        origin := fun _ _ => .failed }
    let r : ManifestRef := ⟨"g", "i", "t"⟩
    let b : BlobRef := ⟨"g", "i", Digest.of [3]⟩
    let calls : List StoreCall :=
      [.writeManifest r (Digest.of [1]) "a" [1], .writeManifest r (Digest.of [2]) "b" [2],
        .writeManifest r (Digest.of [1]) "c" [2], .readManifest r,
        .writeBlob b [.ok [3], .error (.notFound "")], .blob b, .writeBlob b [.ok [3]],
        .writeBlob b [.ok [3]], .blob b]
    s.IsEmpty w.disk ∧ (∀ call ∈ calls, call.IsFair) ∧ (StoreCall.jobs s calls).isSmooth w = true ∧
      ((StoreCall.jobs s calls).run w).1 =
        (Shelf.answers s w.clock { readings := w.readings } calls).1 ∧
      StoreReply.manifest
        (.ok (some (⟨"g", "i", "t", Digest.of [2], "b", 1, ⟨0, 0⟩, ⟨1, 0⟩⟩, [2]))) ∈
        ((StoreCall.jobs s calls).run w).1 := by
  intro s w r b calls
  have hw : s.IsEmpty w.disk := Store.isEmpty_of_new
  have hr : r.IsUsual :=
    ⟨⟨⟨by decide +kernel, by decide +kernel, by decide +kernel⟩, by decide +kernel,
      fun digest h => by
      have hlength := congrArg (fun tag : String => tag.toList.length) h
      simp [r, Name.underscored] at hlength⟩, by decide +kernel⟩
  have hb : b.IsUsual := hr.image_isUsual
  have hcalls : ∀ call ∈ calls, call.IsFair := by
    simp only [calls, List.forall_mem_cons, List.not_mem_nil, false_implies, implies_true, and_true]
    exact ⟨⟨hr, by decide⟩, ⟨hr, by decide⟩, ⟨hr, by decide⟩, hr, hb, hb, hb, hb, hb⟩
  have hclock : ∀ n, (w.clock n).Survives := by
    intro n
    by_cases hn : n = 0
    · simp only [w, if_pos hn]
      exact Instant.IsShown.survives ⟨by decide +kernel, .inl (by decide)⟩
    · simp only [w, if_neg hn]
      exact Instant.IsShown.survives ⟨by decide +kernel, .inl (by decide)⟩
  have hsmooth : (StoreCall.jobs s calls).isSmooth w = true := by decide +kernel
  obtain ⟨hreplies, -⟩ := calls_refine hw hclock hcalls (by decide +kernel) hsmooth
  refine ⟨hw, hcalls, hsmooth, hreplies, ?_⟩
  rw [hreplies]
  decide +kernel

end PullThrough
