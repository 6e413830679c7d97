import PullThrough.Proofs.Store.Writing
/-
  Which records are read back as they were written.

  A record is kept as JSON, and its texts may be any at all: names, tag and content type pass
  through the escapes of JSON strings, the digest through its own text. So a record is read back
  just if its size has sixty-four bits and its two times survive RFC 3339
  (`ManifestRecord.decode?_encode_iff`), which all times of a clock with a calendar do
  (`Instant.survives_iff`). The records that the cache itself builds are of this kind, since a time
  of creation that it takes over was read from a record (`Store.survives_of_writeManifest`).
-/
namespace PullThrough

/-- The times that survive are those that have a date. -/
theorem Instant.survives_iff {t : Instant} : t.Survives ↔ t.IsShown :=
  ⟨Rfc3339.isShown_of_parse?, Instant.IsShown.survives⟩

namespace ManifestRecord

theorem IsProper.survives {r : ManifestRecord} (h : r.IsProper) : r.Survives :=
  ⟨h.size, h.created.survives, h.updated.survives⟩

/-- A record is read back as it was written just if its size and its times are. -/
theorem decode?_encode_iff {r : ManifestRecord} : decode? r.encode = some r ↔ r.Survives :=
  ⟨fun h => (isProper_of_decode? h).survives, Survives.decode?_encode⟩

end ManifestRecord

namespace Store

variable {s : Store} {w : World} {group image tag contentType : String} {digest : Digest}
  {data : Bytes} {r : ManifestRecord}

/-- A record that the cache has built survives, if the times of the clock do. -/
theorem survives_of_writeManifest (hg : Name.checkGroup group = .ok ())
    (hi : Name.checkImage image = .ok ()) (ht : Name.checkTag tag = .ok ())
    (hclock : ∀ n, (w.clock n).Survives) (hsize : data.length < 2 ^ 64)
    (h : ((s.writeManifest group image tag digest contentType data).run.run w).1 = .ok r) :
    r.Survives := by
  have hg := Name.isGroup_of_check hg
  have hi := Name.isImage_of_check hi
  have htimed := writeManifest_isTimed hg hi ht h
  have hend := writeManifest_end s hg hi ht digest contentType data w
  rw [h] at hend
  obtain ⟨-, ⟨created, updated, rfl⟩, -⟩ := hend
  exact (htimed.isProper (fun n => Instant.survives_iff.1 (hclock n)) hsize).survives

/-- Reading the record of a tag looks at its file only. -/
theorem readRecord_of_find {p : Path} {content : Bytes} (h : w.disk.find p = .ok (.file content)) :
    (readRecord p).run.run w = (.ok (ManifestRecord.decode? content), w) := by
  rw [(readRecord_comesTo p w).run, Disk.read_of_find h]
  rfl

/-- Every record is read back out of its JSON just if its size has sixty-four bits and its times
survive RFC 3339, whatever its texts are; all times with a date do. And the record that keeping a
manifest answers is the one that is read from its file afterwards. -/
theorem records_round_trip :
    (∀ r : ManifestRecord, ManifestRecord.decode? r.encode = some r ↔
      r.size < 2 ^ 64 ∧ r.createdAt.Survives ∧ r.updatedAt.Survives) ∧
    (∀ t : Instant, t.Survives ↔ t.IsShown) ∧
    ∀ (s : Store) (w : World) (group image tag contentType : String) (digest : Digest)
      (data : Bytes) (r : ManifestRecord), Name.checkGroup group = .ok () →
      Name.checkImage image = .ok () → Name.checkTag tag = .ok () →
      (∀ n, (w.clock n).Survives) → data.length < 2 ^ 64 →
      ((s.writeManifest group image tag digest contentType data).run.run w).1 = .ok r →
        r = ⟨group, image, tag, digest, contentType, data.length, r.createdAt, r.updatedAt⟩ ∧
          ManifestRecord.decode? r.encode = some r ∧
          ((readRecord (s.recordPath group image tag)).run.run
            ((s.writeManifest group image tag digest contentType data).run.run w).2).1 =
              .ok (some r) := by
  refine ⟨fun r => ?_, fun t => Instant.survives_iff, ?_⟩
  · rw [ManifestRecord.decode?_encode_iff]
    exact ⟨fun h => ⟨h.size, h.created, h.updated⟩, fun h => ⟨h.1, h.2.1, h.2.2⟩⟩
  · intro s w group image tag contentType digest data r hg hi ht hclock hsize h
    have hback := (survives_of_writeManifest hg hi ht hclock hsize h).decode?_encode
    have hend := writeManifest_end s (Name.isGroup_of_check hg) (Name.isImage_of_check hi) ht digest
      contentType data w
    rw [h] at hend
    obtain ⟨-, ⟨created, updated, rfl⟩, hfind⟩ := hend
    refine ⟨rfl, hback, ?_⟩
    rw [readRecord_of_find hfind, hback]

/-- A content type with a quote, a backslash, control characters and characters beyond ASCII. -/
theorem records_round_trip_of_escapes :
    let s : Store := { base := [""] }
    let w : World :=
      { disk := ⟨[(Slot.of ["groups"], .folder)]⟩
        clock := fun n => if n = 0 then ⟨1700000000, 123000000⟩ else ⟨-1, 0⟩
        origin := fun _ _ => .failed }
    let contentType := "a\"b\\c/\x00\n\x1f\x7fé😀\u2028"
    let r : ManifestRecord :=
      ⟨"g", "i/j", "t", Digest.of [1], contentType, 1, ⟨1700000000, 123000000⟩,
        ⟨1700000000, 123000000⟩⟩
    (∀ n, (w.clock n).Survives) ∧
      ((s.writeManifest "g" "i/j" "t" (Digest.of [1]) contentType [1]).run.run w).1 = .ok r ∧
      ManifestRecord.decode? r.encode = some r ∧
      ((readRecord (s.recordPath "g" "i/j" "t")).run.run
        ((s.writeManifest "g" "i/j" "t" (Digest.of [1]) contentType [1]).run.run w).2).1 =
          .ok (some r) := by
  intro s w contentType r
  have hclock : ∀ n, (w.clock n).Survives := by
    intro n
    rw [Instant.survives_iff]
    by_cases hn : n = 0
    · simp only [w, if_pos hn]
      exact ⟨by decide +kernel, .inl (by decide)⟩
    · simp only [w, if_neg hn]
      exact ⟨by decide +kernel, .inl (by decide)⟩
  have hwritten : ((s.writeManifest "g" "i/j" "t" (Digest.of [1]) contentType [1]).run.run w).1 =
      .ok r := by decide +kernel
  obtain ⟨-, hback, hread⟩ :=
    records_round_trip.2.2 s w "g" "i/j" "t" contentType (Digest.of [1]) [1] r
    (by decide +kernel) (by decide +kernel) (by decide +kernel) hclock (by decide) hwritten
  exact ⟨hclock, hwritten, hback, hread⟩

end Store

end PullThrough
