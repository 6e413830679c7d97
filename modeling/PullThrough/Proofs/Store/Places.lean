import PullThrough.Proofs.Name.Parts
import PullThrough.Store.Record
import PullThrough.Store.Layout
/-
  Where the files of a cache lie.

  For checked names the paths of `Store.recordPath`, `Store.payloadPath` and `Store.blobPath` are
  the folder of all groups and behind it the names of a `Place`: group, kind, the parts of the
  image, a folder and a file. All of these are plain, so a place has one location on every disk
  (`Store.locationOf`), and files at different names are at different locations.
-/
namespace PullThrough

open PullThrough.Path (location)

/-! ## Places -/

/-- A place for a file in a cache, and what it may hold there. -/
structure Place where
  group : String
  kind : String
  image : String
  folder : String
  file : String
  fits : Bytes → Prop

namespace Place

/-- The names of a place from the folder of all groups on. -/
def names (x : Place) : Location := x.group :: x.kind :: (Path.ofText x.image ++ [x.folder, x.file])

def record (group image tag : String) : Place :=
  ⟨group, "manifests", image, "tags", Store.tagName tag ++ ".json",
    fun content => ∃ r : ManifestRecord, content = r.encode⟩

def payload (group image : String) (digest : Digest) : Place :=
  ⟨group, "manifests", image, "sha256", digest.hex, fun content => Digest.of content = digest⟩

def blob (group image : String) (digest : Digest) : Place :=
  ⟨group, "blobs", image, "sha256", digest.hex, fun content => Digest.of content = digest⟩

/-- The place of a scratch file, which may hold anything. -/
def scratch (x : Place) (label : String) : Place :=
  { x with file := x.file ++ "." ++ label ++ ".tmp", fits := fun _ => True }

/-- All names of the place are plain. -/
def IsPlain (x : Place) : Prop := ∀ n ∈ x.names, Path.IsPlain n

/-- What fits into a file that is named like a digest has that digest. -/
def IsSound (x : Place) : Prop :=
  ∀ digest : Digest, x.file = digest.hex → ∀ content, x.fits content → Digest.of content = digest

/-- Two places with the same names differ in nothing but what fits. -/
theorem names_inj {x y : Place} (h : x.names = y.names) :
    x.group = y.group ∧ x.kind = y.kind ∧ x.image = y.image ∧ x.folder = y.folder ∧
      x.file = y.file := by
  simp only [names, List.cons.injEq] at h
  obtain ⟨hg, hk, h⟩ := h
  obtain ⟨hi, hf⟩ := List.append_inj' h rfl
  simp only [List.cons.injEq, and_true] at hf
  exact ⟨hg, hk, Path.ofText_inj hi, hf.1, hf.2⟩

/-! ### Names of files -/

/-- A name with a dot is not that of a digest. -/
theorem ne_hex_of_dot {s : String} (h : '.' ∈ s.toList) (d : Digest) : s ≠ d.hex := by
  rintro rfl
  exact Digest.not_mem_hex '.' d (by decide) h

/-- A longer name than the dots is plain. -/
theorem isPlain_of_length {s : String} (h : 2 < s.toList.length) : Path.IsPlain s := by
  refine ⟨?_, ?_, ?_⟩ <;> rintro rfl <;> exact absurd h (by decide)

theorem isPlain_hex (d : Digest) : Path.IsPlain d.hex :=
  isPlain_of_length (by rw [d.length_hex]; decide)

theorem isPlain_json (s : String) : Path.IsPlain (s ++ ".json") := by
  apply isPlain_of_length
  have h : ".json".toList.length = 5 := rfl
  rw [String.toList_append, List.length_append, h]
  omega

theorem isPlain_tmp (s : String) : Path.IsPlain (s ++ ".tmp") := by
  apply isPlain_of_length
  have h : ".tmp".toList.length = 4 := rfl
  rw [String.toList_append, List.length_append, h]
  omega

theorem isPlain_names {x : Place} (hg : Name.isGroup x.group = true)
    (hi : Name.isImage x.image = true) (hk : Path.IsPlain x.kind) (hd : Path.IsPlain x.folder)
    (hf : Path.IsPlain x.file) : x.IsPlain := by
  intro n hn
  simp only [names, List.mem_cons, List.mem_append, List.not_mem_nil, or_false] at hn
  rcases hn with rfl | rfl | hn | rfl | rfl
  · exact Name.isPlain_of_isGroup hg
  · exact hk
  · exact Name.isPlain_of_isImage hi n hn
  · exact hd
  · exact hf

theorem isPlain_record {group image : String} (hg : Name.isGroup group = true)
    (hi : Name.isImage image = true) (tag : String) : (record group image tag).IsPlain :=
  isPlain_names hg hi (show Path.IsPlain "manifests" by decide) (show Path.IsPlain "tags" by decide)
    (isPlain_json _)

theorem isPlain_payload {group image : String} (hg : Name.isGroup group = true)
    (hi : Name.isImage image = true) (digest : Digest) : (payload group image digest).IsPlain :=
  isPlain_names hg hi (show Path.IsPlain "manifests" by decide)
    (show Path.IsPlain "sha256" by decide)
    (isPlain_hex _)

theorem isPlain_blob {group image : String} (hg : Name.isGroup group = true)
    (hi : Name.isImage image = true) (digest : Digest) : (blob group image digest).IsPlain :=
  isPlain_names hg hi (show Path.IsPlain "blobs" by decide) (show Path.IsPlain "sha256" by decide)
    (isPlain_hex _)

theorem IsPlain.scratch {x : Place} (h : x.IsPlain) (label : String) :
    (x.scratch label).IsPlain := by
  intro n hn
  simp only [names, Place.scratch, List.mem_cons, List.mem_append, List.not_mem_nil, or_false] at hn
  rcases hn with rfl | rfl | hn | rfl | rfl
  · exact h _ (by simp [names])
  · exact h _ (by simp [names])
  · exact h n (by simp [names, hn])
  · exact h _ (by simp [names])
  · exact isPlain_tmp _

/-! ### Short names -/

/-- No name of the place is too long for a disk. -/
def IsShort (x : Place) : Prop := ∀ n ∈ x.names, n.utf8ByteSize ≤ Disk.maxName

theorem isShort_names {x : Place} (hg : Name.isGroup x.group = true)
    (hi : Name.isImage x.image = true) (hk : x.kind.utf8ByteSize ≤ 255)
    (hd : x.folder.utf8ByteSize ≤ 255) (hf : x.file.utf8ByteSize ≤ 255) : x.IsShort := by
  intro n hn
  simp only [names, List.mem_cons, List.mem_append, List.not_mem_nil, or_false] at hn
  rcases hn with rfl | rfl | hn | rfl | rfl
  · exact Name.size_of_isGroup hg
  · exact hk
  · exact Nat.le_trans (Path.size_le_of_mem hn) (Name.size_of_isImage hi)
  · exact hd
  · exact hf

theorem isShort_record {group image tag : String} (hg : Name.isGroup group = true)
    (hi : Name.isImage image = true) (ht : Name.checkTag tag = .ok ()) :
    (record group image tag).IsShort := by
  refine isShort_names hg hi (show "manifests".utf8ByteSize ≤ 255 by decide)
    (show "tags".utf8ByteSize ≤ 255 by decide) ?_
  have hsize := Name.size_tagName ht
  have hjson : ".json".utf8ByteSize = 5 := rfl
  show (Store.tagName tag ++ ".json").utf8ByteSize ≤ 255
  rw [String.utf8ByteSize_append]
  omega

theorem isShort_payload {group image : String} (hg : Name.isGroup group = true)
    (hi : Name.isImage image = true) (digest : Digest) : (payload group image digest).IsShort :=
  isShort_names hg hi (show "manifests".utf8ByteSize ≤ 255 by decide)
    (show "sha256".utf8ByteSize ≤ 255 by decide)
    (show digest.hex.utf8ByteSize ≤ 255 by rw [digest.size_hex]; decide)

theorem isShort_blob {group image : String} (hg : Name.isGroup group = true)
    (hi : Name.isImage image = true) (digest : Digest) : (blob group image digest).IsShort :=
  isShort_names hg hi (show "blobs".utf8ByteSize ≤ 255 by decide)
    (show "sha256".utf8ByteSize ≤ 255 by decide)
    (show digest.hex.utf8ByteSize ≤ 255 by rw [digest.size_hex]; decide)

/-! ### Sound places -/

theorem isSound_record (group image tag : String) : (record group image tag).IsSound := by
  intro digest hd
  refine absurd hd (ne_hex_of_dot ?_ digest)
  simp [record]

theorem isSound_payload (group image : String) (digest : Digest) :
    (payload group image digest).IsSound := by
  intro d hd content hc
  rw [← Digest.ext hd]
  exact hc

theorem isSound_blob (group image : String) (digest : Digest) :
    (blob group image digest).IsSound := by
  intro d hd content hc
  rw [← Digest.ext hd]
  exact hc

theorem scratch_file_ne_hex (x : Place) (label : String) (d : Digest) :
    (x.scratch label).file ≠ d.hex :=
  ne_hex_of_dot (by simp [scratch]) d

/-- The place of no scratch file. -/
def IsOwn (x : Place) : Prop := ∀ (y : Place) (label : String), x.names ≠ (y.scratch label).names

/-- Names of records and of scratch files end differently. -/
theorem isOwn_record (group image tag : String) : (record group image tag).IsOwn := by
  intro y label h
  have hf := (names_inj h).2.2.2.2
  have hlast := congrArg (fun name : String => name.toList.reverse.head?) hf
  simp [record, scratch] at hlast

theorem isOwn_of_hex {x : Place} {digest : Digest} (h : x.file = digest.hex) : x.IsOwn := by
  intro y label hn
  refine scratch_file_ne_hex y label digest ?_
  rw [← h]
  exact (names_inj hn).2.2.2.2.symm

theorem isOwn_payload (group image : String) (digest : Digest) :
    (payload group image digest).IsOwn := isOwn_of_hex rfl

theorem isOwn_blob (group image : String) (digest : Digest) : (blob group image digest).IsOwn :=
  isOwn_of_hex rfl

theorem record_ne_payload (group image tag group' image' : String) (digest : Digest) :
    (record group image tag).names ≠ (payload group' image' digest).names := by
  intro h
  have hf := (names_inj h).2.2.2.1
  simp [record, payload] at hf

theorem names_record_iff {group image tag group' image' tag' : String} :
    (record group' image' tag').names = (record group image tag).names ↔
      group' = group ∧ image' = image ∧ Store.tagName tag' = Store.tagName tag := by
  constructor
  · intro h
    obtain ⟨hg, -, hi, -, hf⟩ := names_inj h
    refine ⟨hg, hi, String.toList_inj.1 ?_⟩
    have := congrArg String.toList hf
    simpa [record] using this
  · rintro ⟨rfl, rfl, ht⟩
    simp [record, names, ht]

theorem names_payload_iff {group image group' image' : String} {digest digest' : Digest} :
    (payload group image digest).names = (payload group' image' digest').names ↔
      group = group' ∧ image = image' ∧ digest = digest' := by
  constructor
  · intro h
    obtain ⟨hg, -, hi, -, hf⟩ := names_inj h
    exact ⟨hg, hi, Digest.ext hf⟩
  · rintro ⟨rfl, rfl, rfl⟩
    rfl

theorem scratch_names_ne (x : Place) (label : String) : (x.scratch label).names ≠ x.names := by
  intro h
  have hf := congrArg (fun s => s.toList.length) (names_inj h).2.2.2.2
  simp [scratch] at hf

theorem dropLast_names (x : Place) :
    x.names.dropLast = x.group :: x.kind :: (Path.ofText x.image ++ [x.folder]) := by
  have h : x.names = (x.group :: x.kind :: (Path.ofText x.image ++ [x.folder])) ++ [x.file] := by
    simp [names]
  rw [h, List.dropLast_concat]

theorem dropLast_scratch (x : Place) (label : String) :
    (x.scratch label).names.dropLast = x.names.dropLast := by
  rw [dropLast_names, dropLast_names]
  rfl

end Place

/-! ## Paths of places -/

namespace Store

variable (s : Store)

/-- The location of the folder of all groups. -/
def root : Location := location s.groupsFolder

def pathOf (x : Place) : Path := s.groupsFolder ++ x.names

/-- The location of a place, on every disk. -/
def locationOf (x : Place) : Location := s.root ++ x.names

theorem location_pathOf {x : Place} (h : x.IsPlain) : location (s.pathOf x) = s.locationOf x :=
  Path.location_append_plain _ h

theorem getLast?_groupsFolder : s.groupsFolder.getLast? = some "groups" := by
  have h : Path.ofText "groups" = ["groups"] := Path.ofText_of_slash_not_mem (by decide)
  rw [groupsFolder, Path.join, if_neg (by decide), h, List.getLast?_concat]

/-- The path of a file, joined name by name. -/
theorem join_names {group kind image folder file : String} (hg : Name.isGroup group = true)
    (hi : Name.isImage image = true) (hk : '/' ∉ kind.toList) (hke : kind ≠ "")
    (hd : '/' ∉ folder.toList) (hde : folder ≠ "") (hf : '/' ∉ file.toList) :
    ((((s.groupsFolder.join group).join kind).join image).join folder).join file =
      s.groupsFolder ++ group :: kind :: (Path.ofText image ++ [folder, file]) := by
  have hge := (Name.isPlain_of_isGroup hg).1
  have hib := Path.ofText_getLast?_ne (Name.isPlain_of_isImage hi)
  rw [Path.join_name (Name.slash_not_mem_of_isGroup hg) (by rw [getLast?_groupsFolder]; simp),
    Path.join_name hk (by simpa using hge),
    Path.join_of_ne (Name.head?_of_isImage hi) (by simpa using hke), Path.join_name hd,
    Path.join_name hf]
  · simp
  · rw [List.getLast?_concat]
    simpa using hde
  · rw [List.getLast?_append]
    cases h : (Path.ofText image).getLast? with
    | none => exact absurd (List.getLast?_eq_none_iff.1 h) (Path.ofText_ne_nil image)
    | some last => rw [h] at hib; exact hib

theorem recordPath_eq {group image tag : String} (hg : Name.isGroup group = true)
    (hi : Name.isImage image = true) (ht : Name.checkTag tag = .ok ()) :
    s.recordPath group image tag = s.pathOf (.record group image tag) := by
  refine s.join_names hg hi (by decide) (by decide) (by decide) (by decide) ?_
  rw [String.toList_append, List.mem_append, not_or]
  exact ⟨Name.slash_not_mem_tagName ht, by decide⟩

theorem payloadPath_eq {group image : String} (hg : Name.isGroup group = true)
    (hi : Name.isImage image = true) (digest : Digest) :
    s.payloadPath group image digest = s.pathOf (.payload group image digest) :=
  s.join_names hg hi (by decide) (by decide) (by decide) (by decide)
    (Digest.not_mem_hex '/' digest (by decide))

theorem blobPath_eq {group image : String} (hg : Name.isGroup group = true)
    (hi : Name.isImage image = true) (digest : Digest) :
    s.blobPath group image digest = s.pathOf (.blob group image digest) :=
  s.join_names hg hi (by decide) (by decide) (by decide) (by decide)
    (Digest.not_mem_hex '/' digest (by decide))

/-- Below the folder of all groups there is room for the longest names that a record can have. -/
structure HasRoom : Prop where
  clear : ∀ part ∈ s.groupsFolder, '\x00' ∉ part.toList
  size : Disk.pathSize s.groupsFolder + 661 ≤ Disk.maxPath + 1

variable {s} in
/-- Then the paths of all records can be followed. -/
theorem HasRoom.checkPath_recordPath (h : s.HasRoom) {group image tag : String}
    (hg : Name.isGroup group = true) (hi : Name.isImage image = true)
    (ht : Name.checkTag tag = .ok ()) : Disk.checkPath (s.recordPath group image tag) = .ok () := by
  rw [s.recordPath_eq hg hi ht]
  refine Disk.checkPath_of_size (fun part hp => ?_) ?_
  · simp only [pathOf, Place.names, List.mem_append, List.mem_cons, List.not_mem_nil,
      or_false] at hp
    rcases hp with hp | rfl | rfl | hp | rfl | rfl
    · exact h.clear part hp
    · exact Name.not_mem_of_isGroup hg (by decide)
    · exact (by decide : '\x00' ∉ "manifests".toList)
    · exact Name.not_mem_of_isImage hi (by decide) part hp
    · exact (by decide : '\x00' ∉ "tags".toList)
    · show '\x00' ∉ (tagName tag ++ ".json").toList
      rw [String.toList_append, List.mem_append, not_or]
      exact ⟨Name.not_mem_tagName ht (by decide) (by decide) (by decide), by decide⟩
  · have hgroup := Name.size_of_isGroup hg
    have himage := Name.size_of_isImage hi
    have htag := Name.size_tagName ht
    have hparts := Path.pathSize_ofText image
    have hfile : (tagName tag ++ ".json").utf8ByteSize = (tagName tag).utf8ByteSize + 5 :=
      String.utf8ByteSize_append
    have hkind : "manifests".utf8ByteSize = 9 := rfl
    have hfolder : "tags".utf8ByteSize = 4 := rfl
    have hsize := h.size
    rw [pathOf, Place.names, Disk.pathSize_append]
    simp only [Disk.pathSize, Disk.pathSize_append, Place.record]
    omega

theorem pathOf_eq (x : Place) :
    s.pathOf x = s.groupsFolder ++ x.group :: x.kind :: Path.ofText x.image ++
      [x.folder, x.file] := by
  simp [pathOf, Place.names]

/-- The folder of a place. -/
theorem parent_pathOf {x : Place} (h : x.IsPlain) :
    Path.parent (s.pathOf x) = s.groupsFolder ++ x.names.dropLast := by
  rw [pathOf_eq, Path.parent_append (h _ (by simp [Place.names])) (h _ (by simp [Place.names])),
    Place.dropLast_names]
  simp

theorem lastPart_pathOf (x : Place) : Path.lastPart (s.pathOf x) = x.file := by
  have h : s.pathOf x =
      s.groupsFolder ++ x.group :: x.kind :: (Path.ofText x.image ++ [x.folder]) ++ [x.file] := by
    simp [pathOf, Place.names]
  rw [h, Path.lastPart, List.getLastD_concat]

theorem not_mem_digits {c : Char} (h : c.isDigit = false) (n : Nat) : c ∉ (toString n).toList := by
  intro hc
  rw [Nat.toString_eq_ofList_toDigits, String.toList_ofList] at hc
  have hdigit := Nat.isDigit_of_mem_toDigits (by decide) (by decide) hc
  rw [h] at hdigit
  cases hdigit

/-- The label of a scratch file is made of digits and a dash. -/
theorem not_mem_scratchLabel {c : Char} (h : c.isDigit = false) (hdash : c ≠ '-') (n : Nat) :
    c ∉ (s.scratchLabel n).toList := by
  rw [scratchLabel, String.toList_append, String.toList_append, List.mem_append, List.mem_append,
    not_or, not_or]
  refine ⟨⟨not_mem_digits h _, fun hc => hdash ?_⟩, not_mem_digits h _⟩
  exact List.mem_singleton.1 hc

/-- A scratch file lies beside its target. -/
theorem scratchBeside_pathOf {x : Place} (h : x.IsPlain) (label : String) :
    scratchBeside (s.pathOf x) label = s.pathOf (x.scratch label) := by
  have hn : (x.scratch label).names =
      (x.scratch label).names.dropLast ++ [(x.scratch label).file] := by
    rw [Place.dropLast_names]
    simp [Place.names]
  rw [scratchBeside, parent_pathOf s h, lastPart_pathOf, pathOf, hn, Place.dropLast_scratch,
    List.append_assoc]
  rfl

end Store

end PullThrough
