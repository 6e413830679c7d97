import PullThrough.Proofs.Origin.Addresses
import PullThrough.Proofs.Store.Confinement
/-
  How far names reach.

  A group, an image, a tag and a digest that passed the checks reach into the folder of
  the group in the cache and into the repository of the image at the origin, and no
  further, whatever the disk holds (`names_confined`). At the origin this depends on how
  addresses are read; `AddressReader.web` is a reader that goes by the standard, for
  addresses whose paths need no encoding.
-/
namespace PullThrough

open PullThrough.Path (IsTame)

/-! ## A reader of addresses -/

/-- How far an address was read: up to some slash in front of its path, into its path, or up to what
no path has without being encoded. -/
inductive WebState where
  | authority (slashes : Nat)
  | path (done : List String) (part : String)
  | other
  deriving DecidableEq

namespace WebState

/-- The characters of a segment, its encoded points as points. -/
def pointed : List Char → List Char
  | [] => []
  | '%' :: '2' :: 'e' :: rest => '.' :: pointed rest
  | '%' :: '2' :: 'E' :: rest => '.' :: pointed rest
  | c :: rest => c :: pointed rest

/-- The segments of a path with one more, which may be dots. -/
def close (done : List String) (part : String) : List String :=
  if pointed part.toList = ['.'] then done
  else if pointed part.toList = ['.', '.'] then done.dropLast
  else done ++ [part]

def read : WebState → Char → WebState
  | authority slashes, c =>
    if c = '/' then if slashes = 2 then path [] "" else authority (slashes + 1)
    else if c ∈ ['?', '#', '\\'] then other
    else authority slashes
  | path done part, c =>
    if c = '/' then path (close done part) ""
    else if isNameChar c ∨ c = '%' then path done (part.push c)
    else other
  | other, _ => other

def path? : WebState → Option (List String × String)
  | path done part => some (done, part)
  | _ => none

/-- A path that ends in dots ends in an empty segment. -/
def address? : WebState → Option Address
  | path done part =>
    if close done part = done ++ [part] then some { segments := done ++ [part] }
    else some { segments := close done part ++ [""] }
  | _ => none

theorem pointed_of_not_mem {s : List Char} (h : '%' ∉ s) : pointed s = s := by
  induction s with
  | nil => rfl
  | cons c s ih =>
    simp only [List.mem_cons, not_or] at h
    rw [pointed, ih h.2]
    · rintro rest rfl
      exact absurd rfl h.1
    · rintro rest rfl
      exact absurd rfl h.1

theorem close_of_isTame {part : String} (h : IsTame part) (done : List String) :
    close done part = done ++ [part] := by
  have hpoints := pointed_of_not_mem ((h.isFree (by decide : ['%'].any isNameChar = false)).clear
    '%' (by simp))
  have hone : part.toList ≠ ['.'] := fun he => h.isPlain.2.1 (String.toList_inj.1 he)
  have htwo : part.toList ≠ ['.', '.'] := fun he => h.isPlain.2.2 (String.toList_inj.1 he)
  rw [close, hpoints, if_neg hone, if_neg htwo]

end WebState

/-- A reader of addresses with a host and a path that needs no encoding. -/
def AddressReader.web : AddressReader where
  State := WebState
  start := .authority 0
  read := WebState.read
  path? := WebState.path?
  address? := WebState.address?

theorem AddressReader.web_isStandard : AddressReader.web.IsStandard where
  char := by
    rintro (slashes | ⟨done, part⟩ | -) _ _ c hpath hc
    · cases hpath
    · cases hpath
      have hslash : c ≠ '/' := by
        rintro rfl
        cases hc
      show (WebState.read (.path done part) c).path? = some (done, part.push c)
      rw [WebState.read, if_neg hslash, if_pos (.inl hc)]
      rfl
    · cases hpath
  slash := by
    rintro (slashes | ⟨done, part⟩ | -) _ _ hpath hpart
    · cases hpath
    · cases hpath
      show (WebState.read (.path done part) '/').path? = some (done ++ [part], "")
      rw [WebState.read, if_pos rfl, WebState.close_of_isTame hpart]
      rfl
    · cases hpath
  stop := by
    rintro (slashes | ⟨done, part⟩ | -) _ _ hpath hpart
    · cases hpath
    · cases hpath
      show (WebState.path done part).address? = some { segments := done ++ [part] }
      rw [WebState.address?, if_pos (WebState.close_of_isTame hpart done)]
    · cases hpath

/-! ## Confinement -/

/-- All that a store looks at or writes to for a name stays in the folder of the group: the
paths of the files, those of the scratch files beside them, and what reading and writing ask a
disk for. Such paths lead into that folder on every disk, and jobs that ask for no others leave
alone what is not in it. -/
structure Store.Confines (s : Store) (group image tag : String) (digest : Digest) : Prop where
  record : s.IsWithin group "manifests" (s.recordPath group image tag)
  payload : s.IsWithin group "manifests" (s.payloadPath group image digest)
  blob : s.IsWithin group "blobs" (s.blobPath group image digest)
  besideRecord : ∀ n,
    s.IsWithin group "manifests" (scratchBeside (s.recordPath group image tag) (s.scratchLabel n))
  besidePayload : ∀ n,
    s.IsWithin group "manifests"
      (scratchBeside (s.payloadPath group image digest) (s.scratchLabel n))
  besideBlob : ∀ n,
    s.IsWithin group "blobs" (scratchBeside (s.blobPath group image digest) (s.scratchLabel n))
  readManifest : (s.readManifest group image tag).run.Only (s.ReachesWithin group "manifests")
  writeManifest : ∀ contentType data,
    (s.writeManifest group image tag digest contentType data).run.Only
      (s.ReachesWithin group "manifests")
  findBlob : (s.blob group image digest).run.Only (s.ReachesWithin group "blobs")
  writeBlob : ∀ stream,
    (s.writeBlobStream group image digest stream).run.Only (s.ReachesWithin group "blobs")
  leads : ∀ kind p (d : Disk) l, s.IsWithin group kind p → d.locate p = .ok l →
    ∃ names, names ≠ [] ∧ l = s.root ++ group :: kind :: names
  outside : ∀ (α : Type) (j : Job α) kind, j.Only (s.ReachesWithin group kind) →
    ∀ l, ¬ s.root ++ [group] <+: l → ∀ w, Disk.StaysBut l w.disk (j.run w).2.disk

/-- All that an origin is asked for about a name is in the repository of the image. -/
structure OriginClient.Confines (c : OriginClient) (image tag : String)
    (digest : Digest) : Prop where
  manifest : c.IsIn image "manifests" tag (c.manifestUrl image tag)
  blob : c.IsIn image "blobs" digest.text (c.blobUrl image digest)
  headManifest : ∀ token,
    (c.headManifest image tag token).run.Only (Step.SendsTo (c.manifestUrl image tag))
  fetchManifest : ∀ token,
    (c.fetchManifest image tag token).run.Only (Step.SendsTo (c.manifestUrl image tag))
  fetchBlob : ∀ token,
    (c.fetchBlob image digest token).run.Only (Step.SendsTo (c.blobUrl image digest))

/-- Checked names reach neither out of the folder of their group nor out of the repository of their
image. -/
theorem names_confined {group image tag : String} (hg : Name.checkGroup group = .ok ())
    (hi : Name.checkImage image = .ok ()) (ht : Name.checkTag tag = .ok ()) (digest : Digest) :
    (∀ s : Store, s.Confines group image tag digest) ∧
      ∀ c : OriginClient, c.Confines image tag digest := by
  have hrecord : (FileKey.record group image tag).IsValid := ⟨hg, hi, ht⟩
  have hpayload : (FileKey.payload group image digest).IsValid := ⟨hg, hi⟩
  have hblob : (FileKey.blob group image digest).IsValid := ⟨hg, hi⟩
  refine ⟨fun s => ?_, fun c => ?_⟩
  · exact {
      record := hrecord.isWithin s
      payload := hpayload.isWithin s
      blob := hblob.isWithin s
      besideRecord := hrecord.isWithin_beside s
      besidePayload := hpayload.isWithin_beside s
      besideBlob := hblob.isWithin_beside s
      readManifest := s.readManifest_reachesWithin hg hi ht
      writeManifest := s.writeManifest_reachesWithin hg hi ht digest
      findBlob := s.blob_reachesWithin hg hi digest
      writeBlob := s.writeBlobStream_reachesWithin hg hi digest
      leads := fun _ _ _ _ hp hl => hp.locate hl
      outside := fun _ _ _ hj _ hl w => hj.leaves_outside hl w }
  · exact {
      manifest := c.manifestUrl_isIn hi ht
      blob := c.blobUrl_isIn hi digest
      headManifest := c.headManifest_sendsTo image tag
      fetchManifest := c.fetchManifest_sendsTo image tag
      fetchBlob := c.fetchBlob_sendsTo image digest }

/-- An official image at a registry behind a prefix, and a tag that is a digest. -/
theorem names_confined_of_digest :
    let c : OriginClient := ⟨"https://registry.example/mirror", "", "", 1, none⟩
    let s : Store := { base := ["", "var", "cache"] }
    let digest := Digest.of []
    Name.checkGroup "..team" = .ok () ∧ Name.checkImage "alpine" = .ok () ∧
      Name.checkTag digest.text = .ok () ∧
      s.recordPath "..team" "alpine" digest.text =
        ["", "var", "cache", "groups", "..team", "manifests",
        "alpine", "tags",
        "sha256_e3b0c44298fc1c149afbf4c8996fb92427ae41e4649b934ca495991b7852b855.json"] ∧
      s.Confines "..team" "alpine" digest.text digest ∧
      AddressReader.web.IsBase c.registryUrl ["mirror"] ∧
      AddressReader.web.parse? (c.manifestUrl "alpine" digest.text) = some {
        segments := ["mirror", "v2", "library", "alpine", "manifests",
          "sha256:e3b0c44298fc1c149afbf4c8996fb92427ae41e4649b934ca495991b7852b855"] } := by
  intro c s digest
  have hg : Name.checkGroup "..team" = .ok () := by decide
  have hi : Name.checkImage "alpine" = .ok () := by decide
  have ht : Name.checkTag digest.text = .ok () := by decide +kernel
  have hbase : AddressReader.web.IsBase c.registryUrl ["mirror"] := by
    unfold AddressReader.IsBase
    decide +kernel
  obtain ⟨hstore, horigin⟩ := names_confined hg hi ht digest
  refine ⟨hg, hi, ht, by decide +kernel, hstore s, hbase, ?_⟩
  rw [(horigin c).manifest.read _ _ AddressReader.web_isStandard hbase]
  decide +kernel

end PullThrough
