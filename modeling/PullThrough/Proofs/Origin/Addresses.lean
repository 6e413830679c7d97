import PullThrough.Proofs.Name.Chars
import PullThrough.Proofs.Origin.Calls
import PullThrough.Proofs.Text.Marks
/-
  The addresses that the origin is asked at.

  An address is read by a library. What is relied on are the rules of the URL Standard for the
  characters of a path (`AddressReader.IsStandard`): a character that names may have goes on a
  segment as it is, and a slash, or the end of the text, ends a segment that is no dots.
  Behind a base that is read up to its path, tame parts are then read as they are, each as a
  segment, and nothing is read as a query or as a fragment
  (`AddressReader.IsStandard.parse?_text`). So the addresses of manifests and of blobs are
  read as the base's own path and behind it the origin's repository.
-/
namespace PullThrough

open PullThrough.Path (IsTame IsFree)

/-! ## Reading addresses -/

/-- An address as far as it says what a server is asked for. -/
structure Address where
  segments : List String
  query : Option String := none
  fragment : Option String := none
  deriving DecidableEq

/-- A reader of addresses, by what each character of a text does to its state. -/
structure AddressReader where
  State : Type
  start : State
  read : State → Char → State
  /-- As long as the path of the address is read: its segments, and the one under way. -/
  path? : State → Option (List String × String)
  /-- The address, if the text ends here. -/
  address? : State → Option Address

namespace AddressReader

def readAll (r : AddressReader) (state : r.State) (s : String) : r.State :=
  s.toList.foldl r.read state

def parse? (r : AddressReader) (s : String) : Option Address := r.address? (r.readAll r.start s)

/-- The reader goes by the URL Standard when it reads the characters of a path that are not special
there, and ends segments of such characters. -/
structure IsStandard (r : AddressReader) : Prop where
  char : ∀ state done part c, r.path? state = some (done, part) → isNameChar c = true →
    r.path? (r.read state c) = some (done, part.push c)
  slash : ∀ state done part, r.path? state = some (done, part) → IsTame part →
    r.path? (r.read state '/') = some (done ++ [part], "")
  stop : ∀ state done part, r.path? state = some (done, part) → IsTame part →
    r.address? state = some { segments := done ++ [part] }

/-- A base whose text, with a slash behind it, is read up to a new segment of its path. -/
def IsBase (r : AddressReader) (base : String) (before : List String) : Prop :=
  r.path? (r.readAll r.start (base ++ "/")) = some (before, "")

variable {r : AddressReader} {state : r.State} {done before : List String}
  {part base : String} {p : Path}

theorem readAll_append (r : AddressReader) (state : r.State) (s t : String) :
    r.readAll state (s ++ t) = r.readAll (r.readAll state s) t := by
  rw [readAll, String.toList_append, List.foldl_append]
  rfl

theorem readAll_push (r : AddressReader) (state : r.State) (s : String) (c : Char) :
    r.readAll state (s.push c) = r.read (r.readAll state s) c := by
  rw [readAll, String.toList_push, List.foldl_append]
  rfl

namespace IsStandard

/-- Characters of names go on the segment under way. -/
theorem path?_chars (h : r.IsStandard) {s : List Char} (hs : ∀ c ∈ s, isNameChar c = true)
    (hpath : r.path? state = some (done, part)) :
    r.path? (s.foldl r.read state) = some (done, part ++ String.ofList s) := by
  induction s generalizing state part with
  | nil => simpa using hpath
  | cons c s ih =>
    have hone := h.char state done part c hpath (hs c (by simp))
    rw [List.foldl_cons, ih (fun c' hc => hs c' (by simp [hc])) hone]
    congr 2
    apply String.toList_inj.1
    simp

/-- A tame part is read as it is. -/
theorem path?_part (h : r.IsStandard) (hpart : IsTame part)
    (hpath : r.path? state = some (done, "")) :
    r.path? (r.readAll state part) = some (done, part) := by
  rw [readAll, h.path?_chars (List.all_eq_true.1 hpart.chars) hpath]
  simp

/-- Tame parts with slashes between them are read as the next segments, and the last ones. -/
theorem address?_text (h : r.IsStandard) (hp : ∀ part ∈ p, IsTame part) (hne : p ≠ [])
    (hpath : r.path? state = some (done, "")) :
    r.address? (r.readAll state p.text) = some { segments := done ++ p } := by
  induction p generalizing state done with
  | nil => exact absurd rfl hne
  | cons part p ih =>
    have hpart := hp part (by simp)
    have hread := h.path?_part hpart hpath
    cases p with
    | nil =>
      rw [Path.text_singleton]
      exact h.stop _ _ _ hread hpart
    | cons next p =>
      have htext : Path.text (part :: next :: p) = part.push '/' ++ Path.text (next :: p) := by
        apply String.toList_inj.1
        rw [Path.text_cons part (List.cons_ne_nil _ _)]
        simp
      rw [htext, readAll_append, readAll_push]
      have hslash := h.slash _ _ _ hread hpart
      rw [ih (fun part' hpart' => hp part' (by simp [hpart'])) (List.cons_ne_nil _ _) hslash]
      simp

/-- Behind a base, tame parts are read as segments behind its own, and as nothing else. -/
theorem parse?_text (h : r.IsStandard) (hbase : r.IsBase base before) (hp : ∀ part ∈ p, IsTame part)
    (hne : p ≠ []) : r.parse? (base ++ ("/" ++ p.text)) = some { segments := before ++ p } := by
  rw [parse?, ← String.append_assoc, readAll_append]
  exact h.address?_text hp hne hbase

end IsStandard

end AddressReader

/-! ## What the origin is asked at -/

/-- A request goes to an address, with no parameters of its own. -/
def Step.SendsTo (url : String) (step : Step) : Prop :=
  ∃ r : OriginRequest, step = .send r ∧ r.url = url ∧ r.parameters = []

namespace OriginClient

variable {c : OriginClient} {image tag : String} {digest : Digest}

theorem IsCall.only {x : Attempt α} {call : Call} {r : OriginRequest} {g : Reply → Except Failure α}
    {P : Step → Prop} (h : c.IsCall x call r g) (hP : P (.send r)) : x.run.Only P := by
  rw [h.run_eq]
  split
  · exact ⟨hP, fun _ => trivial⟩
  · trivial

/-- The parts of a path behind the base of the origin: those of a repository, and a name in it. -/
def partsOf (image kind name : String) : Path :=
  "v2" :: (Path.ofText (Name.repository image) ++ [kind, name])

theorem text_partsOf (image kind name : String) :
    "/v2/" ++ Name.repository image ++ "/" ++ kind ++ "/" ++ name =
      "/" ++ Path.text (partsOf image kind name) := by
  have hparts : (Path.text (partsOf image kind name)).toList =
      "v2".toList ++ '/' :: ((Name.repository image).toList ++ '/' ::
        (kind.toList ++ '/' :: name.toList)) := by
    rw [partsOf, Path.text_cons _ (by simp),
      Path.text_append (Path.ofText_ne_nil _) (List.cons_ne_nil _ _), Path.text_ofText,
      Path.text_cons kind (List.cons_ne_nil _ _), Path.text_singleton]
  apply String.toList_inj.1
  simp [hparts]

theorem isTame_partsOf {kind name : String} (hi : Name.checkImage image = .ok ())
    (hkind : IsTame kind) (hname : IsTame name) :
    ∀ part ∈ partsOf image kind name, IsTame part := by
  intro part hpart
  simp only [partsOf, List.mem_cons, List.mem_append, List.not_mem_nil, or_false] at hpart
  rcases hpart with rfl | hpart | rfl | rfl
  · decide
  · exact Name.isTame_of_repository (Name.isImage_of_check hi) part hpart
  · exact hkind
  · exact hname

/-- An address is that of a name in the repository of an image: it is the base and a path behind it,
the parts of the path are no dots and not empty and have no marks of addresses, and where the base
is read up to its path, the address is read as the base's own segments and these parts. -/
structure IsIn (c : OriginClient) (image kind name url : String) : Prop where
  text : url = c.registryUrl ++ ("/v2/" ++ Name.repository image ++ "/" ++ kind ++ "/" ++ name)
  parts : "/v2/" ++ Name.repository image ++ "/" ++ kind ++ "/" ++ name =
    "/" ++ Path.text (partsOf image kind name)
  free : ∀ part ∈ partsOf image kind name, IsFree ['/', '\\', '?', '#', '%'] part
  read : ∀ (r : AddressReader) (before : List String), r.IsStandard →
    r.IsBase c.registryUrl before →
    r.parse? url = some { segments := before ++ partsOf image kind name }

theorem isIn_of_text {kind name url : String}
    (htext : url = c.registryUrl ++ ("/v2/" ++ Name.repository image ++ "/" ++ kind ++ "/" ++ name))
    (htame : ∀ part ∈ partsOf image kind name, IsTame part) : c.IsIn image kind name url where
  text := htext
  parts := text_partsOf image kind name
  free := fun part hpart => (htame part hpart).isFree (by decide)
  read r before hr hbase := by
    rw [htext, text_partsOf]
    exact hr.parse?_text hbase htame (List.cons_ne_nil _ _)

theorem manifestUrl_isIn (c : OriginClient) (hi : Name.checkImage image = .ok ())
    (ht : Name.checkTag tag = .ok ()) :
    c.IsIn image "manifests" tag (c.manifestUrl image tag) := by
  refine isIn_of_text ?_ (isTame_partsOf hi (by decide) (Name.isTame_of_checkTag ht))
  apply String.toList_inj.1
  simp [manifestUrl]

theorem blobUrl_isIn (c : OriginClient) (hi : Name.checkImage image = .ok ()) (digest : Digest) :
    c.IsIn image "blobs" digest.text (c.blobUrl image digest) := by
  refine isIn_of_text ?_ (isTame_partsOf hi (by decide) digest.isTame_text)
  apply String.toList_inj.1
  simp [blobUrl]

theorem headManifest_sendsTo (c : OriginClient) (image tag token : String) :
    (c.headManifest image tag token).run.Only (Step.SendsTo (c.manifestUrl image tag)) :=
  (c.headManifest_isCall image tag token).only ⟨_, rfl, rfl, rfl⟩

theorem fetchManifest_sendsTo (c : OriginClient) (image tag token : String) :
    (c.fetchManifest image tag token).run.Only (Step.SendsTo (c.manifestUrl image tag)) :=
  (c.fetchManifest_isCall image tag token).only ⟨_, rfl, rfl, rfl⟩

theorem fetchBlob_sendsTo (c : OriginClient) (image : String) (digest : Digest) (token : String) :
    (c.fetchBlob image digest token).run.Only (Step.SendsTo (c.blobUrl image digest)) :=
  (c.fetchBlob_isCall image digest token).only ⟨_, rfl, rfl, rfl⟩

end OriginClient

end PullThrough
