import PullThrough.Http.Route
import PullThrough.Proofs.Name.Parts
import PullThrough.Proofs.Text.Marks
/-
  Which request a path stands for.

  A client writes the names of a request into a path with a mark between image and resource, and the
  path is cut at the last mark again. Marks of manifests are sought before those of blobs, so an
  image with a part `manifests` has its manifests, but not its blobs: there the mark found is the
  one inside the image (`PullRequest.ofPath_path_iff`). Parts `blobs` do no harm.
-/
namespace PullThrough

namespace Name

theorem slash_not_mem_of_checkTag {tag : String} (h : checkTag tag = .ok ()) :
    '/' ∉ tag.toList := by
  rcases checkTag_ok_iff.1 h with ⟨d, rfl⟩ | hp
  · rw [text_toList, List.mem_append, not_or]
    exact ⟨by decide, Digest.not_mem_hex '/' d (by decide)⟩
  · simp only [isPlainTag, Bool.and_eq_true] at hp
    exact not_mem_of_all hp.2 (by decide)

end Name

/-! ## Paths of requests -/

namespace Resource

/-- The part of a path before the name of a resource. -/
def kind : Resource → String
  | manifest _ => "manifests"
  | blob _ => "blobs"

def name : Resource → String
  | manifest tag => tag
  | blob digest => digest

theorem slash_not_mem_kind : ∀ resource : Resource, '/' ∉ resource.kind.toList
  | manifest _ => (by decide : '/' ∉ "manifests".toList)
  | blob _ => (by decide : '/' ∉ "blobs".toList)

end Resource

namespace PullRequest

open PullThrough.Path (IsParted ofText text text_singleton)

/-- The path by which a client asks for a resource. -/
def path (r : PullRequest) : List Char :=
  ("/v2/" ++ r.group ++ "/" ++ r.image ++ "/" ++ r.resource.kind ++ "/" ++ r.resource.name).toList

/-- The names of a request pass their checks, and a blob is asked for by a digest. -/
def IsNamed (r : PullRequest) : Prop :=
  Name.checkGroup r.group = .ok () ∧ Name.checkImage r.image = .ok () ∧
    match r.resource with
    | .manifest tag => Name.checkTag tag = .ok ()
    | .blob digest => ∃ d : Digest, digest = d.text

/-- The answer to a path that stands for no request. -/
def noRequest (path : List Char) : Rejection :=
  .badRequest "NAME_INVALID" ("invalid registry path: " ++ String.ofList path)

theorem manifestMark_eq : manifestMark = Path.between "manifests" := by decide

theorem blobMark_eq : blobMark = Path.between "blobs" := by decide

/-- The parts of a path below the root. -/
def parts (r : PullRequest) : Path :=
  r.group :: ofText r.image ++ [r.resource.kind, r.resource.name]

theorem path_eq (r : PullRequest) : r.path = Route.registryRoot ++ (text r.parts).toList := by
  have hroot : Route.registryRoot = "/v2/".toList := rfl
  rw [parts, Path.text_append (List.cons_ne_nil _ _) (List.cons_ne_nil _ _),
    Path.text_cons _ (Path.ofText_ne_nil _), Path.text_cons _ (List.cons_ne_nil _ _),
    Path.text_ofText, text_singleton, hroot, path]
  simp

/-! ## Cutting -/

/-- A path is cut at the last mark of manifests that stands between two of its parts. -/
theorem cutResource?_manifest {front back : Path} (hf : front ≠ []) (hb : back ≠ [])
    (hback : back.IsParted) (hlast : "manifests" ∉ back.dropLast) :
    cutResource? (text (front ++ "manifests" :: back)).toList =
      some ((text front).toList, .manifest (text back)) := by
  rw [cutResource?, manifestMark_eq, Path.cutLast?_text hf hb hback (by decide) hlast]
  simp

/-- Where there is none, the last mark of blobs counts. -/
theorem cutResource?_blob {front back : Path} (hf : front ≠ []) (hb : back ≠ [])
    (hparts : (front ++ "blobs" :: back).IsParted) (hlast : "blobs" ∉ back.dropLast)
    (hnone : "manifests" ∉ (front ++ "blobs" :: back).tail.dropLast) :
    cutResource? (text (front ++ "blobs" :: back)).toList =
      some ((text front).toList, .blob (text back)) := by
  have hback : back.IsParted := hparts.subset (by simp)
  rw [cutResource?, manifestMark_eq, blobMark_eq,
    Path.cutLast?_text_eq_none hparts (by simp) (by decide) hnone]
  dsimp only
  rw [Path.cutLast?_text hf hb hback (by decide) hlast]
  simp

/-- The group before the first slash of what stands before the mark, if there is a slash. -/
theorem ofPath_of_cut {group : String} {front : Path} {resource : Resource} {path rest : List Char}
    (hg : '/' ∉ group.toList) (hpath : path = Route.registryRoot ++ rest)
    (hcut : cutResource? rest = some ((text (group :: front)).toList, resource))
    (authorization : Option String) :
    ofPath path authorization =
      if front = [] then .error (noRequest path)
      else .ok ⟨group, text front, resource, authorization⟩ := by
  unfold ofPath
  rw [hpath, Text.isPrefixOf?_append, Option.bind_eq_bind, Option.bind_some, hcut,
    Option.bind_eq_bind, Option.bind_some]
  dsimp only
  by_cases hfront : front = []
  · subst hfront
    have hnone : Text.cutFirst? '/' (text [group]).toList = none := by
      rw [text_singleton]
      cases hcut' : Text.cutFirst? '/' group.toList with
      | none => rfl
      | some cut =>
        have heq := (Text.cutFirst?_eq_some hcut').1
        exact absurd (by rw [heq]; simp) hg
    rw [hnone, if_pos rfl]
    rfl
  · rw [Path.text_cons group hfront, Text.cutFirst?_append hg, if_neg hfront]
    simp

/-! ## What is read -/

variable {r : PullRequest} {tag digest : String} {front back : Path}

theorem IsNamed.isParted (hr : r.IsNamed) : r.parts.IsParted := by
  obtain ⟨hgroup, himage, hname⟩ := hr
  have hlast : '/' ∉ r.resource.name.toList := by
    cases hresource : r.resource with
    | manifest tag =>
      rw [hresource] at hname
      exact Name.slash_not_mem_of_checkTag hname
    | blob digest =>
      rw [hresource] at hname
      obtain ⟨d, rfl⟩ := hname
      exact Name.slash_not_mem_of_checkTag (Name.checkTag_text d)
  intro part hpart
  simp only [parts, List.cons_append, List.mem_cons, List.mem_append, List.not_mem_nil,
    or_false] at hpart
  rcases hpart with rfl | hpart | rfl | rfl
  · exact Name.slash_not_mem_of_isGroup (Name.isGroup_of_check hgroup)
  · exact Name.not_mem_of_isImage (Name.isImage_of_check himage) (by decide) part hpart
  · exact r.resource.slash_not_mem_kind
  · exact hlast

theorem IsNamed.slash_not_mem_group (hr : r.IsNamed) : '/' ∉ r.group.toList :=
  hr.isParted _ (List.mem_cons_self ..)

theorem ofPath_path_of_manifest (hr : r.IsNamed) (hresource : r.resource = .manifest tag) :
    ofPath r.path r.authorization = .ok r := by
  have hparts : r.parts = r.group :: ofText r.image ++ "manifests" :: [tag] := by
    rw [parts, hresource]
    rfl
  have hback : IsParted [tag] := hr.isParted.subset (by simp [hparts])
  have hcut := cutResource?_manifest (List.cons_ne_nil r.group (ofText r.image))
    (List.cons_ne_nil tag []) hback (by simp)
  rw [← hparts] at hcut
  rw [ofPath_of_cut hr.slash_not_mem_group r.path_eq hcut, if_neg (Path.ofText_ne_nil _),
    Path.text_ofText, text_singleton, ← hresource]

theorem ofPath_path_of_blob (hr : r.IsNamed) (hresource : r.resource = .blob digest)
    (himage : "manifests" ∉ ofText r.image) : ofPath r.path r.authorization = .ok r := by
  have hparts : r.parts = r.group :: ofText r.image ++ "blobs" :: [digest] := by
    rw [parts, hresource]
    rfl
  have hnone : "manifests" ∉ (r.group :: ofText r.image ++ "blobs" :: [digest]).tail.dropLast := by
    rw [List.cons_append, List.tail_cons, List.dropLast_append_cons]
    simpa using himage
  have hcut := cutResource?_blob (List.cons_ne_nil r.group (ofText r.image))
    (List.cons_ne_nil digest []) (hparts ▸ hr.isParted) (by simp) hnone
  rw [← hparts] at hcut
  rw [ofPath_of_cut hr.slash_not_mem_group r.path_eq hcut, if_neg (Path.ofText_ne_nil _),
    Path.text_ofText, text_singleton, ← hresource]

/-- A blob of an image with a part `manifests` is taken for a manifest of the
image before that part. -/
theorem ofPath_path_of_misread (hr : r.IsNamed) (hresource : r.resource = .blob digest)
    (himage : ofText r.image = front ++ "manifests" :: back) (hback : "manifests" ∉ back) :
    ofPath r.path r.authorization =
      if front = [] then .error (noRequest r.path)
      else .ok ⟨r.group, text front, .manifest (text (back ++ ["blobs", digest])),
        r.authorization⟩ := by
  have hparts : r.parts = r.group :: front ++ "manifests" :: (back ++ ["blobs", digest]) := by
    rw [parts, hresource, himage]
    simp [Resource.kind, Resource.name]
  have hrest : IsParted (back ++ ["blobs", digest]) := by
    refine hr.isParted.subset fun part hpart => ?_
    rw [hparts]
    exact List.mem_append_right _ (List.mem_cons_of_mem _ hpart)
  have hlast : "manifests" ∉ (back ++ ["blobs", digest]).dropLast := by
    rw [List.dropLast_append_cons]
    simpa using hback
  have hcut := cutResource?_manifest (List.cons_ne_nil r.group front) (by simp) hrest hlast
  rw [← hparts] at hcut
  exact ofPath_of_cut hr.slash_not_mem_group r.path_eq hcut _

/-- A row of parts that ends in the mark of blobs and a digest is no tag. -/
theorem checkTag_of_parts (back : Path) (digest : String) :
    Name.checkTag (text (back ++ ["blobs", digest])) ≠ .ok () := by
  intro h
  have htext : text (back ++ ["blobs", digest]) = text (back ++ ["blobs"] ++ [digest]) := by simp
  refine Name.slash_not_mem_of_checkTag h ?_
  rw [htext, Path.text_append (by simp) (List.cons_ne_nil _ _)]
  simp

/-- The path of a request with checked names is read as that request, unless it asks for a blob of
an image with a part `manifests`. Such a path is cut at the last of these parts: if it is the first
part of the image, the path stands for no request, and else for a manifest of the image before it,
whose tag is the rest and never passes its check. -/
theorem ofPath_path_iff (hr : r.IsNamed) :
    (ofPath r.path r.authorization = .ok r ↔
      ∀ digest, r.resource = .blob digest → "manifests" ∉ ofText r.image) ∧
    ∀ digest front back, r.resource = .blob digest →
      ofText r.image = front ++ "manifests" :: back → "manifests" ∉ back →
        ofPath r.path r.authorization =
            (if front = [] then .error (noRequest r.path)
            else .ok ⟨r.group, text front, .manifest (text (back ++ ["blobs", digest])),
              r.authorization⟩) ∧
          Name.checkTag (text (back ++ ["blobs", digest])) ≠ .ok () := by
  refine ⟨⟨?_, ?_⟩, ?_⟩
  · intro hread digest hresource hmem
    obtain ⟨after, before, hreverse, hafter⟩ := List.eq_append_cons_of_mem (List.mem_reverse.2 hmem)
    have himage : ofText r.image = before.reverse ++ "manifests" :: after.reverse := by
      rw [← List.reverse_reverse (ofText r.image), hreverse]
      simp
    rw [ofPath_path_of_misread hr hresource himage (by simpa using hafter)] at hread
    split at hread
    · cases hread
    · have hother := congrArg resource (Except.ok.inj hread)
      rw [hresource] at hother
      cases hother
  · intro hclean
    cases hresource : r.resource with
    | manifest tag => exact ofPath_path_of_manifest hr hresource
    | blob digest => exact ofPath_path_of_blob hr hresource (hclean digest hresource)
  · intro digest front back hresource himage hback
    exact ⟨ofPath_path_of_misread hr hresource himage hback, checkTag_of_parts back digest⟩

/-- A blob of `library/manifests/app` is read as a manifest of `library`, while one of
`library/blobs/app` and the manifests of both are read as what they are. -/
theorem ofPath_path_iff_of_both_marks :
    let digest := "sha256:2cf24dba5fb0a30e26e83b2ac5b9e29e1b161e5c1fa7425e73043362938b9824"
    let blobOf : String → PullRequest := fun image => ⟨"team", image, .blob digest, none⟩
    let manifestOf : String → PullRequest := fun image => ⟨"team", image, .manifest "v1", none⟩
    ofPath (blobOf "library/manifests/app").path none =
        .ok ⟨"team", "library", .manifest ("app/blobs/" ++ digest), none⟩ ∧
      ofPath (blobOf "manifests/app").path none = .error (noRequest (blobOf "manifests/app").path) ∧
      ofPath (blobOf "library/blobs/app").path none = .ok (blobOf "library/blobs/app") ∧
      ofPath (manifestOf "library/manifests/app").path none =
        .ok (manifestOf "library/manifests/app") := by
  intro digest blobOf manifestOf
  have hdigest : ∃ d : Digest, digest = d.text :=
    ⟨⟨"2cf24dba5fb0a30e26e83b2ac5b9e29e1b161e5c1fa7425e73043362938b9824", by decide +kernel,
      by decide +kernel⟩, rfl⟩
  have hgroup : Name.checkGroup "team" = .ok () := if_pos (by decide +kernel)
  have hblob : ∀ image, Name.isImage image = true → (blobOf image).IsNamed :=
    fun _ himage => ⟨hgroup, if_pos himage, hdigest⟩
  have hmanifest : (manifestOf "library/manifests/app").IsNamed :=
    ⟨hgroup, if_pos (by decide +kernel), Name.checkTag_of_isPlainTag (by decide +kernel)⟩
  refine ⟨?_, ?_, ?_, ?_⟩
  · exact ((ofPath_path_iff (hblob "library/manifests/app" (by decide +kernel))).2
      digest ["library"]
      ["app"] rfl (by decide +kernel) (by decide)).1
  · exact ((ofPath_path_iff (hblob "manifests/app" (by decide +kernel))).2 digest [] ["app"] rfl
      (by decide +kernel) (by decide)).1
  · exact (ofPath_path_iff (hblob "library/blobs/app" (by decide +kernel))).1.2
      fun _ _ => by decide +kernel
  · refine (ofPath_path_iff hmanifest).1.2 fun _ hresource => ?_
    cases hresource

end PullRequest

end PullThrough
