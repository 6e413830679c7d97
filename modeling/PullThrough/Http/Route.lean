import PullThrough.Gateway.Basic
import PullThrough.Http.Target
/-!
Which path leads where. Everything below `/v2/` belongs to the registry; a group's token endpoint is
found under its name.
-/
namespace PullThrough

/-- The places of the proxy. The group of a token endpoint is as the path has it, escapes
included. -/
inductive Route where
  | version
  | registry
  | token (group : Option (List Char))
  | stats
  | health
  deriving DecidableEq, Repr

namespace Route

def registryRoot : List Char := "/v2/".toList

def tokenPath : List Char := "/authorize".toList

/-- The group before the name of a token endpoint, with no slash in it. -/
def groupOf? (path : List Char) : Option (List Char) :=
  match path with
  | '/' :: s =>
    match Text.cutFirst? '/' s with
    | some (group, rest) => if '/' :: rest = tokenPath then some group else none
    | none => none
  | _ => none

/-- The place that a path leads to. -/
def ofPath? (path : List Char) : Option Route :=
  match registryRoot.isPrefixOf? path with
  | some [] => some .version
  | some _ => some .registry
  | none =>
    if path = tokenPath then some (.token none)
    else if path = "/api/v1/cache/stats".toList then some .stats
    else if path = "/health".toList then some .health
    else (groupOf? path).map fun group => .token (some group)

end Route

namespace PullRequest

/-- The part of a path that names a manifest's tag follows this. -/
def manifestMark : List Char := "/manifests/".toList

/-- The part of a path that names a blob's digest follows this. -/
def blobMark : List Char := "/blobs/".toList

/-- The name of the image and the resource below the registry's root. The last mark counts, and
marks of manifests before those of blobs. -/
def cutResource? (rest : List Char) : Option (List Char × Resource) :=
  match Text.cutLast? manifestMark rest with
  | some (name, tag) => some (name, .manifest (String.ofList tag))
  | none =>
    (Text.cutLast? blobMark rest).map fun (name, digest) => (name, .blob (String.ofList digest))

/-- The request that a path stands for. -/
def ofPath (path : List Char) (authorization : Option String) : Except Rejection PullRequest :=
  let request? : Option PullRequest := do
    let rest ← Route.registryRoot.isPrefixOf? path
    let (name, resource) ← cutResource? rest
    let (group, image) ← Text.cutFirst? '/' name
    some ⟨String.ofList group, String.ofList image, resource, authorization⟩
  match request? with
  | some r => .ok r
  | none =>
    .error (.badRequest "NAME_INVALID" ("invalid registry path: " ++ String.ofList path))

end PullRequest

end PullThrough
