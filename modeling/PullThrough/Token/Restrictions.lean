import PullThrough.Json.Attempt
import PullThrough.Token.Header
/-!
What the claims of a token say about when and by whom it may be used. These claims may be given up:
one that cannot be read restricts nothing, as long as the reading of the others can go on behind it.
-/
namespace PullThrough.Token

/-- The value of one claim. Of `nbf`, from when on the token is good, only its end matters; `aud`,
whom the token is for, is kept if it can be read. -/
def readClaim (bound : Nat) (name : Bytes) (s : Bytes) : Option (Json × Bytes) :=
  if name = Bytes.ofText "aud" then some (Json.Attempt.ofValue bound (Json.maxDepth - 1) s).settle
  else if name = Bytes.ofText "nbf" then some (Json.Attempt.ofSingle bound s).settle
  else Json.value? bound s

/-- A value that names an audience. -/
def isAudience (j : Json) : Bool := isText j || isTexts j

/-- Whether claims name an audience; none, if they cannot be read or say something twice. -/
def namesAudience? (claims : Bytes) : Option Bool := do
  let document ← Json.objectBy? (readClaim (2 * claims.length + 2)) claims
  match ← document.fields? ["nbf", "aud"] with
  | [_, audience] => some (audience.any isAudience)
  | _ => none

end PullThrough.Token
