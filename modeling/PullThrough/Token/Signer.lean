import PullThrough.Failure
import PullThrough.Hmac
import PullThrough.Json.Printer
import PullThrough.Text.Base64
import PullThrough.Text.Split
import PullThrough.Token.Claims
import PullThrough.Token.Header
import PullThrough.Token.Restrictions
/-!
Issuing and checking pull tokens. A token is header, claims and signature in base 64 with
dots between them. Nothing is kept about issued tokens: a token is good by its signature,
its claims and the clock.
-/
namespace PullThrough

/-- An issued token with what it says. -/
structure Token where
  text : String
  claims : Claims

/-- The lifetime as told to the token's owner. -/
def Token.expiresIn (t : Token) : Int64 := t.claims.lifetime

/-- A secret and the lifetime of tokens in seconds. -/
structure Signer where
  secret : Bytes
  ttl : UInt64

namespace Signer

/-- A part of a token. -/
def part (octets : Bytes) : List Char := Base64.encode .urlSafe octets

/-- The signature over a text. -/
def signature (s : Signer) (signed : List Char) : List Char :=
  part (Hmac.sha256 s.secret (Bytes.ofText (String.ofList signed)))

/-- The part of a token that is signed. -/
def signedPart (c : Claims) : List Char :=
  part Token.header.compact ++ '.' :: part c.toJson.compact

/-- The claims of a token issued at a time. -/
def claimsAt (s : Signer) (subject scope : String) (now : Int64) : Claims :=
  ⟨subject, scope, now, now + s.ttl.toInt64, Claims.proxyIssuer⟩

/-- A new token for a subject and a scope. -/
def issue (s : Signer) (subject scope : String) (now : Int64) : Token :=
  let claims := s.claimsAt subject scope now
  let signed := signedPart claims
  ⟨String.ofList (signed ++ '.' :: s.signature signed), claims⟩

/-- Whether claims come from this proxy and are for no particular audience. -/
def checkClaims (hasAudience : Bool) (c : Claims) : Except AccessFault Claims :=
  if c.expires < 0 then .error .malformed
  else if c.issuer ≠ Claims.proxyIssuer then .error .invalidSignature
  else if hasAudience then .error .malformed
  else .ok c

/-- The claims in the middle part of a token. -/
def readClaims (payload : List Char) : Except AccessFault Claims :=
  match Base64.decode? .urlSafe payload with
  | none => .error .malformed
  | some octets =>
    match (Json.parse? octets).bind Claims.ofJson?, Token.namesAudience? octets with
    | some claims, some hasAudience => checkClaims hasAudience claims
    | _, _ => .error .malformed

/-- The claims of a token whose signature is good. The parts are cut at the last two dots. -/
def verify (s : Signer) (token : String) : Except AccessFault Claims :=
  match Text.cutLast? ['.'] token.toList with
  | none => .error .malformed
  | some (signed, given) =>
    match Text.cutLast? ['.'] signed with
    | none => .error .malformed
    | some (header, payload) =>
      match Base64.decode? .urlSafe header with
      | none => .error .malformed
      | some octets => do
        Token.checkHeader octets
        if given = s.signature signed then readClaims payload else .error .invalidSignature

/-- The claims of a token that is good now. -/
def decode (s : Signer) (token : String) (now : Int64) : Except AccessFault Claims :=
  if token = "" then .error .unauthenticated
  else do
    let claims ← s.verify token
    if claims.expires ≤ now then .error .expired else .ok claims

/-- The subject of a token that is good now and grants a scope. -/
def validate (s : Signer) (token required : String) (now : Int64) : Except AccessFault String := do
  let claims ← s.decode token now
  if claims.scope = required then .ok claims.subject
  else .error (.scopeMismatch required claims.scope)

end Signer

end PullThrough
