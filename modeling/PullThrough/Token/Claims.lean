import PullThrough.Json.Basic
/-!
What a pull token says: who may pull what, from when until when, and who says so. Times are seconds
since 1970 in sixty-four bits.
-/
namespace PullThrough

structure Claims where
  subject : String
  scope : String
  issuedAt : Int64
  expires : Int64
  issuer : String
  deriving DecidableEq, Repr

namespace Claims

/-- The issuer of all tokens. -/
def proxyIssuer : String := "dependency-proxy"

/-- The subject of tokens that are given to anyone. -/
def anonymous : String := "anonymous"

/-- How long the token lives. -/
def lifetime (c : Claims) : Int64 := c.expires - c.issuedAt

def toJson (c : Claims) : Json :=
  .record [("sub", .text c.subject), ("scope", .text c.scope),
    ("iat", .integer c.issuedAt.toInt), ("exp", .integer c.expires.toInt),
    ("iss", .text c.issuer)]

/-- An integer of sixty-four bits. -/
def time? (j : Json) : Option Int64 :=
  (j.integer? (-9223372036854775808) 9223372036854775807).map Int64.ofInt

/-- The claims of an object. All five have to be there. -/
def ofJson? (j : Json) : Option Claims :=
  match j.fields? ["sub", "scope", "iat", "exp", "iss"] with
  | some [some subject, some scope, some issuedAt, some expires, some issuer] => do
    some ⟨← subject.text?, ← scope.text?, ← time? issuedAt, ← time? expires, ← issuer.text?⟩
  | _ => none

end Claims

end PullThrough
