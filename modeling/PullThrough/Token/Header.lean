import PullThrough.Failure
import PullThrough.Json.Reader
/-!
Token headers: which algorithm signed the token. A header may say more, and what it says in the
registered places has to be well formed, but only the algorithm counts.
-/
namespace PullThrough.Token

/-- The name of the only algorithm in use. -/
def algorithm : String := "HS256"

/-- The algorithms that a header may name. -/
def knownAlgorithms : List String :=
  ["HS256", "HS384", "HS512", "ES256", "ES384", "RS256", "RS384", "RS512", "PS256",
    "PS384", "PS512",
   "EdDSA"]

/-- The header of every issued token. -/
def header : Json := .record [("typ", .text "JWT"), ("alg", .text algorithm)]

def isNull : Json → Bool
  | .null => true
  | _ => false

/-- Null or an object without members. -/
def isNothing : Json → Bool
  | .object members => members.isEmpty
  | j => isNull j

/-- A name out of a fixed list, bare or as the only key of an object with an empty value. -/
def choice? (isEmpty : Json → Bool) : Json → Option String
  | .object [(key, value)] => if isEmpty value then Bytes.text? key else none
  | j => j.text?

/-- What a place that may be left out holds. -/
def isOptional (p : Json → Bool) : Option Json → Bool
  | none => true
  | some .null => true
  | some j => p j

def isText (j : Json) : Bool := j.text?.isSome

def isTexts : Json → Bool
  | .array items => items.all isText
  | _ => false

def isChoice (isEmpty : Json → Bool) (names : List String) (j : Json) : Bool :=
  (choice? isEmpty j).any (names.contains ·)

/-! ## Keys inside headers -/

def keyAlgorithms : List String := knownAlgorithms ++ ["RSA1_5", "RSA-OAEP", "RSA-OAEP-256"]

def curves : List String := ["P-256", "P-384", "P-521", "Ed25519"]

/-- The kinds of keys, each with its required members. -/
def keyKinds : List (List (String × (Json → Bool))) :=
  [[("kty", isChoice isNull ["EC"]), ("crv", isChoice isNull curves), ("x", isText), ("y", isText)],
   [("kty", isChoice isNull ["RSA"]), ("n", isText), ("e", isText)],
   [("kty", isChoice isNull ["oct"]), ("k", isText)],
   [("kty", isChoice isNull ["OKP"]), ("crv", isChoice isNull curves), ("x", isText)]]

/-- The members that any key may have. -/
def keyOptions : List (String × (Json → Bool)) :=
  [("use", isText), ("key_ops", isTexts), ("alg", isChoice isNothing keyAlgorithms),
    ("kid", isText),
   ("x5u", isText), ("x5c", isTexts), ("x5t", isText), ("x5t#S256", isText)]

/-- A key: readable throughout, its options well formed, and of one of the kinds. -/
def isKey (j : Json) : Bool :=
  j.isReadable && j.depth < Json.maxDepth &&
    (match j.fields? (keyOptions.map (·.1)) with
      | some values => (keyOptions.zip values).all fun (option, value) => isOptional option.2 value
      | none => false) &&
    keyKinds.any fun kind =>
      match j.fields? (kind.map (·.1)) with
      | some values => (kind.zip values).all fun (field, value) => value.any field.2
      | none => false

/-! ## The header -/

/-- The places of a header besides the algorithm. -/
def headerOptions : List (String × (Json → Bool)) :=
  [("typ", isText), ("cty", isText), ("jku", isText), ("jwk", isKey), ("kid", isText),
    ("x5u", isText),
   ("x5c", isTexts), ("x5t", isText), ("x5t#S256", isText)]

/-- All places of a header in the order in which an array lists them. -/
def headerPlaces : List String :=
  ["typ", "alg", "cty", "jku", "jwk", "kid", "x5u", "x5c", "x5t", "x5t#S256"]

/-- The algorithm that a header names, if the header is well formed. -/
def algorithmOf? (j : Json) : Option String := do
  let values ← j.fieldsOrItems? headerPlaces
  let row := headerPlaces.zip values
  guard (headerOptions.all fun (place, p) => isOptional p ((row.lookup place).join))
  let name ← choice? isNull (← (row.lookup "alg").join)
  guard (knownAlgorithms.contains name)
  some name

/-- Whether a header lets its token be checked at all. -/
def checkHeader (octets : Bytes) : Except AccessFault Unit :=
  match (Json.parse? octets).bind algorithmOf? with
  | none => .error .malformed
  | some name => if name = algorithm then .ok () else .error .invalidSignature

end PullThrough.Token
