import PullThrough.Bytes
import PullThrough.Http.Status
import PullThrough.Text.Base64
import PullThrough.Text.Form
/-!
What is said between the proxy and the origin registry: requests, and how an exchange can end.
-/
namespace PullThrough

/-- The methods in use. -/
inductive Method where
  | get
  | head
  deriving DecidableEq, Repr

def Method.name : Method → String
  | get => "GET"
  | head => "HEAD"

/-- A request to the origin. The parameters are appended to the address as a form. -/
structure OriginRequest where
  method : Method
  url : String
  parameters : List (String × String) := []
  authorization : Option String := none
  accept : Option String := none
  deriving DecidableEq, Repr

/-- The parameters as a query. -/
def OriginRequest.query (r : OriginRequest) : String :=
  String.intercalate "&" (r.parameters.map fun (name, value) =>
    String.ofList (Form.escape name) ++ "=" ++ String.ofList (Form.escape value))

/-- A credential of the bearer scheme. -/
def bearerCredential (token : String) : String := "Bearer " ++ token

/-- A credential of the basic scheme. -/
def basicCredential (username password : String) : String :=
  "Basic " ++
    String.ofList (Base64.encodePadded .standard (Bytes.ofText (username ++ ":" ++ password)))

/-- How the body of a reply ends. -/
inductive Ending where
  | complete
  | broken
  | stalled
  deriving DecidableEq, Repr

/-- The head of a reply and as much of its body as arrives, piece by piece. -/
structure Reply where
  status : Status
  headers : List (String × Bytes) := []
  chunks : List Bytes := []
  ending : Ending := .complete
  deriving DecidableEq, Repr

/-- How a request ends: without any reply, without one in time, or with one. -/
inductive Exchange where
  | failed
  | timedOut
  | reply (r : Reply)
  deriving DecidableEq, Repr

/-- Whether octets may stand in a header value: blanks and what is visible, and all above ASCII. -/
def isHeaderValue (octets : Bytes) : Bool :=
  octets.all fun x => (0x20 ≤ x && x != 0x7F) || x == 0x09

/-- The text of a header value, if it is ASCII. -/
def headerText? (octets : Bytes) : Option String :=
  if octets.all fun x => (0x20 ≤ x && x < 0x7F) || x == 0x09 then Bytes.text? octets else none

/-- Names of headers are compared without regard to case. -/
def sameName (a b : String) : Bool := a.toList.map Char.toLower == b.toList.map Char.toLower

/-- The first header of a name, as text. -/
def Reply.header? (r : Reply) (name : String) : Option String :=
  (r.headers.find? fun h => sameName h.1 name).bind fun h => headerText? h.2

end PullThrough
