import PullThrough.Http.Status
import PullThrough.Http.Target
import PullThrough.Json.Printer
import PullThrough.Origin.Message
/-!
HTTP requests to the proxy and its responses.
-/
namespace PullThrough

/-- A request to the proxy. -/
structure HttpRequest where
  method : String
  target : Target
  headers : List (String × Bytes)
  deriving DecidableEq, Repr

/-- A response. Its headers have lower-case names. -/
structure HttpResponse where
  status : Status
  headers : List (String × String) := []
  body : Bytes := []
  deriving DecidableEq, Repr

/-- Characters of methods and of header names. -/
def isTokenChar (c : Char) : Bool :=
  ('0' ≤ c && c ≤ '9') || ('A' ≤ c && c ≤ 'Z') || ('a' ≤ c && c ≤ 'z') ||
    ['!', '#', '$', '%', '&', '\'', '*', '+', '-', '.', '^', '_', '\x60', '|', '~'].contains c

def isToken (s : String) : Bool := s.toList != [] && s.toList.all isTokenChar

/-- The longest name of a header. -/
def maxHeaderName : Nat := 65535

def isHeaderName (s : String) : Bool := isToken s && s.utf8ByteSize ≤ maxHeaderName

/-- The number of different names at which no further header is taken. -/
def maxHeaderNames : Nat := 24576

/-- Whether headers of some names fit into one request. -/
def fitsHeaders (names : List String) : Bool :=
  names.length ≤ maxHeaderNames ||
    ((names.dropLast.map String.toLower).mergeSort fun a b => a ≤ b).eraseReps.length <
      maxHeaderNames

namespace HttpRequest

/-- A request, if its parts can be sent at all. -/
def make? (method target : String) (headers : List (String × Bytes)) : Option HttpRequest := do
  let t ← Target.parse? target
  if isToken method && fitsHeaders (headers.map (·.1)) &&
      headers.all fun h => isHeaderName h.1 && isHeaderValue h.2 then
    some ⟨method, t, headers⟩
  else none

/-- The authorization header, if it is text. -/
def authorization (r : HttpRequest) : Option String :=
  (r.headers.find? fun h => sameName h.1 "authorization").bind fun h => headerText? h.2

end HttpRequest

namespace HttpResponse

/-- The response with another header in front, unless no header can carry the value. -/
def withHeader (r : HttpResponse) (name value : String) : HttpResponse :=
  if isHeaderValue (Bytes.ofText value) then { r with headers := (name, value) :: r.headers } else r

/-- The value of a header. -/
def header? (r : HttpResponse) (name : String) : Option String := r.headers.lookup name

/-- A response of plain text. -/
def plain (status : Status) (text : String) : HttpResponse :=
  ⟨status, [("content-type", "text/plain; charset=utf-8")], Bytes.ofText text⟩

/-- A response that is a JSON document. -/
def json (status : Status) (j : Json) : HttpResponse :=
  ⟨status, [("content-type", "application/json")], j.compact⟩

/-- The response with the length of its body, if it does not state one. -/
def withLength (r : HttpResponse) : HttpResponse :=
  match r.header? "content-length" with
  | some _ => r
  | none => r.withHeader "content-length" (toString r.body.length)

/-- The response as to a request for its head: all of it but the body. -/
def headOnly (r : HttpResponse) : HttpResponse := { r with body := [] }

end HttpResponse

end PullThrough
