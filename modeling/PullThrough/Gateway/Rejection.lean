import PullThrough.Failure
import PullThrough.Gateway.Challenge
/-!
How a request can be turned down, and what the client is told. A client learns that the origin or
the proxy failed, but not how.
-/
namespace PullThrough

inductive Rejection where
  | unauthorized (fault : AccessFault) (challenge : Challenge)
  | badRequest (code message : String)
  | notFound (code message : String)
  | badGateway (cause : Failure)
  | internal (cause : Failure)
  deriving DecidableEq, Repr

namespace Rejection

/-- The code that clients see. -/
def code : Rejection → String
  | unauthorized _ _ => "UNAUTHORIZED"
  | badRequest code _ => code
  | notFound code _ => code
  | badGateway _ => "UPSTREAM_ERROR"
  | internal _ => "INTERNAL_ERROR"

/-- The message that clients see. -/
def publicMessage : Rejection → String
  | unauthorized fault _ => fault.message
  | badRequest _ message => message
  | notFound _ message => message
  | badGateway _ => "upstream registry request failed"
  | internal _ => "internal error"

/-- A name that is none. -/
def ofName (code : String) (fault : NameFault) : Rejection :=
  .badRequest code (Failure.invalidReference fault).message

/-- What a failure to resolve means for the client. -/
def ofFailure (notFoundCode : String) : Failure → Rejection
  | .notFound _ => .notFound notFoundCode "resource not found upstream"
  | .invalidReference fault => ofName "NAME_INVALID" fault
  | f@(.digestMismatch _ _) => .badGateway f
  | f@(.unavailable _) => .badGateway f
  | f@(.denied _) => .badGateway f
  | f@(.unexpectedStatus _ _) => .badGateway f
  | f => .internal f

end Rejection

end PullThrough
