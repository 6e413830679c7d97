/-!
The phases of a request on its way through the gateway.
-/
namespace PullThrough

/-- Where a request stands. -/
inductive Phase where
  | unauthenticated
  | tokenValidated
  | resolving
  | served
  | failed
  deriving DecidableEq, Repr

/-- A request is authorized before anything is looked up, and ends served or failed. -/
def Phase.canAdvance : Phase → Phase → Bool
  | unauthenticated, tokenValidated => true
  | unauthenticated, failed => true
  | tokenValidated, resolving => true
  | resolving, served => true
  | resolving, failed => true
  | _, _ => false

end PullThrough
