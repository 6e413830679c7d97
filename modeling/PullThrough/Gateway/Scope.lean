import PullThrough.Gateway.Rejection
import PullThrough.Name
import PullThrough.Text.Blank
import PullThrough.Text.Split
/-!
The texts in which clients ask for access: scopes such as `repository:group/image:pull`, and
credentials behind the name of their scheme.
-/
namespace PullThrough

/-- What every scope begins with. -/
def Scope.kind : String := "repository:"

/-- The action that tokens grant. -/
def Scope.action : String := "pull"

/-- Group and image of a scope, before they are checked. -/
def Scope.split? (scope : String) : Option (String × String) := do
  let rest ← Scope.kind.toList.isPrefixOf? scope.toList
  let (path, actions) ← Text.cutLast? [':'] rest
  if !(actions.splitOn ',').contains Scope.action.toList then none
  let (group, image) ← Text.cutFirst? '/' path
  some (String.ofList group, String.ofList image)

/-- Group and image of a scope that asks for pulling. -/
def Scope.parse (scope : String) : Except Rejection (String × String) := do
  match Scope.split? scope with
  | none => .error (.badRequest "SCOPE_INVALID" ("unsupported scope: " ++ scope))
  | some (group, image) =>
    (Name.checkGroup group).mapError (.ofName "NAME_INVALID")
    (Name.checkImage image).mapError (.ofName "NAME_INVALID")
    return (group, image)

/-- ASCII letters without regard to case. -/
def sameLetters (a b : List Char) : Bool := a.map Char.toLower == b.map Char.toLower

/-- What follows the name of a scheme, case not counting, and blanks around it not counting. -/
def credentialsOf (header : List Char) (scheme : String) : Option (List Char) := do
  let (given, rest) ← Text.cutFirst? ' ' (Text.trim header)
  if sameLetters given scheme.toList then some (Text.trim rest) else none

end PullThrough
