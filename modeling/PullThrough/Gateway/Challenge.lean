/-!
Challenges: how an answer tells a client what to authenticate with.
-/
namespace PullThrough

/-- A challenge of the bearer scheme sends the client to a token endpoint, its realm; one of the
basic scheme asks for a user name and a password. -/
inductive Challenge where
  | bearer (realm service : String) (scope : Option String) (error : Option String)
  | basic (realm : String)
  deriving DecidableEq, Repr

namespace Challenge

def inQuotes (s : String) : String := "\"" ++ s ++ "\""

/-- The challenge as a header value. The scope is written as the action it grants. -/
def text : Challenge → String
  | bearer realm service scope error =>
    "Bearer realm=" ++ inQuotes realm ++ ",service=" ++ inQuotes service ++
      (match scope with
        | some scope => ",scope=" ++ inQuotes ("repository:" ++ scope ++ ":pull")
        | none => "") ++
      (match error with
        | some error => ",error=" ++ inQuotes error
        | none => "")
  | basic realm => "Basic realm=" ++ inQuotes realm

/-- The challenge with the remark that the token presented was no good. -/
def withInvalidToken : Challenge → Challenge
  | bearer realm service scope _ => bearer realm service scope (some "invalid_token")
  | basic realm => basic realm

end Challenge

end PullThrough
