/-!
Configured user names and passwords.
-/
namespace PullThrough

/-- Passwords by user name. A name counts where it stands first. -/
structure Credentials where
  users : List (String × String)

namespace Credentials

/-- The subject that a user name and a password prove, which is the user name. -/
def verify (c : Credentials) (username password : String) : Option String :=
  match c.users.lookup username with
  | some expected => if expected = password then some username else none
  | none => none

theorem verify_eq_some_iff {c : Credentials} {u p s : String} :
    c.verify u p = some s ↔ c.users.lookup u = some p ∧ s = u := by
  unfold verify
  split
  · next e he => by_cases h : e = p <;> simp [h, he, eq_comm (a := s)]
  · next he => simp [he]

end Credentials

end PullThrough
