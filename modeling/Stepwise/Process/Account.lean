/-
# Accounts

* `Credentials` : what a user logs in with;
* `User` : the user of a session.
-/
import Stepwise.Timestamp

namespace Stepwise

/-- What a user logs in with. -/
structure Credentials where
  user : String
  password : String
deriving DecidableEq, Inhabited

/-- The user of a session. -/
structure User where
  userId : String
  displayName : String
  /-- The user's own locale, which goes before the configured one. -/
  locale : Option String
  roles : List String
  loggedInAt : Timestamp
deriving DecidableEq, Inhabited

/-- The user has a role. -/
def User.hasRole (u : User) (role : String) : Bool := u.roles.any (· == role)

end Stepwise
