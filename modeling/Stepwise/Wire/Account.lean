/-
# Accounts as documents

* `Credentials.toJson`, `Credentials.ofJson?` : the password may be left out;
* `User.toJson`, `User.ofJson?` : locale and roles may be left out.
-/
import Stepwise.Process.Account
import Stepwise.Wire.Record

namespace Stepwise

namespace Credentials

def fields : List String := ["user", "password"]

def toJson (c : Credentials) : Json :=
  .obj [("user", .str c.user), ("password", .str c.password)]

def ofJson? (j : Json) : Option Credentials := do
  let ms ← j.record? fields
  let user ← ms.required? "user" Json.string?
  let password ← ms.optional? "password" "" Json.string?
  some ⟨user, password⟩

end Credentials

namespace User

def fields : List String := ["user_id", "display_name", "locale", "roles", "logged_in_at"]

/-- An absent locale is left out. -/
def toJson (u : User) : Json :=
  .obj ([("user_id", .str u.userId), ("display_name", .str u.displayName)] ++
    (u.locale.map fun l => ("locale", .str l)).toList ++
    [("roles", .arr (u.roles.map .str)), ("logged_in_at", .str u.loggedInAt.text)])

def ofJson? (j : Json) : Option User := do
  let ms ← j.record? fields
  let userId ← ms.required? "user_id" Json.string?
  let displayName ← ms.required? "display_name" Json.string?
  let locale ← ms.optional? "locale" none (Json.nullable? Json.string?)
  let roles ← ms.optional? "roles" [] (Json.list? Json.string?)
  let loggedInAt ← ms.required? "logged_in_at" Json.timestamp?
  some ⟨userId, displayName, locale, roles, loggedInAt⟩

end User

end Stepwise
