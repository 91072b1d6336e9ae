/-
# Accounts and storage of the scripted server

A user without a password may log in with any. The storage holds a text for each key.

* `Server.login` : the user, if the credentials are accepted;
* `Server.stored?`, `Server.store` : the storage.
-/
import Stepwise.Process.Account
import Stepwise.Server.Basic
import Stepwise.Text.Blank

namespace Stepwise.Server

/-- The role of every user. -/
def userRole : String := "user"

/-- Checks credentials. Blanks around the name of the user do not count. -/
def login (server : Server) (now : Timestamp) (c : Credentials) : Except ServiceError User :=
  let user := Text.trim c.user
  if user.isEmpty then .error ((ServiceError.rejected "Login failed").withFieldError "user" "is required")
  else if (server.passwords.get? user).any (· ≠ c.password) then
    .error (.rejected "Invalid user name or password")
  else .ok ⟨user, user, none, [userRole], now⟩

/-- The text stored under a key. -/
def stored? (server : Server) (key : String) : Option String := server.storage.get? key

/-- Stores a text under a key. -/
def store (server : Server) (key value : String) : Server :=
  { server with storage := server.storage.insert key value }

end Stepwise.Server
