/-
# Errors of the shell

* `ShellError` : why the shell could not do what it was asked for, and `ShellError.message`.
-/
import Stepwise.Client.Error
import Stepwise.Process.ServiceError
import Stepwise.Service.Capability

namespace Stepwise

/-- Why the shell could not do what it was asked for. -/
inductive ShellError where
  /-- The server does not offer what is needed. -/
  | missingCapability (capability : Capability)
  | notLoggedIn
  | alreadyLoggedIn
  | noActiveProcess
  /-- The chain of panels ends in a panel that does not handle the notice. -/
  | unhandled (panel notice : String)
  /-- The client of the process refused. -/
  | client (error : ClientError)
  /-- The server returned an error. -/
  | service (error : ServiceError)

/-- The message of an error, clients called by `name`. -/
def ShellError.message (name : ClientId → String) : ShellError → String
  | .missingCapability capability => capability.missingMessage
  | .notLoggedIn => "No user is logged in"
  | .alreadyLoggedIn => "A user is already logged in"
  | .noActiveProcess => "No process is running"
  | .unhandled panel notice =>
    "Panel '" ++ panel ++ "' has no parent to handle " ++ notice
  | .client error => error.message name
  | .service error => error.message

end Stepwise
