/-
# Capabilities

What a server can offer to a shell; it may offer any of these.

* `Capability` : the capabilities, with the text that messages show.
-/

namespace Stepwise

/-- What a server can offer. -/
inductive Capability where
  | commandExecution
  | authentication
  | storage
deriving DecidableEq

namespace Capability

/-- All capabilities, in the order in which they are listed. -/
def all : List Capability := [.commandExecution, .authentication, .storage]

/-- The capability as shown in messages. -/
def text : Capability → String
  | .commandExecution => "command execution"
  | .authentication => "authentication"
  | .storage => "storage"

/-- What is said when a server lacks the capability. -/
def missingMessage (c : Capability) : String :=
  "The registered service stub does not provide " ++ c.text

end Capability

end Stepwise
