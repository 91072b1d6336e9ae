/-
# Service errors as documents

The kind of an error is a tag among its fields.

* `ServiceError.toJson`, `ServiceError.ofJson?` : writing and reading.
-/
import Stepwise.Process.ServiceError
import Stepwise.Wire.Snapshot

namespace Stepwise.ServiceError

/-- The kinds by their names in documents. -/
def kinds : List String := ["recoverable", "unrecoverable"]

/-- What is absent is left out. -/
def toJson : ServiceError → Json
  | .recoverable message fieldErrors replacement =>
    .obj ([("kind", .str "recoverable"), ("message", .str message),
      ("field_errors", .ofTextMap fieldErrors)] ++
      (replacement.map fun s => ("replacement", s.toJson)).toList)
  | .unrecoverable message cause =>
    .obj ([("kind", .str "unrecoverable"), ("message", .str message)] ++
      (cause.map fun text => ("cause", .str text)).toList)

/-- Reads the fields of a recoverable error. -/
def recoverableOfJson? (j : Json) : Option ServiceError := do
  let ms ← j.record? ["message", "field_errors", "replacement"]
  let message ← ms.required? "message" Json.string?
  let fieldErrors ← ms.optional? "field_errors" .empty Json.textMap?
  let replacement ← ms.optional? "replacement" none (Json.nullable? Snapshot.ofJson?)
  some (.recoverable message fieldErrors replacement)

/-- Reads the fields of an unrecoverable error. -/
def unrecoverableOfJson? (j : Json) : Option ServiceError := do
  let ms ← j.record? ["message", "cause"]
  let message ← ms.required? "message" Json.string?
  let cause ← ms.optional? "cause" none (Json.nullable? Json.string?)
  some (.unrecoverable message cause)

def ofJson? (j : Json) : Option ServiceError := do
  let (tag, rest) ← j.tagged? "kind"
  let kind ← tag.tagName? .direct kinds
  if kind = "recoverable" then recoverableOfJson? rest
  else if kind = "unrecoverable" then unrecoverableOfJson? rest
  else none

end Stepwise.ServiceError
