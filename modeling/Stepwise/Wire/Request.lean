/-
# Requests and events as documents

The type of a request is a tag among its fields; a command and an event have a tag and a
payload beside it. The fields of a request are set aside while its tag is looked for.

* `Request.toJson`, `Request.ofJson?`, `Command.toJson`, `Command.ofJson?`;
* `LifecycleEvent.toJson`, `LifecycleEvent.ofJson?`.
-/
import Stepwise.Process.Request
import Stepwise.Wire.Snapshot

namespace Stepwise

namespace InteractionKind

/-- The name of a kind in documents. -/
def name : InteractionKind → String
  | .action => "action"
  | .fieldChanged => "fieldChanged"
  | .selection => "selection"

def ofName? (name : String) : Option InteractionKind :=
  if name = "action" then some .action
  else if name = "fieldChanged" then some .fieldChanged
  else if name = "selection" then some .selection
  else none

def ofJson? (reading : Json.Reading) (j : Json) : Option InteractionKind :=
  (j.choice? reading).bind ofName?

end InteractionKind

namespace Interaction

def fields : List String := ["kind", "source"]

def toJson (e : Interaction) : Json :=
  .obj [("kind", .str e.kind.name), ("source", .str e.source)]

def ofJson? (reading : Json.Reading) (j : Json) : Option Interaction := do
  let ms ← j.record? fields
  let kind ← ms.required? "kind" (InteractionKind.ofJson? reading)
  let source ← ms.required? "source" Json.string?
  some ⟨kind, source⟩

end Interaction

namespace Request

/-- The types of a request by their names in documents. -/
def types : List String := ["start", "continue"]

/-- An absent event is left out. -/
def toJson : Request → Json
  | .start descriptor =>
    .obj [("type", .str "start"), ("descriptor", descriptor.toJson)]
  | .continue state mode event =>
    .obj ([("type", .str "continue"), ("state", state.toJson), ("mode", mode.toJson)] ++
      (event.map fun e => ("event", e.toJson)).toList)

/-- Reads the fields of a request to start. -/
def startOfJson? (j : Json) : Option Request := do
  let ms ← j.record? ["descriptor"]
  let descriptor ← ms.required? "descriptor" Descriptor.ofJson?
  some (.start descriptor)

/-- Reads the fields of a request to continue. -/
def continueOfJson? (j : Json) : Option Request := do
  let ms ← j.record? ["state", "mode", "event"]
  let state ← ms.required? "state" Snapshot.ofJson?
  let mode ← ms.required? "mode" (Mode.ofJson? .setAside)
  let event ← ms.optional? "event" none (Json.nullable? (Interaction.ofJson? .setAside))
  some (.continue state mode event)

def ofJson? (reading : Json.Reading) (j : Json) : Option Request := do
  let (tag, rest) ← j.tagged? "type"
  let type ← tag.tagName? reading types
  if type = "start" then startOfJson? rest
  else if type = "continue" then continueOfJson? rest
  else none

end Request

namespace Command

def toJson : Command → Json
  | .executeProcess request =>
    .obj [("command", .str "EXECUTE_PROCESS"), ("payload", request.toJson)]

def ofJson? (j : Json) : Option Command := do
  let (tag, payload, reading) ← j.adjacent? "command" "payload"
  let command ← tag.choice? .direct
  if command = "EXECUTE_PROCESS" then
    (Request.ofJson? reading payload).map .executeProcess
  else none

end Command

namespace LifecycleEvent

variable {ι : Type}

/-- An event as a document, clients written by `encode`. -/
def toJson (encode : ι → Json) : LifecycleEvent ι → Json
  | .started client processName =>
    tagged "processStarted" [("client_id", encode client), ("process_name", .str processName)]
  | .updated client state =>
    tagged "processUpdated" [("client_id", encode client), ("state", state.toJson)]
  | .finished client parent state =>
    tagged "processFinished" [("client_id", encode client), ("parent", optional parent),
      ("state", state.toJson)]
  | .failed client parent error =>
    tagged "processFailed" [("client_id", encode client), ("parent", optional parent),
      ("error", .str error)]
where
  tagged (type : String) (payload : List (String × Json)) : Json :=
    .obj [("type", .str type), ("payload", .obj payload)]
  optional (parent : Option ι) : Json := (parent.map encode).getD .null

/-- Reads the payload of an event of a given type. -/
def payloadOfJson? (type : String) (j : Json) : Option (LifecycleEvent Uuid) :=
  if type = "processStarted" then do
    let ms ← j.objectRecord? ["client_id", "process_name"]
    let client ← ms.required? "client_id" Json.uuid?
    let processName ← ms.required? "process_name" Json.string?
    some (.started client processName)
  else if type = "processUpdated" then do
    let ms ← j.objectRecord? ["client_id", "state"]
    let client ← ms.required? "client_id" Json.uuid?
    let state ← ms.required? "state" Snapshot.ofJson?
    some (.updated client state)
  else if type = "processFinished" then do
    let ms ← j.objectRecord? ["client_id", "parent", "state"]
    let client ← ms.required? "client_id" Json.uuid?
    let parent ← ms.optional? "parent" none (Json.nullable? Json.uuid?)
    let state ← ms.required? "state" Snapshot.ofJson?
    some (.finished client parent state)
  else if type = "processFailed" then do
    let ms ← j.objectRecord? ["client_id", "parent", "error"]
    let client ← ms.required? "client_id" Json.uuid?
    let parent ← ms.optional? "parent" none (Json.nullable? Json.uuid?)
    let error ← ms.required? "error" Json.string?
    some (.failed client parent error)
  else none

def ofJson? (j : Json) : Option (LifecycleEvent Uuid) := do
  let (tag, payload, _) ← j.adjacent? "type" "payload"
  let type ← tag.choice? .direct
  payloadOfJson? type payload

end LifecycleEvent

end Stepwise
