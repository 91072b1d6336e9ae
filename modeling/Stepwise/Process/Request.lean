/-
# Requests and events

A client sends requests to the server and tells its shell what happens to its process.
There is one command, to execute a process: it starts a process from a descriptor or
continues one from its latest snapshot.

* `Request`, `Command` : what is sent to the server;
* `LifecycleEvent` : what is told to the shell, by the name of the client it concerns.
-/
import Stepwise.Process.Snapshot

namespace Stepwise

/-- The kind of the widget event behind a request. -/
inductive InteractionKind where
  | action
  | fieldChanged
  | selection
deriving DecidableEq, Inhabited

/-- The widget event behind a request. -/
structure Interaction where
  kind : InteractionKind
  /-- The widget or field that raised the event. -/
  source : String
deriving DecidableEq, Inhabited

/-- A request to start or continue a process. -/
inductive Request where
  | start (descriptor : Descriptor)
  | continue (state : Snapshot) (mode : Mode) (event : Option Interaction)

namespace Request

/-- What the server is asked to do; a process is started by executing it. -/
def mode : Request → Mode
  | .start _ => .execute
  | .continue _ mode _ => mode

/-- The name of the process. -/
def processName : Request → String
  | .start descriptor => descriptor.name
  | .continue state _ _ => state.processName

end Request

/-- A command to the server. -/
inductive Command where
  | executeProcess (request : Request)

/-- What happens to a process, told under the name `ι` of its client. -/
inductive LifecycleEvent (ι : Type) where
  /-- The client has begun. -/
  | started (client : ι) (processName : String)
  /-- A snapshot is shown. -/
  | updated (client : ι) (state : Snapshot)
  /-- The process is over. -/
  | finished (client : ι) (parent : Option ι) (state : Snapshot)
  /-- An unrecoverable error has ended the process. -/
  | failed (client : ι) (parent : Option ι) (error : String)

namespace LifecycleEvent

variable {ι : Type}

/-- The client that the event is about. -/
def client : LifecycleEvent ι → ι
  | .started client _ => client
  | .updated client _ => client
  | .finished client _ _ => client
  | .failed client _ _ => client

end LifecycleEvent

end Stepwise
