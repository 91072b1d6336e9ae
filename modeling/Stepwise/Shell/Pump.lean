/-
# The request cycle

After every action of the user the shell handles the events of the clients and executes their
requests, one after the other, until nothing waits any more. When the main process is over,
so is the session.

* `Shell.handleEvent` : what an event does;
* `Shell.closeSession` : the way back to the login panel;
* `Shell.pump` : the cycle.
-/
import Stepwise.Shell.Basic

namespace Stepwise.Shell

variable {V σ : Type} [Toolkit V]

/-- Logs the user out of the server and returns to the login panel. All that waits is dropped. An
error of the server does not keep the session open. -/
def closeSession (user : Option User) : Run V σ Unit := do
  let shell ← get
  match user, shell.services.authentication? with
  | some user, some authentication =>
    let _ ← request (authentication.logout user.userId)
  | _, _ => pure ()
  modify fun shell =>
    { shell with client := none, pending := [], events := [],
                 desk := shell.desk.clearMessages, phase := .loggedOut }
  draw (loginCalls none)
  refresh

/-- The event is about the main process. -/
def isMain (shell : Shell V σ) (e : LifecycleEvent ClientId) : Bool :=
  shell.client.any (·.id = e.client)

/-- Handles an event. A step of the main process is noted by the message area, one of another
process only by the root. -/
def handleEvent (e : LifecycleEvent ClientId) : Run V σ Unit := do
  let shell ← get
  let main := shell.isMain e
  match e with
  | .started .. => pure ()
  | .updated _ s => raise (if main then .messages .root else .root) (.processUpdated s)
  | .finished _ _ s =>
    if main then
      raise .toolbar (.processFinished s)
      closeSession shell.user
    else
      modify fun shell =>
        { shell with desk := { shell.desk with session := shell.desk.session.forget s.id } }
      push (s.processName ++ " finished")
  | .failed _ _ error =>
    if main then modify fun shell => { shell with phase := .failed }
    push error

/-- Handles at most `count` of the events that wait. -/
def handleEvents : (count : Nat) → Run V σ Unit
  | 0 => pure ()
  | count + 1 => do
    let shell ← get
    match shell.events with
    | [] => pure ()
    | e :: rest =>
      set { shell with events := rest }
      handleEvent e
      handleEvents count

/-- Handles the events that wait. Handling one adds none. -/
def drain : Run V σ Unit := do
  let shell ← get
  handleEvents shell.events.length

/-- Has a request executed by the server, if it executes any. -/
def execute (r : Request) : Run V σ (Except ServiceError Snapshot) := do
  let shell ← get
  match shell.services.execute? with
  | some execute => request (execute r)
  | none => pure (.error (.fault Capability.commandExecution.missingMessage))

/-- Gives the outcome of a request to the client that sent it. Clients that are gone need none. -/
def deliver (id : ClientId) (result : Except ServiceError Snapshot) : Run V σ Unit := do
  let shell ← get
  match shell.client with
  | none => pure ()
  | some c =>
    let (outcome, c) ← act (Act.route id result) c
    modify fun shell => { shell with client := some c }
    match outcome with
    | .ok () => pure ()
    | .error (.unknownClient _) => pure ()
    | .error e => throw (.client e)

/-- Handles events and executes requests until nothing waits, for at most so many rounds. -/
def pump : (rounds : Nat) → Run V σ Unit
  | 0 => fun _ => none
  | rounds + 1 => do
    drain
    let shell ← get
    match shell.pending with
    | [] => refresh
    | d :: rest =>
      set { shell with pending := rest }
      deliver d.client (← execute d.request)
      pump rounds

end Stepwise.Shell
