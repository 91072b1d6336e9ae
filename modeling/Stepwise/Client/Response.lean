/-
# Responses of the server

How a client takes the outcome of its request. A snapshot is shown, in place if its layout
is the one that is shown already; a step that goes on by itself is sent on at once; a
deferred cancel is sent before anything else. For every process that the step has spawned a
child client takes over. A recoverable error leaves the process as it is, an unrecoverable
one ends it.

* `Act.receive` : takes a snapshot, and lets child clients take theirs;
* `Act.attach` : takes over a process that the server has started;
* `Act.fail` : takes an error.
-/
import Stepwise.Client.Request

namespace Stepwise.Act

variable {V : Type} [ProcessView V]

/-- Shows a snapshot in a panel that has its layout: field by field, up to the first field that
the panel cannot find. -/
def updateFields : List Parameter → Act V Bool
  | [] => Pure.pure true
  | p :: rest => do
    let found ← call (.updateField p)
    if found then updateFields rest else Pure.pure false

/-- Shows a snapshot. The panel is built anew if step, style or fields differ from what it was
last built for, or if it lacks a field. -/
def render (s : Snapshot) : Act V Unit := do
  let c ← get
  let layout := Layout.ofSnapshot s
  let updated ← if c.rendered = some layout then updateFields s.parameters else Pure.pure false
  if updated then Pure.pure () else tell (.render s)
  modify fun c => { c with rendered := some layout, current := some s }

/-- Tells that the current snapshot is shown. -/
def emitUpdated : Act V Unit := do
  let c ← get
  match c.current with
  | some s => emit (.updated c.id s)
  | none => Pure.pure ()

/-- Ends the process with its last snapshot. The summary is left out if the user has just left
the final step. -/
def finish (s : Snapshot) (previousFinal : Bool) : Act V Unit := do
  modify fun c => { c with phase := .finished, cancelled := s.cancelled }
  if previousFinal then Pure.pure () else tell (.showSummary (.ofSnapshot s))
  let c ← get
  emit (.finished c.id c.parent s)
  modify fun c => { c with current := some s }

/-- The user stands on the final step. -/
def onFinalStep : Act V Bool := do
  let c ← get
  Pure.pure (c.current.any (·.finalStep))

/-- The client of a child process, before it takes over. It is paused like its parent, unless the
parent is paused only for its question. -/
def newChild (c : Client V) (view : V) : Client V :=
  { Client.idle (c.id.child c.opened) view with
    parent := some c.id
    autoContinuePaused := c.autoContinuePaused && !c.pausedByConfirmation }

/-- Opens the panel of a child process and lets its client take over by a step of its own. The
client is kept if its process has not ended by then. -/
def spawn (s : Snapshot) (takeOver : Act V Unit) : Act V Unit := do
  let before ← get
  tell (.openChild s)
  fun ch c =>
    let child := newChild c (ProcessView.childPanel before.view s)
    let t := takeOver ch child
    match t.result with
    | .error e => ⟨.error e, { c with opened := c.opened + 1 }, t.effects⟩
    | .ok () =>
      let children := if t.client.phase.isTerminal then c.children else c.children ++ [t.client]
      ⟨.ok (), { c with opened := c.opened + 1, children }, t.effects⟩

/-- Begins to run a process that the server has started, and takes its snapshot. -/
def takeOver (processName : String) (receive : Act V Unit) : Act V Unit := do
  let c ← get
  if c.phase ≠ .idle then refuse (.invalidPhase .attach c.phase)
  else
    modify fun c => { c with phase := .running }
    emit (.started c.id processName)
    receive

/-- Takes a snapshot in a process that is not over; `spawnChildren` lets the clients of its
children take over. -/
def receiveOpen (s : Snapshot) (spawnChildren : Act V Unit) : Act V Unit := do
  let c ← get
  modify fun c => { c with locked := false, awaitingStart := false }
  if c.pendingCancel && !s.finished then
    modify fun c => { c with pendingCancel := false, current := some s }
    let _ ← proceed .cancel none
    Pure.pure ()
  else
    modify fun c => { c with pendingCancel := false }
    tell (.setBusy false)
    let previousFinal ← onFinalStep
    spawnChildren
    if s.finished then finish s previousFinal
    else if c.awaitingStart && !s.hasOutstandingWork then
      finish { s with finished := true } previousFinal
    else
      modify fun c => { c with phase := .interacting }
      if s.autoContinue && !c.autoContinuePaused then
        modify fun c => { c with current := some s }
        let _ ← proceed .execute none
        Pure.pure ()
      else
        render s
        emitUpdated

mutual
/-- Takes a snapshot that the server has returned. A process that is over takes none. -/
def receive : Snapshot → Act V Unit
  | ⟨id, processName, step, parameters, finished, finalStep, autoContinue, canRollback,
      immediateInteraction, cancelled, children, properties⟩ => do
    let c ← get
    if c.phase.isTerminal then Pure.pure ()
    else
      receiveOpen ⟨id, processName, step, parameters, finished, finalStep, autoContinue,
        canRollback, immediateInteraction, cancelled, children, properties⟩
        (spawnAll children)
/-- Lets a client take over each of the processes that a step has spawned. -/
def spawnAll : List Snapshot → Act V Unit
  | [] => Pure.pure ()
  | s :: rest => do
    spawn s (takeOver s.processName (receive s))
    spawnAll rest
end

/-- Takes over a process that the server has started. -/
def attach (s : Snapshot) : Act V Unit := takeOver s.processName (receive s)

/-- Shows the messages of fields; a message whose field is not there is shown as a message. -/
def showFieldErrors : List (String × String) → Act V Unit
  | [] => Pure.pure ()
  | (field, text) :: rest => do
    let found ← call (.showFieldError field text)
    if found then Pure.pure () else tell (.showMessage (field ++ ": " ++ text))
    showFieldErrors rest

/-- Takes an unrecoverable error: the process ends. -/
def failFor (message : String) : Act V Unit := do
  modify fun c => { c with pendingCancel := false, cancelled := true, phase := .failed }
  tell (.setBusy false)
  let c ← get
  tell (.showSummary (.failed ((c.current.map (·.processName)).getD "") message))
  emit (.failed c.id c.parent message)

/-- Takes a recoverable error while a cancel waits: the cancel is sent if there is a process to
cancel. -/
def recoverCancelling (message : String) (replacement : Option Snapshot) : Act V Unit := do
  modify fun c =>
    { c with pendingCancel := false
             current := match replacement with
               | some s => some s
               | none => c.current }
  let c ← get
  if c.current.isSome then
    let _ ← proceed .cancel none
    Pure.pure ()
  else
    modify fun c => { c with phase := .idle }
    tell (.setBusy false)
    tell (.showMessage message)

/-- Takes a recoverable error: the replacement is shown, or else the messages are. -/
def recover (message : String) (fieldErrors : KeyMap String) (replacement : Option Snapshot) :
    Act V Unit := do
  tell (.setBusy false)
  let c ← get
  match replacement with
  | some s =>
    if s.finished then
      let previousFinal ← onFinalStep
      finish s previousFinal
    else
      modify fun c => { c with phase := .interacting }
      render s
      tell (.showMessage message)
      emitUpdated
  | none =>
    if c.current.isNone then
      modify fun c => { c with phase := .idle }
      tell (.showMessage message)
    else
      modify fun c => { c with phase := .interacting }
      if fieldErrors.isEmpty then tell (.showMessage message) else Pure.pure ()
      showFieldErrors fieldErrors.entries

/-- Takes the error of a request. A process that is over takes none. -/
def fail (error : ServiceError) : Act V Unit := do
  let c ← get
  if c.phase.isTerminal then Pure.pure ()
  else
    modify fun c => { c with locked := false, awaitingStart := false }
    match error with
    | .unrecoverable message _ => failFor message
    | .recoverable message fieldErrors replacement =>
      modify fun c => { c with cancelSent := false }
      if c.pendingCancel then recoverCancelling message replacement
      else recover message fieldErrors replacement

/-- Takes the outcome of a request. -/
def respond (result : Except ServiceError Snapshot) : Act V Unit :=
  match result with
  | .ok s => receive s
  | .error e => fail e

end Stepwise.Act
