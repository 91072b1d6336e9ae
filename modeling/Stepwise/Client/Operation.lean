/-
# Operations of the user

What a user can do with a process: edit and submit parameters, move on, back or once more
to the same step, cancel, and pause or resume steps that go on by themselves. A cancel asks
a question first, unless the step is cancelled without one; while a request is under way it
is deferred until the response comes.

* `Client.availableActions` : what is offered;
* `Act.start`, `Act.recordEdit`, `Act.submit`, `Act.advance`, `Act.rollback`, `Act.reload`,
  `Act.cancel`, `Act.answer`, `Act.pause`, `Act.resume` : what is done.
-/
import Stepwise.Client.Request

namespace Stepwise

namespace Client

variable {V : Type}

/-- The next step is offered unless the step needs input that is missing. -/
def nextOffered (c : Client V) : Bool :=
  c.current.any fun s => !(s.immediateInteraction && s.awaitsInput)

/-- The way back is offered unless the step is about to go on by itself. -/
def rollbackOffered (c : Client V) : Bool :=
  c.current.any fun s => s.canRollback && !(s.autoContinue && !c.autoContinuePaused)

/-- The actions that are offered to the user. -/
def availableActions (c : Client V) : ActionSet :=
  if c.phase.isTerminal || c.phase = .idle then .none
  else
    let cancel := !c.pendingCancel && !c.cancelSent && !c.awaitingConfirmation
    if c.phase ≠ .interacting || c.locked || c.awaitingConfirmation then
      { ActionSet.none with cancel }
    else
      { next := c.nextOffered, previous := c.rollbackOffered, cancel, reload := true }

/-- A step waits that would go on by itself. -/
def holdsAutoStep (c : Client V) : Bool :=
  c.phase = .interacting && !c.locked && !c.pendingCancel && !c.awaitingConfirmation &&
    c.current.any (·.autoContinue)

end Client

namespace Act

variable {V : Type}

/-- Refuses if the process is over. -/
def ensureOpen : Act V Unit := do
  let c ← get
  if c.phase.isTerminal then refuse (.closed c.phase) else Pure.pure ()

/-- Refuses unless a step is shown. -/
def ensureInteracting (operation : Operation) : Act V Unit := do
  let c ← get
  if c.phase ≠ .interacting then refuse (.invalidPhase operation c.phase) else Pure.pure ()

/-- Runs a step of navigation, unless the process is over, a request is under way, no step is
shown, or a question is open. -/
def navigate (operation : Operation) (step : Act V Outcome) : Act V Outcome := do
  ensureOpen
  let c ← get
  if c.locked then Pure.pure (.ignored .locked)
  else
    ensureInteracting operation
    if c.awaitingConfirmation then Pure.pure (.ignored .awaitingConfirmation) else step

/-- Notes an edit of the first parameter with a name. -/
def recordEdit (name : String) (value : Value) : Act V Outcome := do
  ensureOpen
  let c ← get
  if c.locked then Pure.pure (.ignored .locked)
  else
    ensureInteracting .edit
    match c.current.bind (·.edit? name value) with
    | none => refuse (.unknownParameter name)
    | some s =>
      modify fun c => { c with current := some s }
      Pure.pure .recorded

/-- Notes one edit after the other. -/
def recordEdits : List (String × Value) → Act V Unit
  | [] => Pure.pure ()
  | (name, value) :: rest => do
    let _ ← recordEdit name value
    recordEdits rest

variable [ProcessView V]

/-- Starts a process. -/
def start (descriptor : Descriptor) : Act V Outcome := do
  let c ← get
  if c.phase ≠ .idle then refuse (.invalidPhase .start c.phase)
  else
    modify fun c => { c with phase := .running }
    emit (.started c.id descriptor.name)
    let outcome ← send (.start descriptor)
    modify fun c => { c with awaitingStart := true }
    Pure.pure outcome

/-- Notes edits and executes the step with them. Nothing is noted if one of the names is
unknown. -/
def submit (edits : List (String × Value)) (event : Interaction) : Act V Outcome :=
  navigate .submit do
    let c ← get
    match edits.find? fun e => c.current.any fun s => (s.parameter? e.1).isNone with
    | some e => refuse (.unknownParameter e.1)
    | none =>
      recordEdits edits
      proceed .execute (some event)

/-- Asks for the next step. -/
def advance : Act V Outcome :=
  navigate .advance do
    let c ← get
    if c.nextOffered then proceed .execute none else Pure.pure (.ignored .awaitingInput)

/-- Goes back to the step before. -/
def rollback : Act V Outcome :=
  navigate .rollback do
    let c ← get
    if c.rollbackOffered then proceed .rollback none
    else Pure.pure (.ignored .rollbackUnavailable)

/-- Asks for the current step once more. -/
def reload : Act V Outcome := navigate .reload (proceed .reload none)

/-- Asks the user whether to cancel; steps do not go on by themselves until the answer. -/
def askToCancel (processName : String) : Act V Outcome := do
  modify fun c =>
    { c with awaitingConfirmation := true
             pausedByConfirmation := !c.autoContinuePaused
             autoContinuePaused := true }
  tell (.ask (.cancelProcess processName))
  Pure.pure .awaitingConfirmation

/-- Cancels the process. -/
def cancel : Act V Outcome := do
  ensureOpen
  let c ← get
  if c.pendingCancel || c.cancelSent then Pure.pure (.ignored .alreadyCancelling)
  else if c.phase = .idle then refuse (.invalidPhase .cancel c.phase)
  else if c.locked then
    modify fun c => { c with pendingCancel := true }
    Pure.pure .deferred
  else if c.awaitingConfirmation then Pure.pure (.ignored .awaitingConfirmation)
  else
    match c.current with
    | none => refuse (.invalidPhase .cancel c.phase)
    | some s => if s.immediateInteraction then proceed .cancel none else askToCancel s.processName

/-- Steps do not go on by themselves. -/
def pause : Act V Unit := modify fun c => { c with autoContinuePaused := true }

/-- Steps go on by themselves, and so does the current one if it waits for that. -/
def resume : Act V Outcome := do
  modify fun c => { c with autoContinuePaused := false }
  let c ← get
  if c.holdsAutoStep then proceed .execute none else Pure.pure (.ignored .nothingToResume)

/-- Takes the user's answer to the question whether to cancel. -/
def answer (accepted : Bool) : Act V Outcome := do
  let c ← get
  if !c.awaitingConfirmation then refuse (.invalidPhase .confirm c.phase)
  else
    modify fun c => { c with awaitingConfirmation := false, pausedByConfirmation := false }
    ensureOpen
    if accepted then
      if c.locked then
        modify fun c => { c with pendingCancel := true }
        Pure.pure .deferred
      else proceed .cancel none
    else if c.pausedByConfirmation then resume
    else Pure.pure (.ignored .nothingToResume)

end Act

end Stepwise
