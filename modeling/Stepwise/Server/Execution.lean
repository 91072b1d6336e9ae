/-
# Execution on the scripted server

A request starts a process on the first step of its script, or lets a running one go on, back,
once more over the same step, or come to its end. A process that enters a step for the first
time spawns the processes that the step names; what has been spawned through four others
spawns no more, so that scripts which spawn each other stay finite. A process that goes on
from its last step is over, and with it all that it has spawned.

* `Instance.snapshot` : what a process shows;
* `Server.start`, `Server.proceed` : the two kinds of requests;
* `Server.execute` : a request, after the errors that were injected.
-/
import Stepwise.Server.Basic
import Stepwise.Server.Validation

namespace Stepwise

/-- A parameter of a step with its current value. -/
def Instance.parameter (p : Instance) (d : ScriptParameter) : Parameter where
  name := d.name
  label := d.label
  value := (p.values.get? d.name).getD d.default
  required := d.required
  modified := false

/-- What a process shows on a step, children apart. -/
def Instance.snapshot (p : Instance) (step : ScriptStep) : Snapshot :=
  { Snapshot.ofStep p.id p.script.name step.step with
    parameters := step.parameters.map p.parameter
    finalStep := p.index + 1 = p.script.steps.length
    autoContinue := step.autoContinue
    canRollback := step.canRollback && 0 < p.index
    immediateInteraction := step.immediateInteraction
    properties := match step.style with
      | some style => KeyMap.empty.insert Snapshot.styleProperty style
      | none => .empty }

/-- What a process shows when it is over. -/
def Instance.lastSnapshot (p : Instance) (step : String) (cancelled : Bool) : Snapshot :=
  { Snapshot.ofStep p.id p.script.name step with finished := true, cancelled }

namespace Server

/-- The number of processes through which another may be spawned. -/
def spawnLimit : Nat := 4

/-- The script of a process. -/
def script (name : String) : Run Script := do
  let server ← get
  match server.scripts.get? name with
  | some script => pure script
  | none => throw (.fault ("Unknown process '" ++ name ++ "'"))

/-- A new identifier. -/
def issue : Run Uuid := do
  let server ← get
  set { server with issued := server.issued + 1 }
  pure (.issued server.issued)

/-- Starts a process for each of several names. -/
def spawnAll (spawn : String → Run Snapshot) : List String → Run (List Snapshot)
  | [] => pure []
  | name :: rest => do
    let child ← spawn name
    let others ← spawnAll spawn rest
    pure (child :: others)

/-- Lets an instance enter its current step, and keeps it. The processes of the step are spawned
if the step was not entered before. -/
def enter (p : Instance) (spawn : Option (String → Run Snapshot)) : Run Snapshot := do
  match p.script.steps[p.index]? with
  | none =>
    throw (.fault ("Process '" ++ p.script.name ++ "' has no step " ++ toString p.index))
  | some step =>
    let children ← match spawn with
      | some spawn => if p.entered.contains p.index then pure [] else spawnAll spawn step.spawn
      | none => pure []
    let entered := if p.entered.contains p.index then p.entered else p.index :: p.entered
    modify fun server => server.keep { p with entered }
    pure { p.snapshot step with children }

/-- Starts a process. It may spawn others through `levels` more. -/
def start (levels : Nat) (name : String) (input : Option Value) (parent : Option Uuid) :
    Run Snapshot := do
  let script ← script name
  let id ← issue
  let p : Instance :=
    { id, script, index := 0, values := .ofList ((input.bind Value.entries?).getD []), parent,
      depth := spawnLimit - levels, entered := [] }
  match levels with
  | 0 => enter p none
  | levels + 1 => enter p (some fun name => start levels name none (some id))

/-- How an instance spawns processes. -/
def spawner (p : Instance) : Option (String → Run Snapshot) :=
  match spawnLimit - p.depth with
  | 0 => none
  | levels + 1 => some fun name => start levels name none (some p.id)

/-- Ends a process. -/
def finish (p : Instance) (step : String) (cancelled : Bool) : Run Snapshot := do
  modify (·.remove p.id)
  pure (p.lastSnapshot step cancelled)

/-- Shows the current step of a process, or ends the process if it has gone past the last. -/
def settle (p : Instance) (step : String) : Run Snapshot :=
  if p.script.steps.length ≤ p.index then finish p step false else enter p (spawner p)

/-- Lets a process go on with the parameters of a snapshot. If only a field has changed, the
values are taken unchecked and the process stays on its step. -/
def advance (p : Instance) (s : Snapshot) (fieldChanged : Bool) : Run Snapshot := do
  match p.script.steps[p.index]? with
  | none => throw (.fault ("Process '" ++ p.script.name ++ "' is out of steps"))
  | some step =>
    let values := s.parameters.foldl (fun values q => values.insert q.name q.value) p.values
    if fieldChanged then settle { p with values } s.step
    else
      match step.validate values with
      | .error e => throw e
      | .ok () => settle { p with values, index := p.index + 1 } s.step

/-- Lets a process return to the step before. -/
def goBack (p : Instance) (s : Snapshot) : Run Snapshot :=
  if p.index = 0 || !(p.script.steps[p.index]?).any (·.canRollback) then
    throw (.rejected "Rollback is not possible here")
  else settle { p with index := p.index - 1 } s.step

/-- Lets the process of a snapshot do what is asked for. -/
def proceed (s : Snapshot) (mode : Mode) (fieldChanged : Bool) : Run Snapshot := do
  let server ← get
  match server.instance? s.id with
  | none => throw (.fault ("Unknown process instance " ++ s.id.text))
  | some p =>
    match mode with
    | .cancel => finish p s.step true
    | .reload => settle p s.step
    | .rollback => goBack p s
    | .execute => advance p s fieldChanged

/-- The request tells that a field has changed. -/
def fieldChanged (event : Option Interaction) : Bool := event.any (·.kind = .fieldChanged)

/-- Executes a request. -/
def execute (request : Request) : Run Snapshot := do
  modify fun server => { server with executed := server.executed ++ [request.mode] }
  let server ← get
  match server.injected with
  | e :: rest =>
    set { server with injected := rest }
    throw e
  | [] =>
    match request with
    | .start d => start spawnLimit d.name d.input none
    | .continue s mode event => proceed s mode (fieldChanged event)

end Server

end Stepwise
