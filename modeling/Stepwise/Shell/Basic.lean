/-
# The shell

The shell stands between the user and the server. It owns the client of the main process, and
draws the panels around the process. Requests of the clients wait in the shell until they are
executed, and events until they are handled.

* `Shell` : the state of the shell;
* `Shell.Run` : a computation on it, which may end in an error, or not come to rest;
* `Shell.draw`, `Shell.act`, `Shell.raise`, `Shell.refresh` : its elements.
-/
import Stepwise.Client.Tree
import Stepwise.Process.Settings
import Stepwise.Service.Basic
import Stepwise.Shell.Panel

namespace Stepwise

/-- Where a shell stands. -/
inductive ShellPhase where
  /-- It waits for credentials. -/
  | loggedOut
  /-- A user is logged in and the main process runs. -/
  | active
  /-- The main process has failed, and the user can only log out. -/
  | failed
deriving DecidableEq, Inhabited

/-- A shell with panels `V` over a server with states `σ`. -/
structure Shell (V σ : Type) where
  settings : Settings
  services : Services σ
  server : σ
  desk : Desk
  phase : ShellPhase
  /-- The client of the main process. -/
  client : Option (Client V)
  /-- The requests that wait, the oldest first. -/
  pending : List Dispatch
  /-- The events that wait, the oldest first. -/
  events : List (LifecycleEvent ClientId)
  /-- The number of process panels that were opened. -/
  opened : Nat
  /-- All calls to the screen so far. -/
  drawn : List ScreenCall

namespace Shell

variable {V σ : Type}

/-- A shell that shows the login panel. -/
def start (settings : Settings) (services : Services σ) (server : σ) : Shell V σ where
  settings
  services
  server
  desk := .empty
  phase := .loggedOut
  client := none
  pending := []
  events := []
  opened := 0
  drawn := (loginCalls none).map .panel

/-- The user who is logged in. -/
def user (shell : Shell V σ) : Option User := shell.desk.session.user

/-- The actions that are offered to the user. -/
def availableActions (shell : Shell V σ) : ActionSet :=
  match shell.client with
  | some c => c.availableActions
  | none => .none

/-- A computation on a shell. What it did before an error stays done. There is no result if the
clients and the server did not come to rest in the rounds that they were given. -/
abbrev Run (V σ α : Type) := ExceptT ShellError (StateT (Shell V σ) Option) α

/-- Carries out a computation; gives its result and the shell after it. -/
def run {α : Type} (shell : Shell V σ) (act : Run V σ α) :
    Option (Except ShellError α × Shell V σ) :=
  StateT.run (ExceptT.run act) shell

/-- Calls the container of the panels. -/
def draw (calls : List PanelCall) : Run V σ Unit :=
  modify fun shell => { shell with drawn := shell.drawn ++ calls.map .panel }

/-- The shell with the effects of its clients: calls are drawn, requests and events wait. -/
def absorb (shell : Shell V σ) (effects : List Effect) : Shell V σ :=
  effects.foldl (fun shell effect => match effect with
    | .call id call found =>
      { shell with drawn := shell.drawn ++ [.view id.place call found] }
    | .dispatch d => { shell with pending := shell.pending ++ [d] }
    | .event e => { shell with events := shell.events ++ [e] }) shell

/-- Calls a service of the server. -/
def request {α : Type} (call : Service σ α) : Run V σ (Except ServiceError α) := do
  let shell ← get
  let (result, server) := call shell.server
  set { shell with server }
  pure result

/-- Lets a client take a step and takes its effects. -/
def act {α : Type} (step : Act V α) (c : Client V) :
    Run V σ (Except ClientError α × Client V) := do
  let t := step.run .open c
  modify (·.absorb t.effects)
  pure (t.result, t.client)

/-- Tells a panel something. -/
def raise (panel : Panel) (n : Notice) : Run V σ Unit := do
  let shell ← get
  let (result, desk) := panel.raise n shell.desk
  set { shell with desk }
  match result with
  | .ok () => pure ()
  | .error e => throw e

/-- Shows a message. -/
def push (text : String) : Run V σ Unit :=
  modify fun shell => { shell with desk := shell.desk.push text }

/-- Draws toolbar and messages anew, and removes the login panel while somebody is logged in. -/
def refresh : Run V σ Unit := do
  let shell ← get
  let loggedIn := decide (shell.phase ≠ .loggedOut)
  draw (toolbarCalls shell.availableActions loggedIn)
  draw (messageCalls shell.desk.messages)
  if loggedIn then draw hideLoginCalls

end Shell

end Stepwise
