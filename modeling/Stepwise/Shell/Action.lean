/-
# Actions of the user

What a user can ask of the shell. Logging in starts the main process; every action for the
process is followed by the request cycle.

* `ShellAction` : the actions, and the buttons behind them;
* `Shell.login`, `Shell.logout`, `Shell.lastUser?`, `Shell.handle` : what the shell does.
-/
import Stepwise.Shell.Pump

namespace Stepwise

/-- An action of the user for the main process, or the end of the session. -/
inductive ShellAction where
  | next
  | previous
  | cancel
  | reload
  /-- The answer to the question whether to cancel. -/
  | confirm (accepted : Bool)
  /-- Edit a field; nothing is sent. -/
  | edit (name : String) (value : Value)
  /-- Edit a field and submit the step. -/
  | submit (name : String) (value : Value)
  | pause
  | resume
  | logout

/-- The action behind a button. -/
def ShellAction.ofButton? : String → Option ShellAction
  | "next" => some .next
  | "previous" => some .previous
  | "cancel" => some .cancel
  | "reload" => some .reload
  | "logout" => some .logout
  | "yes" => some (.confirm true)
  | "no" => some (.confirm false)
  | _ => none

namespace Shell

variable {V σ : Type} [Toolkit V]

/-- The key under which the last user is stored. -/
def lastUserKey : String := "last_user"

/-- The result of a client, or its refusal as an error of the shell. -/
def ofClient {α : Type} : Except ClientError α → Run V σ α
  | .ok x => pure x
  | .error e => throw (.client e)

/-- The descriptor of the main process for a user. -/
def descriptor (settings : Settings) (user : User) : Descriptor where
  name := settings.mainProcess
  input := none
  locale := user.locale.getD settings.locale
  viewport := settings.viewport

/-- Starts the main process. -/
def startMain : Run V σ Unit := do
  let shell ← get
  match shell.user with
  | none => throw .notLoggedIn
  | some user =>
    let d := descriptor shell.settings user
    draw [.openProcess d.name]
    modify fun shell => { shell with opened := shell.opened + 1 }
    let c := (Client.idle (.root shell.opened) (Toolkit.processPanel d.name)).withAutoContinue
      shell.settings.autoContinue
    let (outcome, c) ← act (Act.start d) c
    let _ ← ofClient outcome
    modify fun shell => { shell with client := some c }
    refresh

/-- Remembers the user, if the server stores anything. -/
def rememberUser (user : User) : Run V σ Unit := do
  let shell ← get
  match shell.services.storage? with
  | some storage =>
    let _ ← request (storage.put lastUserKey user.userId)
  | none => pure ()

/-- Logs a user in and runs the main process until nothing waits. The reason of a rejection is
shown on the login panel. -/
def login (rounds : Nat) (c : Credentials) : Run V σ Unit := do
  let shell ← get
  if shell.phase ≠ .loggedOut then throw .alreadyLoggedIn
  match shell.services.authentication? with
  | none => throw (.missingCapability .authentication)
  | some authentication =>
    match ← request (authentication.login c) with
    | .error e =>
      draw (loginCalls (some e.message))
      throw (.service e)
    | .ok user =>
      rememberUser user
      modify fun shell =>
        { shell with desk := { shell.desk with session := .ofUser user }, phase := .active }
      draw hideLoginCalls
      startMain
      pump rounds

/-- The user who logged in last. -/
def lastUser? : Run V σ (Option String) := do
  let shell ← get
  match shell.services.storage? with
  | none => throw (.missingCapability .storage)
  | some storage =>
    match ← request (storage.get lastUserKey) with
    | .ok user => pure user
    | .error e => throw (.service e)

/-- Ends the session. -/
def logout : Run V σ Unit := do
  let shell ← get
  if shell.phase = .loggedOut then throw .notLoggedIn
  raise .toolbar .logout
  closeSession shell.user

/-- Lets the client of the main process take a step. -/
def operate {α : Type} (step : Act V α) : Run V σ α := do
  let shell ← get
  match shell.client with
  | none => throw .noActiveProcess
  | some c =>
    let (outcome, c) ← act step c
    modify fun shell => { shell with client := some c }
    ofClient outcome

/-- What the client of the main process does for an action; none if it is not concerned. -/
def operation? : ShellAction → Option (Act V Outcome)
  | .next => some Act.advance
  | .previous => some Act.rollback
  | .cancel => some Act.cancel
  | .reload => some Act.reload
  | .confirm accepted => some (Act.answer accepted)
  | .edit name value => some (Act.recordEdit name value)
  | .submit name value => some (Act.submit [(name, value)] ⟨.action, name⟩)
  | .pause => some do
    Act.pause
    pure .recorded
  | .resume => some Act.resume
  | .logout => none

/-- Does what the user asks for, until nothing waits. -/
def handle (rounds : Nat) (action : ShellAction) : Run V σ Outcome := do
  match operation? action with
  | some step =>
    let outcome ← operate step
    pump rounds
    pure outcome
  | none =>
    logout
    pure .sent

end Shell

end Stepwise
