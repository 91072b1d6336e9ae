/-
# Clients

A client drives one process. Its operations are steps of a state machine: they change the
client and leave effects behind, calls to its panel, requests to be executed and lifecycle
events, in the order in which they happen. Whoever executes a request feeds the response
back to the client. At most one request of a client is under way; while it is, the client is
locked.

* `ClientState`, `Client` : the state of a client, and with it the clients of child processes;
* `Effect` : what it leaves behind;
* `Act` : a step that can be refused on the way, keeping what it did before.
-/
import Stepwise.Client.Error
import Stepwise.Process.Request
import Stepwise.Process.ServiceError
import Stepwise.View.Basic

namespace Stepwise

/-- A request of a client that waits to be executed. -/
structure Dispatch where
  client : ClientId
  request : Request

/-- What a client does to the world around it. -/
inductive Effect where
  /-- A call to the client's panel, with the panel's answer. -/
  | call (client : ClientId) (call : ViewCall) (found : Bool)
  | dispatch (d : Dispatch)
  | event (e : LifecycleEvent ClientId)

/-- Who listens to the clients of a tree. -/
structure Channels where
  /-- Requests are taken; without a taker none can be sent. -/
  dispatchOpen : Bool
  /-- Events are heard; without a hearer they are lost. -/
  eventsOpen : Bool
deriving DecidableEq, Inhabited

/-- Everybody listens. -/
def Channels.open : Channels := ⟨true, true⟩

/-- Step, style and fields of a snapshot: what decides if a panel can be updated in place. -/
structure Layout where
  step : String
  style : Option String
  fields : List String
deriving DecidableEq, Inhabited

/-- The layout of a snapshot. -/
def Layout.ofSnapshot (s : Snapshot) : Layout := ⟨s.step, s.style, s.parameters.map (·.name)⟩

/-- What a client with a panel of type `V` knows of its own process. -/
structure ClientState (V : Type) where
  id : ClientId
  parent : Option ClientId
  phase : Phase
  /-- The latest snapshot, with the user's edits. -/
  current : Option Snapshot
  /-- The layout for which the panel was last built or updated. -/
  rendered : Option Layout
  /-- A request is under way. -/
  locked : Bool
  /-- The request under way is the one that starts the process. -/
  awaitingStart : Bool
  /-- A cancel waits for the response under way. -/
  pendingCancel : Bool
  /-- A cancel was sent. -/
  cancelSent : Bool
  cancelled : Bool
  /-- The question whether to cancel is open. -/
  awaitingConfirmation : Bool
  autoContinuePaused : Bool
  /-- The pause began only because the question was asked. -/
  pausedByConfirmation : Bool
  /-- The number of child panels that were opened. -/
  opened : Nat
  view : V

/-- A client with the clients of the child processes that run. -/
structure Client (V : Type) extends ClientState V where
  children : List (Client V)

/-- A client that has done nothing. -/
def Client.idle {V : Type} (id : ClientId) (view : V) : Client V where
  id
  parent := none
  phase := .idle
  current := none
  rendered := none
  locked := false
  awaitingStart := false
  pendingCancel := false
  cancelSent := false
  cancelled := false
  awaitingConfirmation := false
  autoContinuePaused := false
  pausedByConfirmation := false
  opened := 0
  view
  children := []

/-- The client with the user's choice whether steps go on by themselves. -/
def Client.withAutoContinue {V : Type} (c : Client V) (enabled : Bool) : Client V :=
  { c with autoContinuePaused := !enabled }

/-! ## Steps -/

/-- What a step of a client leaves: a result or a refusal, the client, and the effects. -/
structure Turn (V α : Type) where
  result : Except ClientError α
  client : Client V
  effects : List Effect

/-- A step of a client. A refusal ends the step but does not undo what it did. -/
def Act (V α : Type) := Channels → Client V → Turn V α

namespace Act

variable {V α β : Type}

/-- Runs a step. -/
def run (a : Act V α) (ch : Channels) (c : Client V) : Turn V α := a ch c

/-- The step that does nothing. -/
def pure (x : α) : Act V α := fun _ c => ⟨.ok x, c, []⟩

/-- One step after the other, unless the first is refused. -/
def bind (a : Act V α) (f : α → Act V β) : Act V β := fun ch c =>
  let t := a ch c
  match t.result with
  | .ok x =>
    let u := f x ch t.client
    ⟨u.result, u.client, t.effects ++ u.effects⟩
  | .error e => ⟨.error e, t.client, t.effects⟩

instance : Monad (Act V) where
  pure := pure
  bind := bind

/-- The client. -/
def get : Act V (Client V) := fun _ c => ⟨.ok c, c, []⟩

/-- Changes the client. -/
def modify (f : Client V → Client V) : Act V Unit := fun _ c => ⟨.ok (), f c, []⟩

/-- Refuses. -/
def refuse (e : ClientError) : Act V α := fun _ c => ⟨.error e, c, []⟩

/-- Calls the client's panel. -/
def call [ProcessView V] (call : ViewCall) : Act V Bool := fun _ c =>
  let (found, view) := ProcessView.perform c.view call
  ⟨.ok found, { c with view }, [.call c.id call found]⟩

/-- Calls the client's panel, whatever it answers. -/
def tell [ProcessView V] (call : ViewCall) : Act V Unit := bind (Act.call call) fun _ => pure ()

/-- Tells an event to those who hear it. -/
def emit (e : LifecycleEvent ClientId) : Act V Unit := fun ch c =>
  ⟨.ok (), c, if ch.eventsOpen then [.event e] else []⟩

/-- Hands a request to those who take it; refuses if nobody does. -/
def hand (request : Request) : Act V Unit := fun ch c =>
  if ch.dispatchOpen then ⟨.ok (), c, [.dispatch ⟨c.id, request⟩]⟩
  else ⟨.error .channelClosed, c, []⟩

/-! ### What a step does, by its last part -/

@[simp] theorem run_pure (x : α) (ch : Channels) (c : Client V) :
    run (Pure.pure x : Act V α) ch c = ⟨.ok x, c, []⟩ := rfl

theorem run_bind (a : Act V α) (f : α → Act V β) (ch : Channels) (c : Client V) :
    run (a >>= f) ch c =
      match (run a ch c).result with
      | .ok x => ⟨(run (f x) ch (run a ch c).client).result, (run (f x) ch (run a ch c).client).client,
          (run a ch c).effects ++ (run (f x) ch (run a ch c).client).effects⟩
      | .error e => ⟨.error e, (run a ch c).client, (run a ch c).effects⟩ := rfl

@[simp] theorem run_get (ch : Channels) (c : Client V) : run get ch c = ⟨.ok c, c, []⟩ := rfl

@[simp] theorem run_modify (f : Client V → Client V) (ch : Channels) (c : Client V) :
    run (modify f) ch c = ⟨.ok (), f c, []⟩ := rfl

@[simp] theorem run_refuse (e : ClientError) (ch : Channels) (c : Client V) :
    run (refuse e : Act V α) ch c = ⟨.error e, c, []⟩ := rfl

@[simp] theorem run_emit (e : LifecycleEvent ClientId) (ch : Channels) (c : Client V) :
    run (emit e) ch c = ⟨.ok (), c, if ch.eventsOpen then [.event e] else []⟩ := rfl

@[simp] theorem run_call [ProcessView V] (v : ViewCall) (ch : Channels) (c : Client V) :
    run (call v) ch c =
      ⟨.ok (ProcessView.perform c.view v).1, { c with view := (ProcessView.perform c.view v).2 },
        [.call c.id v (ProcessView.perform c.view v).1]⟩ := rfl

@[simp] theorem run_tell [ProcessView V] (v : ViewCall) (ch : Channels) (c : Client V) :
    run (tell v) ch c =
      ⟨.ok (), { c with view := (ProcessView.perform c.view v).2 },
        [.call c.id v (ProcessView.perform c.view v).1]⟩ := rfl

/-- Without a taker nothing is handed over. -/
theorem run_hand (request : Request) (ch : Channels) (c : Client V) :
    run (hand request) ch c =
      if ch.dispatchOpen then ⟨.ok (), c, [.dispatch ⟨c.id, request⟩]⟩
      else ⟨.error .channelClosed, c, []⟩ := rfl

end Act

end Stepwise
