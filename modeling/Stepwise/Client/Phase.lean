/-
# Phases and outcomes

Where a client stands in the life of its process, and what can come of an operation on it.

    idle → running → (interacting ⇄ running) → finished
                                             ↘ failed

* `Phase` : idle, running, interacting, and the two terminal phases;
* `Outcome`, `IgnoreReason` : what an accepted operation did;
* `ActionSet` : the actions that are offered to the user.
-/

namespace Stepwise

/-- Where a client stands in the life of its process. -/
inductive Phase where
  /-- Nothing has been sent. -/
  | idle
  /-- A request is under way and no step is shown. -/
  | running
  /-- A step is shown and waits for the user. -/
  | interacting
  /-- The process is over. -/
  | finished
  /-- The process was ended by an unrecoverable error. -/
  | failed
deriving DecidableEq, Inhabited

namespace Phase

/-- The phase is the last one. -/
def isTerminal : Phase → Bool
  | .finished => true
  | .failed => true
  | _ => false

/-- The phase as shown in messages. -/
def text : Phase → String
  | .idle => "idle"
  | .running => "running"
  | .interacting => "interacting"
  | .finished => "finished"
  | .failed => "failed"

end Phase

/-- Why an operation was accepted without an effect. -/
inductive IgnoreReason where
  /-- A request is under way. -/
  | locked
  /-- The step needs input that the user has not given. -/
  | awaitingInput
  /-- A question is open. -/
  | awaitingConfirmation
  | rollbackUnavailable
  /-- A cancel was sent or deferred before. -/
  | alreadyCancelling
  /-- No paused step goes on by itself. -/
  | nothingToResume
deriving DecidableEq, Inhabited

/-- The reason as shown to the user. -/
def IgnoreReason.text : IgnoreReason → String
  | .locked => "Locked"
  | .awaitingInput => "AwaitingInput"
  | .awaitingConfirmation => "AwaitingConfirmation"
  | .rollbackUnavailable => "RollbackUnavailable"
  | .alreadyCancelling => "AlreadyCancelling"
  | .nothingToResume => "NothingToResume"

/-- What came of an operation. -/
inductive Outcome where
  /-- A request was sent. -/
  | sent
  /-- A cancel was noted and is sent after the response that is under way. -/
  | deferred
  /-- A question was asked. -/
  | awaitingConfirmation
  /-- An edit was noted. -/
  | recorded
  | ignored (reason : IgnoreReason)
deriving DecidableEq, Inhabited

/-- The actions that are offered to the user. -/
structure ActionSet where
  next : Bool
  previous : Bool
  cancel : Bool
  reload : Bool
deriving DecidableEq, Inhabited

/-- No action is offered. -/
def ActionSet.none : ActionSet := ⟨false, false, false, false⟩

end Stepwise
