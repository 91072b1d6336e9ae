/-
# Refused operations

* `ClientId` : the name of a client, which is the place of its panel;
* `Operation` : the operations that a phase can rule out;
* `ClientError` : why an operation was refused, and `ClientError.message`.
-/
import Stepwise.Client.Phase

namespace Stepwise

/-- The name of a client: the place of its panel on the screen. Siblings have panels at
different places, so names are distinct. The empty place names no client. -/
structure ClientId where
  place : List Nat
deriving DecidableEq, Inhabited

namespace ClientId

/-- The client of the n-th process panel. -/
def root (n : Nat) : ClientId := ⟨[n]⟩

/-- The client of the n-th child panel of a client. -/
def child (id : ClientId) (n : Nat) : ClientId := ⟨id.place ++ [n]⟩

/-- The place as text. -/
def text (id : ClientId) : String := ".".intercalate (id.place.map toString)

end ClientId

/-- The operations that a phase can rule out. -/
inductive Operation where
  | start
  | attach
  | edit
  | submit
  | advance
  | rollback
  | reload
  | cancel
  | confirm
  /-- Sending a request for the process, on behalf of another operation. -/
  | proceed
deriving DecidableEq

/-- The operation as shown in messages. -/
def Operation.phrase : Operation → String
  | .start => "start"
  | .attach => "attach"
  | .edit => "edit a parameter"
  | .submit => "submit an interaction"
  | .advance => "advance"
  | .rollback => "roll back"
  | .reload => "reload"
  | .cancel => "cancel"
  | .confirm => "answer a confirmation"
  | .proceed => "continue"

/-- Why an operation was refused. -/
inductive ClientError where
  /-- The phase rules the operation out. -/
  | invalidPhase (operation : Operation) (phase : Phase)
  /-- The phase is terminal. -/
  | closed (phase : Phase)
  /-- The step has no parameter with the name. -/
  | unknownParameter (name : String)
  /-- No client has the name any more. -/
  | unknownClient (id : ClientId)
  /-- Nobody takes requests any more. -/
  | channelClosed
deriving DecidableEq

/-- The message of a refusal, clients called by `name`. -/
def ClientError.message (name : ClientId → String) : ClientError → String
  | .invalidPhase operation phase =>
    "Cannot " ++ operation.phrase ++ " while the client is " ++ phase.text
  | .closed phase => "The process is " ++ phase.text ++ " and accepts no further requests"
  | .unknownParameter parameter => "Unknown parameter: " ++ parameter
  | .unknownClient id => "Unknown client: " ++ name id
  | .channelClosed => "Dispatch channel closed"

/-- Names of children of one client differ if their numbers do. -/
theorem ClientId.child_injective (id : ClientId) {m n : Nat} (h : id.child m = id.child n) :
    m = n := by
  simpa [ClientId.child] using h

end Stepwise
