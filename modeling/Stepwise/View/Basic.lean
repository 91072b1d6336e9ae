/-
# Panels of processes

A client draws nothing itself. It calls the panel of its process, and the panel answers
whether it has the field that a call names. A toolkit is anything that can carry out these
calls.

* `ViewCall` : the calls;
* `ProcessView` : what a toolkit provides for one process;
* `Toolkit` : the panels of processes, from the first on.
-/
import Stepwise.Process.Snapshot

namespace Stepwise

/-- What is shown when a process stops. -/
inductive Summary where
  /-- The process is over. -/
  | completed (processName step : String) (cancelled : Bool)
  /-- The process was ended by an unrecoverable error. -/
  | failed (processName message : String)
deriving DecidableEq

/-- The summary of a process that is over. -/
def Summary.ofSnapshot (s : Snapshot) : Summary := .completed s.processName s.step s.cancelled

/-- A question that the user answers with yes or no. -/
inductive Question where
  | cancelProcess (processName : String)
deriving DecidableEq

/-- A call of a client to the panel of its process. -/
inductive ViewCall where
  /-- Build the whole panel for a snapshot. -/
  | render (s : Snapshot)
  /-- Show a new value in a field that is there already. -/
  | updateField (p : Parameter)
  /-- Show a message at a field. -/
  | showFieldError (field message : String)
  /-- Show a message that belongs to no field. -/
  | showMessage (text : String)
  /-- Lock or unlock the input. -/
  | setBusy (busy : Bool)
  | showSummary (s : Summary)
  | ask (q : Question)
  /-- Open the panel of a child process. -/
  | openChild (s : Snapshot)

/-- What a toolkit provides for a process: the states `V` of its panel. -/
class ProcessView (V : Type) where
  /-- Carries out a call. The answer is false if the panel lacks the field that is named. -/
  perform : V → ViewCall → Bool × V
  /-- The panel of a child process that the panel opens. -/
  childPanel : V → Snapshot → V

/-- A toolkit: the panels `V` of processes, and how one is opened. -/
class Toolkit (V : Type) extends ProcessView V where
  /-- A new panel for the process with a name. -/
  processPanel : String → V

end Stepwise
