/-
# Process scripts

A script describes a process as a list of steps, for a server that follows it step by step.

* `Script`, `ScriptStep`, `ScriptParameter` : the description;
* `Rule` : what a value has to be.
-/
import Stepwise.Json.Basic

namespace Stepwise

/-- What the value of a parameter has to be, if it has one. -/
inductive Rule where
  | number
  /-- A number above zero. -/
  | positive
deriving DecidableEq, Inhabited

/-- A parameter that a step asks for. -/
structure ScriptParameter where
  name : String
  label : String
  default : Value
  required : Bool
  rule : Option Rule
deriving Inhabited

/-- A step of a process. -/
structure ScriptStep where
  step : String
  style : Option String
  parameters : List ScriptParameter
  autoContinue : Bool
  canRollback : Bool
  immediateInteraction : Bool
  /-- The names of the processes that are spawned when the step is first entered. -/
  spawn : List String
deriving Inhabited

/-- A process as a list of steps. -/
structure Script where
  name : String
  description : String
  steps : List ScriptStep
deriving Inhabited

end Stepwise
