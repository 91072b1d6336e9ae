/-
# Validation of submitted values

Before a process leaves a step, its values are checked against the parameters of the step.
A required parameter needs a value; a value has to follow the rule of its parameter, if there
is one; a missing value follows every rule.

* `Complaint` : what can be wrong with a value;
* `ScriptParameter.complaint?` : what is wrong with a value of the parameter;
* `ScriptStep.validate` : the error that names every parameter with a wrong value.
-/
import Stepwise.Number.Decimal
import Stepwise.Process.Script
import Stepwise.Process.ServiceError

namespace Stepwise

/-- What can be wrong with a value. -/
inductive Complaint where
  | missing
  | notNumber
  | notPositive
deriving DecidableEq

/-- The complaint as shown at the field. -/
def Complaint.text : Complaint → String
  | .missing => "is required"
  | .notNumber => "must be a number"
  | .notPositive => "must be positive"

/-- The number that a value denotes: a number, or a text that reads as one. -/
def Value.number? (v : Value) : Option Binary64 :=
  match v.tree with
  | .num n => some n.toBinary64
  | .str s => Binary64.ofText? (Text.trim s)
  | _ => none

/-- What is wrong with a value under a rule. -/
def Rule.complaint? (rule : Rule) (v : Value) : Option Complaint :=
  match rule, v.number? with
  | _, none => some .notNumber
  | .number, some _ => none
  | .positive, some x => if x.isAtMostZero then some .notPositive else none

/-- What is wrong with a value of the parameter. -/
def ScriptParameter.complaint? (p : ScriptParameter) (v : Value) : Option Complaint :=
  if v.isEmpty then if p.required then some .missing else none
  else p.rule.bind (·.complaint? v)

namespace ScriptStep

/-- The complaints about the values of a step, in the order of its parameters. A value that was
never submitted is absent. -/
def complaints (step : ScriptStep) (values : KeyMap Value) : List (String × Complaint) :=
  step.parameters.filterMap fun p =>
    (p.complaint? ((values.get? p.name).getD .null)).map (p.name, ·)

/-- Checks the values of a step. The error has a message for every field with a complaint; of
several complaints about one field the last counts. -/
def validate (step : ScriptStep) (values : KeyMap Value) : Except ServiceError Unit :=
  match step.complaints values with
  | [] => .ok ()
  | complaints =>
    .error (complaints.foldl (fun e c => e.withFieldError c.1 c.2.text)
      (.rejected "Validation failed"))

end ScriptStep

end Stepwise
