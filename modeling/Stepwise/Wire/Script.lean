/-
# Scripts as documents

* `Script.toJson`, `Script.ofJson?` : of a script only name and steps have to be given, of a
  step only its name.
-/
import Stepwise.Process.Script
import Stepwise.Wire.Record

namespace Stepwise

namespace Rule

/-- The name of a rule in documents. -/
def name : Rule → String
  | .number => "number"
  | .positive => "positive"

def ofName? (name : String) : Option Rule :=
  if name = "number" then some .number
  else if name = "positive" then some .positive
  else none

def ofJson? (j : Json) : Option Rule := (j.choice? .direct).bind ofName?

end Rule

namespace ScriptParameter

def fields : List String := ["name", "label", "default", "required", "rule"]

/-- An absent rule is left out. -/
def toJson (p : ScriptParameter) : Json :=
  .obj ([("name", .str p.name), ("label", .str p.label), ("default", p.default.tree),
    ("required", .bool p.required)] ++ (p.rule.map fun r => ("rule", .str r.name)).toList)

def ofJson? (j : Json) : Option ScriptParameter := do
  let ms ← j.record? fields
  let name ← ms.required? "name" Json.string?
  let label ← ms.optional? "label" "" Json.string?
  let default ← ms.optional? "default" Value.null Json.value?
  let required ← ms.optional? "required" false Json.bool?
  let rule ← ms.optional? "rule" none (Json.nullable? Rule.ofJson?)
  some ⟨name, label, default, required, rule⟩

end ScriptParameter

namespace ScriptStep

def fields : List String :=
  ["step", "style", "parameters", "auto-continue", "can-rollback", "immediate-interaction",
   "spawn"]

/-- An absent style is left out. -/
def toJson (s : ScriptStep) : Json :=
  .obj ([("step", .str s.step)] ++ (s.style.map fun t => ("style", .str t)).toList ++
    [("parameters", .arr (s.parameters.map ScriptParameter.toJson)),
     ("auto-continue", .bool s.autoContinue), ("can-rollback", .bool s.canRollback),
     ("immediate-interaction", .bool s.immediateInteraction),
     ("spawn", .arr (s.spawn.map .str))])

def ofJson? (j : Json) : Option ScriptStep := do
  let ms ← j.record? fields
  let step ← ms.required? "step" Json.string?
  let style ← ms.optional? "style" none (Json.nullable? Json.string?)
  let parameters ← ms.optional? "parameters" [] (Json.list? ScriptParameter.ofJson?)
  let autoContinue ← ms.optional? "auto-continue" false Json.bool?
  let canRollback ← ms.optional? "can-rollback" false Json.bool?
  let immediateInteraction ← ms.optional? "immediate-interaction" false Json.bool?
  let spawn ← ms.optional? "spawn" [] (Json.list? Json.string?)
  some ⟨step, style, parameters, autoContinue, canRollback, immediateInteraction, spawn⟩

end ScriptStep

namespace Script

def fields : List String := ["name", "description", "steps"]

def toJson (s : Script) : Json :=
  .obj [("name", .str s.name), ("description", .str s.description),
    ("steps", .arr (s.steps.map ScriptStep.toJson))]

def ofJson? (j : Json) : Option Script := do
  let ms ← j.record? fields
  let name ← ms.required? "name" Json.string?
  let description ← ms.optional? "description" "" Json.string?
  let steps ← ms.required? "steps" (Json.list? ScriptStep.ofJson?)
  some ⟨name, description, steps⟩

end Script

end Stepwise
