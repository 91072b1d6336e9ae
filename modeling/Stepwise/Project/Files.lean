/-
# The files of a project

A project keeps its settings in a TOML file and every script in a YAML file of its own.

* `Settings.ofFile?` : the settings that a text describes;
* `Script.ofFile?` : the script that a text describes.
-/
import Stepwise.Toml.Document
import Stepwise.Wire.Script
import Stepwise.Wire.Settings
import Stepwise.Yaml.Decode

namespace Stepwise

namespace Toml

mutual
/-- The value as a document tree. A date or a time is a record that no setting has. -/
def toJson : Toml → Json
  | .str s => .str s
  | .int n => .num (.int n)
  | .float x => .num (.float x)
  | .bool b => .bool b
  | .time text => .obj [("time", .str text)]
  | .arr items => .arr (allToJson items)
  | .table members => .obj (membersToJson members)
/-- Several values as trees. -/
def allToJson : List Toml → List Json
  | [] => []
  | v :: rest => v.toJson :: allToJson rest
/-- The members of a table as trees. -/
def membersToJson : List (String × Toml) → List (String × Json)
  | [] => []
  | (name, v) :: rest => (name, v.toJson) :: membersToJson rest
end

/-- The value as the tree of a record with so many fields. Of an array the items beyond the fields do
not count. -/
def toRecord (fields : Nat) : Toml → Json
  | .arr items => .arr (allToJson (items.take fields))
  | v => v.toJson

end Toml

/-- The setting that is a record. -/
def Settings.recordField : String := "viewport"

/-- Reads settings. -/
def Settings.ofFile? (s : String) : Option Settings :=
  (Toml.parse? s).bind fun members => ofJson? (.obj (members.map fun (name, v) =>
    (name, if name = recordField then v.toRecord Viewport.fields.length else v.toJson)))

open Yaml (Decoder Document Node)
open Yaml.Decoder

/-- Reads a rule. -/
def Rule.decode (doc : Document) (node : Node) : Decoder Rule := do
  ofName? (← choice doc node)

/-- Reads a parameter of a step. -/
def ScriptParameter.decode (doc : Document) (depth : Nat) (node : Node) :
    Decoder ScriptParameter := do
  let (fs, depth) ← Decoder.fields doc ScriptParameter.fields depth node
  let name ← Decoder.required fs "name" (text doc)
  let label ← withDefault fs "label" "" (text doc)
  let default ← withDefault fs "default" Value.null (value doc depth)
  let isRequired ← withDefault fs "required" false (bool doc)
  let rule ← withDefault fs "rule" none (optional doc (Rule.decode doc))
  pure ⟨name, label, default, isRequired, rule⟩

/-- Reads a step. -/
def ScriptStep.decode (doc : Document) (depth : Nat) (node : Node) : Decoder ScriptStep := do
  let (fs, depth) ← Decoder.fields doc ScriptStep.fields depth node
  let step ← Decoder.required fs "step" (text doc)
  let style ← withDefault fs "style" none (optional doc (text doc))
  let parameters ← withDefault fs "parameters" [] (list doc (ScriptParameter.decode doc) depth)
  let autoContinue ← withDefault fs "auto-continue" false (bool doc)
  let canRollback ← withDefault fs "can-rollback" false (bool doc)
  let immediateInteraction ← withDefault fs "immediate-interaction" false (bool doc)
  let spawn ← withDefault fs "spawn" [] (list doc (fun _ => text doc) depth)
  pure ⟨step, style, parameters, autoContinue, canRollback, immediateInteraction, spawn⟩

/-- Reads a script. -/
def Script.decode (doc : Document) (depth : Nat) (node : Node) : Decoder Script := do
  let (fs, depth) ← Decoder.fields doc Script.fields depth node
  let name ← Decoder.required fs "name" (text doc)
  let description ← withDefault fs "description" "" (text doc)
  let steps ← Decoder.required fs "steps" (list doc (ScriptStep.decode doc) depth)
  pure ⟨name, description, steps⟩

/-- Reads a script. -/
def Script.ofFile? (s : String) : Option Script := do
  let doc ← Document.ofText? s
  let root ← doc.root
  let (script, _) ← (Script.decode doc depthLimit root).run 0
  some script

end Stepwise
