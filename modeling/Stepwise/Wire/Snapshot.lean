/-
# Snapshots as documents

The document form of modes, viewports, descriptors, parameters and snapshots. Every field of
a snapshot after its step may be left out.

* `Snapshot.toJson`, `Snapshot.ofJson?` : writing and reading, children included.
-/
import Stepwise.Process.Snapshot
import Stepwise.Wire.Record

namespace Stepwise

namespace Mode

/-- The name of a mode in documents. -/
def name : Mode → String
  | .execute => "EXECUTE"
  | .rollback => "ROLLBACK"
  | .cancel => "CANCEL"
  | .reload => "RELOAD"

def ofName? (name : String) : Option Mode :=
  if name = "EXECUTE" then some .execute
  else if name = "ROLLBACK" then some .rollback
  else if name = "CANCEL" then some .cancel
  else if name = "RELOAD" then some .reload
  else none

def toJson (m : Mode) : Json := .str m.name

def ofJson? (reading : Json.Reading) (j : Json) : Option Mode :=
  (j.choice? reading).bind ofName?

end Mode

namespace Viewport

def fields : List String := ["width", "height"]

def toJson (v : Viewport) : Json :=
  .obj [("width", .num (.int v.width.toNat)), ("height", .num (.int v.height.toNat))]

def ofJson? (j : Json) : Option Viewport := do
  let ms ← j.record? fields
  let width ← ms.required? "width" Json.uint32?
  let height ← ms.required? "height" Json.uint32?
  some ⟨width, height⟩

end Viewport

namespace Descriptor

def fields : List String := ["name", "input", "locale", "viewport"]

/-- An absent input is left out. -/
def toJson (d : Descriptor) : Json :=
  .obj ([("name", .str d.name)] ++ (d.input.map fun v => ("input", v.tree)).toList ++
    [("locale", .str d.locale), ("viewport", d.viewport.toJson)])

def ofJson? (j : Json) : Option Descriptor := do
  let ms ← j.record? fields
  let name ← ms.required? "name" Json.string?
  let input ← ms.optional? "input" none (Json.nullable? Json.value?)
  let locale ← ms.required? "locale" Json.string?
  let viewport ← ms.optional? "viewport" Viewport.none Viewport.ofJson?
  some ⟨name, input, locale, viewport⟩

end Descriptor

namespace Parameter

def fields : List String := ["name", "label", "value", "required", "modified"]

def toJson (p : Parameter) : Json :=
  .obj [("name", .str p.name), ("label", .str p.label), ("value", p.value.tree),
    ("required", .bool p.required), ("modified", .bool p.modified)]

def ofJson? (j : Json) : Option Parameter := do
  let ms ← j.record? fields
  let name ← ms.required? "name" Json.string?
  let label ← ms.optional? "label" "" Json.string?
  let value ← ms.optional? "value" Value.null Json.value?
  let required ← ms.optional? "required" false Json.bool?
  let modified ← ms.optional? "modified" false Json.bool?
  some ⟨name, label, value, required, modified⟩

end Parameter

namespace Snapshot

def fields : List String :=
  ["id", "process_name", "step", "parameters", "finished", "final_step", "auto_continue",
   "can_rollback", "has_immediate_interaction", "cancelled", "children", "properties"]

mutual
def toJson : Snapshot → Json
  | ⟨id, processName, step, parameters, finished, finalStep, autoContinue, canRollback,
      immediateInteraction, cancelled, children, properties⟩ =>
    .obj [("id", .str id.text), ("process_name", .str processName), ("step", .str step),
      ("parameters", .arr (parameters.map Parameter.toJson)),
      ("finished", .bool finished), ("final_step", .bool finalStep),
      ("auto_continue", .bool autoContinue), ("can_rollback", .bool canRollback),
      ("has_immediate_interaction", .bool immediateInteraction),
      ("cancelled", .bool cancelled), ("children", .arr (listToJson children)),
      ("properties", .ofTextMap properties)]
/-- The children of a snapshot as items. -/
def listToJson : List Snapshot → List Json
  | [] => []
  | s :: rest => toJson s :: listToJson rest
end

/-- The children of a snapshot are written one by one. -/
theorem listToJson_eq_map (ss : List Snapshot) : listToJson ss = ss.map toJson := by
  induction ss with
  | nil => rfl
  | cons s rest ih => rw [listToJson, ih, List.map_cons]

/-- The children in a tree are smaller than the tree. -/
theorem sizeOf_child_lt {j c : Json} {ms : Members} {items : List Json}
    (hms : j.record? fields = some ms) (hget : ms.get? "children" = some (.arr items))
    (hc : c ∈ items) : sizeOf c < sizeOf j := by
  have h₁ := Json.sizeOf_of_mem_record? hms (Members.mem_of_get? hget)
  have h₂ := List.sizeOf_lt_of_mem hc
  simp at h₁
  omega

def ofJson? (j : Json) : Option Snapshot :=
  match hms : j.record? fields with
  | none => none
  | some ms => do
    let id ← ms.required? "id" Json.uuid?
    let processName ← ms.required? "process_name" Json.string?
    let step ← ms.required? "step" Json.string?
    let parameters ← ms.optional? "parameters" [] (Json.list? Parameter.ofJson?)
    let finished ← ms.optional? "finished" false Json.bool?
    let finalStep ← ms.optional? "final_step" false Json.bool?
    let autoContinue ← ms.optional? "auto_continue" false Json.bool?
    let canRollback ← ms.optional? "can_rollback" false Json.bool?
    let immediateInteraction ← ms.optional? "has_immediate_interaction" false Json.bool?
    let cancelled ← ms.optional? "cancelled" false Json.bool?
    let children ←
      (match hget : ms.get? "children" with
      | none => some []
      | some (.arr items) =>
        Json.eachOf? items fun c hc =>
          have := sizeOf_child_lt hms hget hc
          ofJson? c
      | some _ => none)
    let properties ← ms.optional? "properties" .empty Json.textMap?
    some ⟨id, processName, step, parameters, finished, finalStep, autoContinue, canRollback,
      immediateInteraction, cancelled, children, properties⟩
termination_by sizeOf j

end Snapshot

end Stepwise
