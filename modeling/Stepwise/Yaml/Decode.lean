/-
# Values from YAML documents

How the nodes of a document are read as values. An alias is read as the node that it stands
for; what is read is limited in depth, and so is the number of aliases that are followed. An
empty plain scalar stands for an empty list.

* `Decoder` : what reads values from nodes;
* `text`, `bool`, `optional`, `list`, `fields`, `choice`, `value` : the kinds of values.
-/
import Stepwise.Yaml.Node
import Stepwise.Yaml.Plain

namespace Stepwise.Yaml

/-- What reads an `α`, counting the aliases that it follows. -/
abbrev Decoder (α : Type) := StateT Nat Option α

namespace Decoder

variable {α : Type}

/-- How many aliases may be followed for each part of a document. -/
def aliasLimit : Nat := 100

/-- The number of collections that may be inside of one another. -/
def depthLimit : Nat := 128

/-- The node itself, or the one that an alias stands for. -/
def follow (doc : Document) : Node → Decoder Node
  | .alias n => do
    let followed := (← get) + 1
    set followed
    if doc.size * aliasLimit < followed then failure
    else
      match doc.anchored.find? (·.1 == n) with
      | some (_, node) => pure node
      | none => failure
  | node => pure node

/-- A scalar as text, however it is written. -/
def text (doc : Document) (node : Node) : Decoder String := do
  match ← follow doc node with
  | .scalar _ _ s => pure s
  | _ => failure

/-- A truth value, written plain, or as a block with its tag. -/
def bool (doc : Document) (node : Node) : Decoder Bool := do
  match ← follow doc node with
  | .scalar tag style s =>
    if style = .plain || (style = .literal && tag = some (Plain.standardTag "bool")) then
      (Plain.bool? s : Option Bool)
    else failure
  | _ => failure

/-- A value that may be absent. -/
def optional (doc : Document) (decode : Node → Decoder α) (node : Node) :
    Decoder (Option α) := do
  let node ← follow doc node
  match node with
  | .scalar tag .plain s =>
    match tag with
    | some tag =>
      if tag = Plain.standardTag "null" then if Plain.isNull s then pure none else failure
      else return some (← decode node)
    | none => if s.isEmpty || Plain.isNull s then pure none else return some (← decode node)
  | node => return some (← decode node)

/-- The items of a list; they are read one level deeper. -/
def list (doc : Document) (decode : Nat → Node → Decoder α) (depth : Nat) (node : Node) :
    Decoder (List α) := do
  match ← follow doc node with
  | .sequence _ items =>
    match depth with
    | 0 => failure
    | depth + 1 => items.mapM (decode depth)
  | .scalar _ .plain "" => pure []
  | _ => failure

/-- The fields of a record by their names. -/
abbrev Fields := List (String × Node)

/-- The fields of a record and the depth of their values. A known field occurs once at most. -/
def fields (doc : Document) (known : List String) (depth : Nat) (node : Node) :
    Decoder (Fields × Nat) := do
  match ← follow doc node, depth with
  | .mapping _ pairs, depth + 1 =>
    let fs ← pairs.mapM fun (key, value) => return (← text doc key, value)
    if known.all fun name => fs.countP (·.1 == name) ≤ 1 then pure (fs, depth) else failure
  | _, _ => failure

/-- The field with a name. -/
def field? (fs : Fields) (name : String) : Option Node := (fs.find? (·.1 == name)).map (·.2)

/-- The value of a field that has to be there. -/
def required (fs : Fields) (name : String) (decode : Node → Decoder α) : Decoder α :=
  match field? fs name with
  | some node => decode node
  | none => failure

/-- The value of a field, or a default where the field is left out. -/
def withDefault (fs : Fields) (name : String) (default : α) (decode : Node → Decoder α) :
    Decoder α :=
  match field? fs name with
  | some node => decode node
  | none => pure default

/-- One of several names: a scalar, or a tag in front of nothing. -/
def choice (doc : Document) (node : Node) : Decoder String := do
  match ← follow doc node with
  | .scalar tag style s =>
    match tag.map String.toList with
    | some ('!' :: name) =>
      if style = .plain && (s.isEmpty || Plain.isNull s) then pure (String.ofList name)
      else failure
    | _ => pure s
  | _ => failure

/-- The tag names a choice. -/
def isChoice (tag : Option String) : Bool := tag.any (·.startsWith "!")

/-- A tree of any kind. -/
def tree (doc : Document) : (depth : Nat) → Node → Decoder Json
  | depth, node => do
    match ← follow doc node with
    | .scalar tag style s => (Plain.ofScalar? tag style s : Option Json)
    | .sequence tag items =>
      match depth with
      | 0 => failure
      | depth + 1 =>
        if isChoice tag then failure else return .arr (← items.mapM (tree doc depth))
    | .mapping tag pairs =>
      match depth with
      | 0 => failure
      | depth + 1 =>
        if isChoice tag then failure
        else
          return .obj (← pairs.mapM fun (key, value) =>
            return (← text doc key, ← tree doc depth value))
    | .alias _ => failure

/-- Free-form data. -/
def value (doc : Document) (depth : Nat) (node : Node) : Decoder Value :=
  return .ofTree (← tree doc depth node)

end Decoder

end Stepwise.Yaml
