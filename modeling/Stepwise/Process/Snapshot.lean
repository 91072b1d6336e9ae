/-
# Process snapshots

What client and server exchange about one running process: the descriptor that starts it
and the snapshot that every round trip returns. A snapshot shows the step on which the
process stands, with the parameters that the user is asked for, and the processes that
entering the step has spawned.

* `Mode` : what the server is asked to do next;
* `Parameter`, `Snapshot` : the step and its parameters;
* `Snapshot.edit?` : a user's edit of one parameter.
-/
import Stepwise.Json.Basic
import Stepwise.Uuid

namespace Stepwise

/-- What a request asks the server to do. -/
inductive Mode where
  /-- Go on with the submitted parameters. -/
  | execute
  /-- Return to the step before. -/
  | rollback
  /-- Abort the process. -/
  | cancel
  /-- Show the current step once more. -/
  | reload
deriving DecidableEq, Inhabited

/-- The size of the area that a process is shown in. -/
structure Viewport where
  width : UInt32
  height : UInt32
deriving DecidableEq, Inhabited

/-- The viewport of a descriptor that names none. -/
def Viewport.none : Viewport := ⟨0, 0⟩

/-- The process to start. -/
structure Descriptor where
  name : String
  input : Option Value
  locale : String
  viewport : Viewport

/-- A named value that a step asks for. -/
structure Parameter where
  name : String
  label : String
  value : Value
  required : Bool
  /-- The user has edited the value since it was last sent. -/
  modified : Bool
deriving Inhabited

namespace Parameter

/-- A parameter with a name and a value only. -/
def ofValue (name : String) (value : Value) : Parameter := ⟨name, "", value, false, false⟩

/-- The label that is shown: the name stands in for an empty one. -/
def displayLabel (p : Parameter) : String := if p.label.isEmpty then p.name else p.label

/-- The parameter holds no usable value. -/
def isEmpty (p : Parameter) : Bool := p.value.isEmpty

/-- The parameter after an edit. -/
def edited (p : Parameter) (value : Value) : Parameter := { p with value, modified := true }

/-- The parameter without its mark. -/
def unmarked (p : Parameter) : Parameter := { p with modified := false }

end Parameter

/-- One round trip's view of a process. -/
structure Snapshot where
  id : Uuid
  processName : String
  step : String
  parameters : List Parameter
  finished : Bool
  /-- The last step before the process finishes. -/
  finalStep : Bool
  /-- The next step is asked for without waiting for the user. -/
  autoContinue : Bool
  canRollback : Bool
  /-- The step needs input to go on; it is cancelled without a question. -/
  immediateInteraction : Bool
  /-- The process was ended by a cancellation. -/
  cancelled : Bool
  /-- The processes that this step has spawned. -/
  children : List Snapshot
  properties : KeyMap String
deriving Inhabited

namespace Snapshot

/-- An unfinished snapshot on a step without parameters. -/
def ofStep (id : Uuid) (processName step : String) : Snapshot where
  id
  processName
  step
  parameters := []
  finished := false
  finalStep := false
  autoContinue := false
  canRollback := false
  immediateInteraction := false
  cancelled := false
  children := []
  properties := .empty

/-- The property that holds the display style of the step. -/
def styleProperty : String := "style"

/-- The display style of the step. -/
def style (s : Snapshot) : Option String := s.properties.get? styleProperty

/-- The first parameter with a name. -/
def parameter? (s : Snapshot) (name : String) : Option Parameter :=
  s.parameters.find? (·.name == name)

/-- The step asks for values. -/
def hasInteraction (s : Snapshot) : Bool := !s.parameters.isEmpty

/-- A required parameter has no value yet. -/
def awaitsInput (s : Snapshot) : Bool := s.parameters.any fun p => p.required && p.isEmpty

/-- The names of the marked parameters. -/
def modifiedNames (s : Snapshot) : List String := (s.parameters.filter (·.modified)).map (·.name)

/-- The snapshot without marks. -/
def clearModified (s : Snapshot) : Snapshot :=
  { s with parameters := s.parameters.map Parameter.unmarked }

/-- Gives a new value to the first parameter with a name, and marks it. -/
def editFirst (name : String) (value : Value) : List Parameter → Option (List Parameter)
  | [] => none
  | p :: rest =>
    if p.name == name then some (p.edited value :: rest)
    else (editFirst name value rest).map (p :: ·)

/-- The snapshot after an edit; none if it has no parameter with that name. -/
def edit? (s : Snapshot) (name : String) (value : Value) : Option Snapshot :=
  (editFirst name value s.parameters).map fun parameters => { s with parameters }

/-- The snapshot has work left: it asks for values, goes on by itself, or has spawned processes. -/
def hasOutstandingWork (s : Snapshot) : Bool :=
  s.hasInteraction || s.autoContinue || !s.children.isEmpty

/-- An edit succeeds exactly for the names that the snapshot knows. -/
theorem isSome_edit? (s : Snapshot) (name : String) (value : Value) :
    (s.edit? name value).isSome = (s.parameter? name).isSome := by
  have key : ∀ ps : List Parameter,
      (editFirst name value ps).isSome = (ps.find? (·.name == name)).isSome := by
    intro ps
    induction ps with
    | nil => rfl
    | cons p rest ih =>
      unfold editFirst
      by_cases h : p.name == name
      · simp [h]
      · simp [h, ih]
  simpa [edit?, parameter?] using key s.parameters

/-- An edit changes neither the names of the parameters nor their order. -/
theorem names_edit? {s t : Snapshot} {name : String} {value : Value}
    (h : s.edit? name value = some t) : t.parameters.map (·.name) = s.parameters.map (·.name) := by
  have key : ∀ ps qs : List Parameter, editFirst name value ps = some qs →
      qs.map (·.name) = ps.map (·.name) := by
    intro ps
    induction ps with
    | nil => intro qs h; simp [editFirst] at h
    | cons p rest ih =>
      intro qs h
      unfold editFirst at h
      split at h
      · obtain rfl := Option.some.inj h
        simp [Parameter.edited]
      · obtain ⟨rs, hrs, rfl⟩ := Option.map_eq_some_iff.1 h
        simp [ih rs hrs]
  obtain ⟨qs, hqs, rfl⟩ := Option.map_eq_some_iff.1 h
  exact key _ _ hqs

/-- Induction over a snapshot, through the snapshots of its children. -/
theorem forall_of_children {P : Snapshot → Prop}
    (h : ∀ s : Snapshot, (∀ t ∈ s.children, P t) → P s) (s : Snapshot) : P s :=
  h s fun t _ => forall_of_children h t
termination_by sizeOf s
decreasing_by
  have hmem : sizeOf t < sizeOf s.children := List.sizeOf_lt_of_mem ‹t ∈ s.children›
  cases s
  simp only [mk.sizeOf_spec] at hmem ⊢
  omega

end Snapshot

end Stepwise
