/-
# Recorded panels

A panel that remembers what it was told, instead of drawing it. It has the fields of the
snapshot that it was last built for.

* `Recording` : the memory of a panel;
* `Screened` : a recorded panel in front of which some fields cannot be found.
-/
import Stepwise.View.Basic

namespace Stepwise

/-- A field of a recorded panel. -/
structure RecordedField where
  value : Value
  /-- The message shown at the field. -/
  error : Option String

/-- What a panel was told. -/
structure Recording where
  /-- The step that the panel was last built for. -/
  step : Option String
  fields : KeyMap RecordedField
  busy : Bool
  /-- How often the panel was built. -/
  rebuilds : Nat
  /-- How often a field was updated in place. -/
  inPlaceUpdates : Nat
  /-- How often the input was locked or unlocked. -/
  busyToggles : Nat
  messages : List String
  summaries : List Summary
  questions : List Question

namespace Recording

/-- A panel that was told nothing. -/
def empty : Recording := ⟨none, .empty, false, 0, 0, 0, [], [], []⟩

instance : Inhabited Recording := ⟨empty⟩

/-- The fields of a snapshot; of several parameters with one name the last counts. -/
def fieldsOf (s : Snapshot) : KeyMap RecordedField :=
  .ofList (s.parameters.map fun p => (p.name, ⟨p.value, none⟩))

/-- Carries out a call. -/
def perform (r : Recording) : ViewCall → Bool × Recording
  | .render s =>
    (true, { r with step := some s.step, fields := fieldsOf s, rebuilds := r.rebuilds + 1 })
  | .updateField p =>
    if r.fields.contains p.name then
      (true, { r with fields := r.fields.insert p.name ⟨p.value, none⟩
                      inPlaceUpdates := r.inPlaceUpdates + 1 })
    else (false, r)
  | .showFieldError field message =>
    match r.fields.get? field with
    | some f => (true, { r with fields := r.fields.insert field { f with error := some message } })
    | none => (false, r)
  | .showMessage text => (true, { r with messages := r.messages ++ [text] })
  | .setBusy busy =>
    (true, { r with busy, busyToggles := r.busyToggles + if r.busy = busy then 0 else 1 })
  | .showSummary s => (true, { r with summaries := r.summaries ++ [s] })
  | .ask q => (true, { r with questions := r.questions ++ [q] })
  | .openChild _ => (true, r)

instance : Toolkit Recording where
  perform := perform
  childPanel _ _ := empty
  processPanel _ := empty

end Recording

/-- A recorded panel in front of which some fields cannot be found: calls that name them are
answered without reaching it. -/
structure Screened where
  hidden : List String
  behind : Recording

namespace Screened

/-- Does the call name a hidden field? -/
def screens (v : Screened) : ViewCall → Bool
  | .updateField p => v.hidden.contains p.name
  | .showFieldError field _ => v.hidden.contains field
  | _ => false

instance : ProcessView Screened where
  perform v call :=
    if v.screens call then (false, v)
    else
      let (found, behind) := v.behind.perform call
      (found, { v with behind })
  childPanel v _ := ⟨v.hidden, .empty⟩

end Screened

end Stepwise
