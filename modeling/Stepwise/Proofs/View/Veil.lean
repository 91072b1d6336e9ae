/-
# Panels in front of a recorded one

Not every call of a client has to reach the panel that is looked at. A panel in front of it may answer
calls that name a field as if the field were not there; all other calls go through. However many
updates get lost that way, showing a snapshot makes the panel behind as if it had been built anew: an
update that is lost is answered by false, and then the whole panel is built.

* `Passes`, `Veils` : a recorded panel behind another one;
* `Intermittent` : a panel that loses any updates that are chosen beforehand;
* `Veils.alike_performAll` : without building, the step and the fields behind stay;
* `Veils.mirrors_drawCalls` : showing a snapshot is as good as building the panel for it.
-/
import Stepwise.Proofs.View.Recording

namespace Stepwise

/-! ## Calls that pass and calls that are lost -/

/-- The field that a call names. -/
def ViewCall.field? : ViewCall → Option String
  | .updateField p => some p.name
  | .showFieldError field _ => some field
  | _ => none

/-- What becomes of a call to a panel in front of a recorded one: it reaches the recorded panel, or it
names a field and is lost. The last two arguments are the answer and the recorded panel afterwards. -/
inductive Passes (r : Recording) (call : ViewCall) : Bool → Recording → Prop where
  | reached : Passes r call (r.perform call).1 (r.perform call).2
  | lost (named : call.field?.isSome = true) : Passes r call false r

namespace Passes

open Recording

variable {r r' : Recording} {call : ViewCall} {found : Bool}

/-- A call that does not build the panel keeps the step and the fields. -/
theorem alike (passes : Passes r call found r') (h : ∀ s, call ≠ .render s) : Alike r r' := by
  cases passes with
  | reached => exact r.alike_perform h
  | lost => exact .refl r

/-- Building the panel is not lost. -/
theorem mirrors_render {s : Snapshot} (passes : Passes r (.render s) found r') : r'.Mirrors s := by
  cases passes with
  | reached => exact r.mirrors_render s
  | lost named => cases named

/-- An update that is not answered by false has set the field. -/
theorem updated {p : Parameter} (passes : Passes r (.updateField p) found r')
    (hfound : found = true) : r'.step = r.step ∧ r'.fields = withFields r.fields [p] := by
  cases passes with
  | reached =>
    rw [perform] at hfound ⊢
    split at hfound
    · next hp =>
      rw [if_pos hp]
      exact ⟨rfl, rfl⟩
    · cases hfound
  | lost => cases hfound

/-- A message that belongs to no field changes neither the step nor the fields. -/
theorem mirrors_showMessage {text : String} {s : Snapshot}
    (passes : Passes r (.showMessage text) found r') (mirrors : r.Mirrors s) : r'.Mirrors s := by
  cases passes with
  | reached => exact mirrors
  | lost named => cases named

end Passes

variable {V : Type} [ProcessView V]

/-- Behind the panels there are recorded ones, and all calls but those that name a field reach them. -/
def Veils (behind : V → Recording) : Prop :=
  ∀ v call, Passes (behind v) call (ProcessView.perform v call).1
    (behind (ProcessView.perform v call).2)

/-- A recorded panel has nothing in front of it. -/
theorem Recording.veils : Veils fun r : Recording => r := fun _ _ => .reached

/-- Fields that cannot be found lose the calls that name them. -/
theorem Screened.veils : Veils Screened.behind := by
  intro v call
  show Passes v.behind call (if v.screens call then (false, v)
      else ((v.behind.perform call).1, { v with behind := (v.behind.perform call).2 })).1
    (if v.screens call then (false, v)
      else ((v.behind.perform call).1, { v with behind := (v.behind.perform call).2 })).2.behind
  split
  · next hidden =>
    refine .lost ?_
    cases call with
    | updateField | showFieldError => rfl
    | _ => cases hidden
  · exact .reached

/-- A panel that loses updates of fields: of all updates those whose numbers are among the lost. -/
structure Intermittent where
  lost : Nat → Bool
  /-- The number of updates so far. -/
  updates : Nat
  behind : Recording

namespace Intermittent

/-- The panel after a call that has reached the panel behind. -/
def forward (v : Intermittent) (call : ViewCall) : Bool × Intermittent :=
  ((v.behind.perform call).1, { v with behind := (v.behind.perform call).2 })

instance : ProcessView Intermittent where
  perform v call :=
    match call with
    | .updateField _ =>
      let counted := { v with updates := v.updates + 1 }
      if v.lost v.updates then (false, counted) else counted.forward call
    | _ => v.forward call
  childPanel v _ := ⟨v.lost, 0, .empty⟩

/-- Whatever updates get lost, all other calls go through. -/
theorem veils : Veils Intermittent.behind := by
  intro v call
  cases call with
  | updateField p =>
    show Passes v.behind (.updateField p)
      (if v.lost v.updates then _ else forward _ (.updateField p) : Bool × Intermittent).1
      (if v.lost v.updates then _ else forward _ (.updateField p) : Bool × Intermittent).2.behind
    split
    · exact .lost rfl
    · exact .reached
  | _ => exact .reached

end Intermittent

/-! ## What the panel behind shows -/

namespace Veils

open Recording

variable {behind : V → Recording}

/-- Several calls that do not build the panel keep the step and the fields behind. -/
theorem alike_performAll (veils : Veils behind) {calls : List ViewCall}
    (h : ∀ s, .render s ∉ calls) (v : V) : Alike (behind v) (behind (performAll v calls)) := by
  induction calls generalizing v with
  | nil => exact .refl _
  | cons call calls ih =>
    refine ((veils v call).alike fun s hs => h s ?_).trans (ih (fun s hs => h s ?_) _)
    · rw [hs]
      exact List.mem_cons_self
    · exact List.mem_cons_of_mem _ hs

/-- If a panel has updated all fields in place, they are all set behind. -/
theorem performAll_fieldCalls (veils : Veils behind) {v : V} {ps : List Parameter}
    (found : hasFields v ps = true) :
    (behind (performAll v (fieldCalls v ps))).step = (behind v).step ∧
      (behind (performAll v (fieldCalls v ps))).fields = withFields (behind v).fields ps := by
  induction ps generalizing v with
  | nil => exact ⟨rfl, rfl⟩
  | cons p ps ih =>
    rw [hasFields, Bool.and_eq_true] at found
    obtain ⟨hstep, hfields⟩ := (veils v (.updateField p)).updated found.1
    obtain ⟨ihstep, ihfields⟩ := ih found.2
    rw [fieldCalls, if_pos found.1, performAll_cons]
    refine ⟨ihstep.trans hstep, ihfields.trans ?_⟩
    rw [hfields]
    rfl

/-- However a snapshot is shown, the panel behind is as if it had been built for it, if it showed the
layout that it was last shown for. -/
theorem mirrors_drawCalls (veils : Veils behind) {v : V} {rendered : Option Layout}
    (shows : ∀ layout, rendered = some layout → (behind v).Shows layout) (s : Snapshot) :
    (behind (performAll v (drawCalls v rendered s))).Mirrors s := by
  unfold drawCalls
  by_cases same : rendered = some (Layout.ofSnapshot s)
  · rw [if_pos same]
    cases found : hasFields v s.parameters with
    | true =>
      rw [if_pos rfl]
      obtain ⟨hstep, hfields⟩ := veils.performAll_fieldCalls found
      have hshows := shows _ same
      exact ⟨hstep.trans hshows.1, hfields.trans (withFields_of_shows hshows)⟩
    | false =>
      -- some fields may be set already when one is not found; building sets all of them
      rw [if_neg Bool.false_ne_true, performAll_append]
      exact (veils _ (.render s)).mirrors_render
  · rw [if_neg same]
    exact (veils v (.render s)).mirrors_render

/-- Messages that belong to no field change neither the step nor the fields. -/
theorem mirrors_showMessages (veils : Veils behind) {v : V} {s : Snapshot}
    (mirrors : (behind v).Mirrors s) (texts : List String) :
    (behind (performAll v (texts.map .showMessage))).Mirrors s := by
  induction texts generalizing v with
  | nil => exact mirrors
  | cons text texts ih => exact ih ((veils v (.showMessage text)).mirrors_showMessage mirrors)

end Veils

end Stepwise
