/-
# What a recorded panel shows

A recorded panel shows the step that it was last built for, with one field for each parameter of
the step. Only building the panel changes that: all other calls keep the step and the fields.

* `Recording.Shows` : the panel shows a layout;
* `Recording.Mirrors` : the panel is as if it had just been built for a snapshot;
* `Recording.alike_perform` : only building the panel changes the step and the fields;
* `Recording.withFields_of_shows` : setting all fields anew is as good as building the panel.
-/
import Stepwise.View.Recording
import Stepwise.Proofs.Client.Calls
import Stepwise.Proofs.KeyMap

namespace Stepwise

namespace Recording

/-- The panel shows the step and the fields of a layout. -/
def Shows (r : Recording) (layout : Layout) : Prop :=
  r.step = some layout.step ∧ ∀ name, r.fields.contains name = layout.fields.contains name

/-- Two panels show the same step and the same fields. -/
def Alike (r r' : Recording) : Prop :=
  r'.step = r.step ∧ ∀ name, r'.fields.contains name = r.fields.contains name

theorem Alike.refl (r : Recording) : Alike r r := ⟨rfl, fun _ => rfl⟩

theorem Alike.trans {r s t : Recording} (hrs : Alike r s) (hst : Alike s t) : Alike r t :=
  ⟨hst.1.trans hrs.1, fun name => (hst.2 name).trans (hrs.2 name)⟩

theorem Shows.of_alike {r r' : Recording} {layout : Layout} (h : Alike r r')
    (shows : r.Shows layout) : r'.Shows layout :=
  ⟨h.1.trans shows.1, fun name => (h.2 name).trans (shows.2 name)⟩

/-- A field that is there can be set without adding one. -/
theorem contains_insert_self {fields : KeyMap RecordedField} {key : String}
    (h : fields.contains key = true) (f : RecordedField) (name : String) :
    (fields.insert key f).contains name = fields.contains name := by
  rw [KeyMap.contains_insert]
  by_cases hname : key = name
  · rw [← hname, h, Bool.or_true]
  · rw [beq_eq_false_iff_ne.2 hname, Bool.false_or]

/-- Every call except building keeps the step and the fields. -/
theorem alike_perform (r : Recording) {call : ViewCall} (h : ∀ s, call ≠ .render s) :
    Alike r (r.perform call).2 := by
  cases call with
  | render s => exact absurd rfl (h s)
  | updateField p =>
    rw [perform]
    split
    · next hp => exact ⟨rfl, contains_insert_self hp _⟩
    · exact .refl r
  | showFieldError field message =>
    rw [perform]
    split
    · next f hf => exact ⟨rfl, contains_insert_self (KeyMap.contains_of_get? hf) _⟩
    · exact .refl r
  | _ => exact .refl _

/-! ## Panels as if built anew -/

/-- The panel has the step and the fields that it would have if it had just been built for the
snapshot. -/
def Mirrors (r : Recording) (s : Snapshot) : Prop :=
  r.step = some s.step ∧ r.fields = fieldsOf s

theorem mirrors_render (r : Recording) (s : Snapshot) : (r.perform (.render s)).2.Mirrors s :=
  ⟨rfl, rfl⟩

/-- The fields of a snapshot have the names of its parameters. -/
theorem contains_fieldsOf (s : Snapshot) (name : String) :
    (fieldsOf s).contains name = (Layout.ofSnapshot s).fields.contains name := by
  show _ = (s.parameters.map (·.name)).contains name
  rw [fieldsOf, KeyMap.contains_ofList, List.any_map, List.contains_eq_any_beq, List.any_map]
  refine congrArg (fun p => s.parameters.any p) (funext fun p => ?_)
  exact Bool.beq_comm

/-- A panel that is as if built for a snapshot shows its layout. -/
theorem Mirrors.shows {r : Recording} {s : Snapshot} (h : r.Mirrors s) :
    r.Shows (Layout.ofSnapshot s) :=
  ⟨h.1, fun name => by rw [h.2, contains_fieldsOf]⟩

/-- The fields after each of some parameters was set, without a message. -/
def withFields (fields : KeyMap RecordedField) (ps : List Parameter) : KeyMap RecordedField :=
  ps.foldl (fun fields p => fields.insert p.name ⟨p.value, none⟩) fields

/-- Where a panel has fields for the parameters and no others, setting all of them is as good as
building the panel. Of several parameters with one name the last counts in both. -/
theorem withFields_of_shows {r : Recording} {s : Snapshot}
    (shows : r.Shows (Layout.ofSnapshot s)) : withFields r.fields s.parameters = fieldsOf s := by
  have hentries : withFields r.fields s.parameters =
      (s.parameters.map fun p => (p.name, (⟨p.value, none⟩ : RecordedField))).foldl
        (fun fields e => fields.insert e.1 e.2) r.fields := by
    rw [List.foldl_map]
    rfl
  rw [hentries]
  refine KeyMap.foldl_insert_eq_ofList fun key hkey => ?_
  rw [← KeyMap.contains_ofList]
  exact (contains_fieldsOf s key).trans ((shows.2 key).symm.trans hkey)

end Recording

end Stepwise
