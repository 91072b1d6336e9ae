/-
# Drafts

What has been done with a snapshot since it came: the user's edits, and the requests that were sent
from it. The first parameter of a name has the value that was given to that name last, and it is marked
if it was edited since the last request; the marks that the snapshot came with last until the first
request.

* `Draft`, `Draft.snapshot` : what was done with a snapshot, and the snapshot with it;
* `Draft.edit?_snapshot`, `Draft.clearModified_snapshot` : one more edit, and one more request;
* `Snapshot.values_editAll` : the values after several edits.
-/
import Stepwise.Proofs.Client.Reaction

namespace Stepwise

/-- What was done with a snapshot since it came. -/
structure Draft where
  /-- The edits, from the first to the last. -/
  edits : List (String × Value)
  /-- A request was sent. -/
  sent : Bool
  /-- The names that were edited since the last request, or else since the snapshot came. -/
  recent : List String

namespace Draft

/-- Nothing was done. -/
def new : Draft := ⟨[], false, []⟩

/-- One more edit. -/
def edited (d : Draft) (name : String) (value : Value) : Draft :=
  { d with edits := d.edits ++ [(name, value)], recent := name :: d.recent }

/-- One more request. -/
def passed (d : Draft) : Draft := { d with sent := true, recent := [] }

/-- The first parameter of a name. -/
def leader (d : Draft) (p : Parameter) : Parameter :=
  { p with value := (d.edits.reverse.lookup p.name).getD p.value
           modified := (!d.sent && p.modified) || d.recent.contains p.name }

/-- A parameter whose name another one has before it. -/
def follower (d : Draft) (p : Parameter) : Parameter := { p with modified := !d.sent && p.modified }

@[simp] theorem leader_name (d : Draft) (p : Parameter) : (d.leader p).name = p.name := rfl

@[simp] theorem follower_name (d : Draft) (p : Parameter) : (d.follower p).name = p.name := rfl

/-- The parameters, after others with the names that were seen. -/
def parameters (d : Draft) : List String → List Parameter → List Parameter
  | _, [] => []
  | seen, p :: rest =>
    (if seen.contains p.name then d.follower p else d.leader p) ::
      d.parameters (p.name :: seen) rest

/-- The snapshot. -/
def snapshot (d : Draft) (s : Snapshot) : Snapshot :=
  { s with parameters := d.parameters [] s.parameters }

/-- Each parameter in its place, with its name, its label and whether it is required. -/
theorem map_parameters {β : Type} {f : Parameter → β} (d : Draft)
    (h : ∀ p value modified, f { p with value, modified } = f p) (seen : List String)
    (ps : List Parameter) : (d.parameters seen ps).map f = ps.map f := by
  induction ps generalizing seen with
  | nil => rfl
  | cons p rest ih =>
    rw [parameters, List.map_cons, List.map_cons, ih]
    congr 1
    split
    · exact h p p.value _
    · exact h p _ _

/-- If nothing was done the parameters are as they came. -/
theorem parameters_new (seen : List String) (ps : List Parameter) : new.parameters seen ps = ps := by
  induction ps generalizing seen with
  | nil => rfl
  | cons p rest ih =>
    rw [parameters, ih]
    congr 1
    split
    · exact congrArg (fun m => { p with modified := m }) (Bool.true_and _)
    · exact congrArg (fun m => { p with modified := m }) ((Bool.or_false _).trans (Bool.true_and _))

theorem snapshot_new (s : Snapshot) : new.snapshot s = s := by
  rw [snapshot, parameters_new]
  cases s
  rfl

/-- An edit of a name that was seen before concerns none of the parameters. -/
theorem parameters_edited_of_mem (d : Draft) {name : String} (value : Value) {seen : List String}
    (h : name ∈ seen) (ps : List Parameter) :
    (d.edited name value).parameters seen ps = d.parameters seen ps := by
  induction ps generalizing seen with
  | nil => rfl
  | cons p rest ih =>
    rw [parameters, parameters, ih (List.mem_cons_of_mem _ h)]
    congr 1
    by_cases hp : p.name ∈ seen
    · rw [if_pos (List.contains_iff_mem.2 hp), if_pos (List.contains_iff_mem.2 hp)]
      rfl
    · have hne : p.name ≠ name := fun same => hp (same ▸ h)
      rw [if_neg (mt List.contains_iff_mem.1 hp), if_neg (mt List.contains_iff_mem.1 hp)]
      simp [leader, edited, List.lookup_cons, hne, beq_eq_false_iff_ne.2 hne]

/-- An edit changes the first parameter of its name. -/
theorem editFirst_parameters (d : Draft) {name : String} {value : Value} {seen : List String}
    (h : name ∉ seen) {ps qs : List Parameter}
    (hedit : Snapshot.editFirst name value (d.parameters seen ps) = some qs) :
    qs = (d.edited name value).parameters seen ps := by
  induction ps generalizing seen qs with
  | nil => cases hedit
  | cons p rest ih =>
    rw [parameters, Snapshot.editFirst] at hedit
    have hname : (if seen.contains p.name then d.follower p else d.leader p).name = p.name := by
      split <;> rfl
    rw [hname] at hedit
    rw [parameters]
    by_cases same : p.name = name
    · -- the first parameter of the name
      rw [if_pos (beq_iff_eq.2 same)] at hedit
      have hseen : ¬ seen.contains p.name = true := by
        rw [same]
        exact mt List.contains_iff_mem.1 h
      rw [if_neg hseen] at hedit ⊢
      rw [← Option.some.inj hedit, parameters_edited_of_mem d value (by simp [same])]
      simp [leader, edited, Parameter.edited, same]
    · rw [if_neg (mt beq_iff_eq.1 same)] at hedit
      obtain ⟨rs, hrs, rfl⟩ := Option.map_eq_some_iff.1 hedit
      rw [ih (by simp [h, Ne.symm same]) hrs]
      congr 1
      split
      · rfl
      · simp [leader, edited, List.lookup_cons, beq_eq_false_iff_ne.2 same, same]

/-- A request takes the marks off. -/
theorem map_unmarked_parameters (d : Draft) (seen : List String) (ps : List Parameter) :
    (d.parameters seen ps).map Parameter.unmarked = d.passed.parameters seen ps := by
  induction ps generalizing seen with
  | nil => rfl
  | cons p rest ih =>
    rw [parameters, List.map_cons, ih, parameters]
    congr 1
    split <;> rfl

/-- One more edit of the snapshot. -/
theorem edit?_snapshot {d : Draft} {s t : Snapshot} {name : String} {value : Value}
    (h : (d.snapshot s).edit? name value = some t) : t = (d.edited name value).snapshot s := by
  obtain ⟨qs, hqs, rfl⟩ := Option.map_eq_some_iff.1 h
  rw [editFirst_parameters d List.not_mem_nil hqs]
  rfl

/-- One more request. -/
theorem clearModified_snapshot (d : Draft) (s : Snapshot) :
    (d.snapshot s).clearModified = d.passed.snapshot s :=
  congrArg (fun parameters => { s with parameters }) (d.map_unmarked_parameters [] s.parameters)

end Draft

/-! ## Values -/

namespace Draft

/-- Edits that were sent. -/
def ofEdits (edits : List (String × Value)) : Draft := ⟨edits, true, []⟩

/-- Without edits only the marks are taken off. -/
theorem parameters_ofEdits_nil (seen : List String) (ps : List Parameter) :
    (ofEdits []).parameters seen ps = ps.map Parameter.unmarked := by
  have h := map_unmarked_parameters new seen ps
  rw [parameters_new] at h
  exact h.symm

/-- Marks do not count for edits that were sent. -/
theorem parameters_ofEdits_unmarked (edits : List (String × Value)) (seen : List String)
    (ps : List Parameter) :
    (ofEdits edits).parameters seen (ps.map Parameter.unmarked) =
      (ofEdits edits).parameters seen ps := by
  induction ps generalizing seen with
  | nil => rfl
  | cons p rest ih =>
    rw [List.map_cons, parameters, parameters]
    exact congrArg _ (ih (p.name :: seen))

/-- Edits and then others are all of them. -/
theorem parameters_ofEdits_append (edits others : List (String × Value)) (seen : List String)
    (ps : List Parameter) :
    (ofEdits (edits ++ others)).parameters seen ps =
      (ofEdits others).parameters seen ((ofEdits edits).parameters seen ps) := by
  induction ps generalizing seen with
  | nil => rfl
  | cons p rest ih =>
    rw [parameters, parameters, parameters, ih]
    by_cases hp : seen.contains p.name = true
    · rw [if_pos hp, if_pos hp, follower_name, if_pos hp]
      rfl
    · rw [if_neg hp, if_neg hp, leader_name, if_neg hp]
      have hlookup : ((edits ++ others).reverse.lookup p.name).getD p.value =
          (others.reverse.lookup p.name).getD ((edits.reverse.lookup p.name).getD p.value) := by
        rw [List.reverse_append, List.lookup_append]
        cases others.reverse.lookup p.name <;> rfl
      simp only [leader, ofEdits, hlookup]
      rfl

end Draft

/-- The parameters without marks. -/
def Snapshot.values (s : Snapshot) : List Parameter := s.parameters.map Parameter.unmarked

@[simp] theorem Snapshot.values_clearModified (s : Snapshot) : s.clearModified.values = s.values := by
  show (s.parameters.map Parameter.unmarked).map Parameter.unmarked = _
  rw [List.map_map]
  rfl

/-- The values after several edits. -/
theorem Snapshot.values_editAll {edits : List (String × Value)} {s t : Snapshot}
    (h : s.editAll edits = some t) :
    t.values = (Draft.ofEdits edits).parameters [] s.values := by
  induction edits generalizing s with
  | nil =>
    obtain rfl : s = t := Option.some.inj h
    rw [Draft.parameters_ofEdits_nil]
    exact (values_clearModified s).symm
  | cons e rest ih =>
    obtain ⟨name, value⟩ := e
    obtain ⟨u, hu, hrest⟩ := Option.bind_eq_some_iff.1 h
    have hs : Draft.new.snapshot s = s := Draft.snapshot_new s
    have hvalues : u.values = (Draft.ofEdits [(name, value)]).parameters [] s.parameters := by
      rw [← hs] at hu
      rw [Draft.edit?_snapshot hu]
      exact Draft.map_unmarked_parameters _ [] s.parameters
    rw [ih hrest, hvalues, values, Draft.parameters_ofEdits_unmarked,
      ← Draft.parameters_ofEdits_append]
    rfl

end Stepwise
