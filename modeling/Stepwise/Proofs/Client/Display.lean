/-
# What the panel shows

A snapshot of the server either is shown when it comes, or is sent on at once: by a step that goes on
by itself, or by a cancel that was deferred. If the request that carries it on is rejected, the
client stays on a snapshot that was never shown. So the panel shows the current step exactly if the
snapshot that came last looks like the one that was shown last.

* `Moment.brought`, `Moment.displayed` : the snapshots that come, and those that are shown;
* `Reaction.layouts` : what the client and its panel were last given, moment by moment;
* `shows_current_iff` : when the panel shows the current step, and a client that comes to rest on a
  step that is not shown.
-/
import Stepwise.Proofs.Client.Drawing
import Stepwise.Proofs.Client.Standing

namespace Stepwise

/-! ## Layouts -/

/-- Marks are no part of the layout. -/
@[simp] theorem Layout.ofSnapshot_clearModified (s : Snapshot) :
    Layout.ofSnapshot s.clearModified = Layout.ofSnapshot s := by
  have hnames : s.clearModified.parameters.map (·.name) = s.parameters.map (·.name) := by
    show (s.parameters.map Parameter.unmarked).map (·.name) = _
    rw [List.map_map]
    rfl
  rw [Layout.ofSnapshot, hnames]
  rfl

/-- Edits do not change the layout. -/
theorem Layout.ofSnapshot_edit {s t : Snapshot} {name : String} {value : Value}
    (h : s.edit? name value = some t) : Layout.ofSnapshot t = Layout.ofSnapshot s := by
  have hnames := Snapshot.names_edit? h
  obtain ⟨ps, -, rfl⟩ := Option.map_eq_some_iff.1 h
  rw [Layout.ofSnapshot, hnames]
  rfl

theorem Layout.ofSnapshot_editAll {edits : List (String × Value)} {s t : Snapshot}
    (h : s.editAll edits = some t) : Layout.ofSnapshot t = Layout.ofSnapshot s := by
  induction edits generalizing s with
  | nil => rw [Option.some.inj h]
  | cons e rest ih =>
    obtain ⟨u, hu, hrest⟩ := Option.bind_eq_some_iff.1 h
    rw [ih hrest, ofSnapshot_edit hu]

variable {V : Type}

/-- The layout of the current snapshot. -/
def ClientState.layout (o : ClientState V) : Option Layout := o.current.map Layout.ofSnapshot

/-! ## Snapshots that come -/

/-- The snapshot of the server that a client takes over. -/
def Stimulus.brings : Stimulus → Except ClientError (Option Outcome) → Option Snapshot
  | .action (.attach s), .ok none => some s
  | .response (.ok s), _ => some s
  | .response (.error (.recoverable _ _ replacement)), _ => replacement
  | _, _ => none

namespace Moment

/-- The snapshot that comes. -/
def brought (m : Moment V) : Option Snapshot := m.stimulus.brings m.turn.result

/-- The snapshot that comes, unless it is sent on at once or ends the process. -/
def displayed (m : Moment V) : Option Snapshot :=
  if m.requests.isEmpty && !m.turn.client.phase.isTerminal then m.brought else none

end Moment

/-- The snapshot that came last. -/
def lastBrought (H : List (Moment V)) : Option Snapshot := (H.filterMap Moment.brought).getLast?

/-- The snapshot that came last among those that were shown. -/
def lastDisplayed (H : List (Moment V)) : Option Snapshot :=
  (H.filterMap Moment.displayed).getLast?

theorem lastBrought_concat (H : List (Moment V)) (m : Moment V) :
    lastBrought (H ++ [m]) = m.brought.or (lastBrought H) :=
  getLast?_filterMap_concat _ H m

theorem lastDisplayed_concat (H : List (Moment V)) (m : Moment V) :
    lastDisplayed (H ++ [m]) = m.displayed.or (lastDisplayed H) :=
  getLast?_filterMap_concat _ H m

section Layouts

variable [ProcessView V] {ch : Channels} {o o' : ClientState V}

/-- A snapshot becomes the current one; unless it is sent on, it is shown. -/
theorem Concluded.layouts {starting previousFinal : Bool} {s : Snapshot} {effects : List Effect}
    (h : Concluded ch starting previousFinal s o o' effects) :
    o'.layout = some (Layout.ofSnapshot s) ∧
      o'.rendered = if (requestsOf effects).isEmpty && !o'.phase.isTerminal then
        some (Layout.ofSnapshot s) else o.rendered := by
  cases h with
  | finished => exact ⟨rfl, by rw [requestsOf_endEffects]; rfl⟩
  | idleStart => exact ⟨rfl, by rw [requestsOf_endEffects]; rfl⟩
  | continued => exact ⟨congrArg some (Layout.ofSnapshot_clearModified s), rfl⟩
  | shown =>
    refine ⟨rfl, ?_⟩
    rw [requestsOf_append, requestsOf_callEffects, requestsOf_emitted]
    rfl

theorem Received.layouts {s : Snapshot} {effects : List Effect} (h : Received ch s o o' effects)
    (running : o.phase = .running) :
    o'.layout = some (Layout.ofSnapshot s) ∧
      o'.rendered = if (requestsOf effects).isEmpty && !o'.phase.isTerminal then
        some (Layout.ofSnapshot s) else o.rendered := by
  cases h with
  | closed ended => rw [running] at ended; cases ended
  | cancelled => exact ⟨congrArg some (Layout.ofSnapshot_clearModified s), rfl⟩
  | concluded _ _ conclusion =>
    rw [requestsOf_append, requestsOf_callEffects, List.nil_append]
    exact conclusion.layouts

/-- What the client and its panel were last given, after one more moment. -/
theorem Rejected.layouts {e : ServiceError} {effects : List Effect} (h : Rejected ch o e o' effects)
    (running : o.phase = .running) :
    o'.layout = (((Stimulus.response (.error e)).brings (.ok none)).map Layout.ofSnapshot).or
        o.layout ∧
      o'.rendered = ((if (requestsOf effects).isEmpty && !o'.phase.isTerminal
        then (Stimulus.response (.error e)).brings (.ok none) else none).map
          Layout.ofSnapshot).or o.rendered := by
  cases h with
  | closed _ ended => rw [running] at ended; cases ended
  | failed =>
    refine ⟨rfl, ?_⟩
    rw [requestsOf_append, requestsOf_callEffects, requestsOf_emitted]
    rfl
  | cancelled message fieldErrors replacement _ _ s subject =>
    refine ⟨?_, rfl⟩
    show some (Layout.ofSnapshot s.clearModified) = (replacement.map Layout.ofSnapshot).or
      (o.current.map Layout.ofSnapshot)
    rw [Layout.ofSnapshot_clearModified, ← Option.map_or, subject]
    rfl
  | withdrawn => exact ⟨rfl, by rw [requestsOf_callEffects]; rfl⟩
  | finished =>
    refine ⟨rfl, ?_⟩
    rw [requestsOf_append, requestsOf_callEffects, requestsOf_endEffects]
    rfl
  | replaced =>
    refine ⟨rfl, ?_⟩
    rw [requestsOf_append, requestsOf_append, requestsOf_callEffects, requestsOf_callEffects,
      requestsOf_emitted]
    rfl
  | rejected =>
    refine ⟨rfl, ?_⟩
    rw [requestsOf_append, requestsOf_callEffects, requestsOf_callEffects]
    rfl

theorem Resumed.layouts {x : Outcome} {effects : List Effect} (h : Resumed o x o' effects) :
    o'.layout = o.layout ∧ o'.rendered = o.rendered := by
  cases h with
  | stayed => exact ⟨rfl, rfl⟩
  | continued _ _ s current =>
    refine ⟨?_, rfl⟩
    show some (Layout.ofSnapshot s.clearModified) = o.current.map Layout.ofSnapshot
    rw [Layout.ofSnapshot_clearModified, current]
    rfl

omit [ProcessView V] in
theorem Navigates.layout {a : UserAction} {s : Snapshot} {mode : Mode}
    {event : Option Interaction} (h : Navigates o a s mode event) :
    some (Layout.ofSnapshot s) = o.layout := by
  cases h with
  | submitted edits event t _ current edited =>
    rw [ClientState.layout, current, Option.map_some, Layout.ofSnapshot_editAll edited]
  | advanced _ current => rw [ClientState.layout, current, Option.map_some]
  | rolledBack _ current => rw [ClientState.layout, current, Option.map_some]
  | reloaded _ current => rw [ClientState.layout, current, Option.map_some]

/-- What the client and its panel were last given, after one more moment. -/
theorem Reaction.layouts {i : Stimulus} {r : Except ClientError (Option Outcome)}
    {own : List Effect} (reaction : Reaction ch o i r o' own)
    (answers : ∀ result, i = .response result → o.phase = .running) :
    o'.layout = ((i.brings r).map Layout.ofSnapshot).or o.layout ∧
      o'.rendered = ((if (requestsOf own).isEmpty && !o'.phase.isTerminal then i.brings r
        else none).map Layout.ofSnapshot).or o.rendered := by
  -- what is sent differs from what was shown in its marks only
  have sent {s : Snapshot} (current : o.current = some s) :
      some (Layout.ofSnapshot s.clearModified) = o.layout := by
    rw [ClientState.layout, current, Layout.ofSnapshot_clearModified]
    rfl
  have silent {a : UserAction} (none : (Stimulus.action a).brings r = none)
      (h : o'.layout = o.layout ∧ o'.rendered = o.rendered) :
      o'.layout = (((Stimulus.action a).brings r).map Layout.ofSnapshot).or o.layout ∧
      o'.rendered = ((if (requestsOf own).isEmpty && !o'.phase.isTerminal then
        (Stimulus.action a).brings r else .none).map Layout.ofSnapshot).or o.rendered := by
    rw [none, ite_self]
    exact h
  cases reaction with
  | refused a e =>
    refine silent ?_ ⟨rfl, rfl⟩
    cases a <;> rfl
  | ignored a =>
    refine silent ?_ ⟨rfl, rfl⟩
    cases a <;> rfl
  | started => exact silent rfl ⟨rfl, rfl⟩
  | attached s _ received =>
    obtain ⟨hlayout, hrendered⟩ := received.layouts rfl
    rw [requestsOf_append, requestsOf_emitted, List.nil_append, hlayout, hrendered]
    refine ⟨rfl, ?_⟩
    split <;> rfl
  | edited _ _ _ _ s t current edited =>
    refine silent rfl ⟨?_, rfl⟩
    show some (Layout.ofSnapshot t) = o.layout
    rw [ClientState.layout, current, Option.map_some, Layout.ofSnapshot_edit edited]
  | navigated offers navigates =>
    refine silent ?_ ⟨?_, rfl⟩
    · cases navigates <;> rfl
    · rw [← navigates.layout]
      exact congrArg some (Layout.ofSnapshot_clearModified _)
  | deferred => exact silent rfl ⟨rfl, rfl⟩
  | asked => exact silent rfl ⟨rfl, rfl⟩
  | cancelled _ _ _ s current => exact silent rfl ⟨sent current, rfl⟩
  | answerLost => exact silent rfl ⟨rfl, rfl⟩
  | accepted _ _ _ s current => exact silent rfl ⟨sent current, rfl⟩
  | acceptedLocked => exact silent rfl ⟨rfl, rfl⟩
  | declined => exact silent rfl ⟨rfl, rfl⟩
  | declinedResumed _ _ _ resumed => exact silent rfl resumed.layouts
  | paused => exact silent rfl ⟨rfl, rfl⟩
  | resumed resumed => exact silent rfl resumed.layouts
  | received received =>
    obtain ⟨hlayout, hrendered⟩ := received.layouts (answers _ rfl)
    rw [hlayout, hrendered]
    refine ⟨rfl, ?_⟩
    split <;> rfl
  | rejected rejected => exact rejected.layouts (answers _ rfl)

end Layouts

/-! ## Whole runs -/

/-- The panel shows the current step: it was last shown for the layout of the current snapshot, has its
step, and has fields with the names of its parameters. -/
def ClientState.ShowsCurrent (o : ClientState Recording) : Prop :=
  ∃ s, o.current = some s ∧ o.rendered = some (Layout.ofSnapshot s) ∧ o.view.step = some s.step ∧
    ∀ name, o.view.fields.contains name = true ↔ ∃ p ∈ s.parameters, p.name = name

section Runs

variable {ch : Channels} {waiting : List Request}

/-- At every point of a run the client and its panel were last given what came last and what was
shown last. -/
theorem ClientRun.layouts [ProcessView V] (h : ch.dispatchOpen = true) {H : List (Moment V)}
    {c : Client V} (run : ClientRun ch H c waiting) :
    c.layout = (lastBrought H).map Layout.ofSnapshot ∧
      c.rendered = (lastDisplayed H).map Layout.ofSnapshot := by
  have moment {H : List (Moment V)} {o o' : ClientState V} {m : Moment V} {i : Stimulus}
      {r : Except ClientError (Option Outcome)} {own : List Effect}
      (answers : ∀ result, i = .response result → o.phase = .running)
      (ih : o.layout = (lastBrought H).map Layout.ofSnapshot ∧
        o.rendered = (lastDisplayed H).map Layout.ofSnapshot)
      (shows : m.Shows o i r o' own) (reaction : Reaction ch o i r o' own) :
      o'.layout = (lastBrought (H ++ [m])).map Layout.ofSnapshot ∧
        o'.rendered = (lastDisplayed (H ++ [m])).map Layout.ofSnapshot := by
    obtain ⟨hlayout, hrendered⟩ := reaction.layouts answers
    have hbrought : m.brought = i.brings r := by
      rw [Moment.brought, shows.stimulus, shows.result]
    have hdisplayed : m.displayed =
        if (requestsOf own).isEmpty && !o'.phase.isTerminal then i.brings r else none := by
      rw [Moment.displayed, hbrought, Moment.requests, shows.own, ← shows.after]
    constructor
    · rw [hlayout, lastBrought_concat, hbrought, Option.map_or, ih.1]
    · rw [hrendered, lastDisplayed_concat, hdisplayed, Option.map_or, ih.2]
  refine (run.standing_and h (P := fun H o _ => o.layout = (lastBrought H).map Layout.ofSnapshot ∧
    o.rendered = (lastDisplayed H).map Layout.ofSnapshot) ?_ ?_ ?_).2
  · intro id parent paused view
    exact ⟨rfl, rfl⟩
  · intro H o o' waiting m a r own st ih shows reaction
    exact moment (fun _ h => by cases h) ih shows reaction
  · intro H o o' request m result r own w ih shows reaction
    exact moment (fun _ _ => w.running) ih shows reaction

/-- At every point of a run the panel shows the layout that it was last shown for, if there is one. -/
theorem ClientRun.faithful {H : List (Moment Recording)} {c : Client Recording}
    (run : ClientRun ch H c waiting) {layout : Layout} (rendered : c.rendered = some layout) :
    c.view.Shows layout :=
  run.course.faithful Recording.veils layout rendered

/-- When the panel shows the current step. A client on which the user may act has a snapshot, its panel
has the step and the fields of the snapshot that was shown last, and they are those of the current step
exactly if the snapshot that came last has the same layout. -/
theorem shows_current_iff (h : ch.dispatchOpen = true) {H : List (Moment Recording)}
    {c : Client Recording} (run : ClientRun ch H c waiting) (shown : c.phase = .interacting) :
    c.current.isSome = true ∧
      (∀ s, lastDisplayed H = some s → c.view.Shows (Layout.ofSnapshot s)) ∧
      (c.ShowsCurrent ↔
        (lastDisplayed H).map Layout.ofSnapshot = (lastBrought H).map Layout.ofSnapshot) := by
  obtain ⟨hlayout, hrendered⟩ := run.layouts h
  have hcurrent : c.current.isSome = true := by
    cases run.standing h with
    | waits w => rw [w.running] at shown; cases shown
    | rests r => exact r.shown shown
  refine ⟨hcurrent, fun s hs => run.faithful (by rw [hrendered, hs]; rfl), ?_⟩
  rw [← hrendered, ← hlayout]
  constructor
  · rintro ⟨s, current, hs, -, -⟩
    rw [hs, ClientState.layout, current]
    rfl
  · intro same
    obtain ⟨s, current⟩ := Option.isSome_iff_exists.1 hcurrent
    rw [ClientState.layout, current, Option.map_some] at same
    obtain ⟨hstep, hfields⟩ := run.faithful same
    refine ⟨s, current, same, hstep, fun name => ?_⟩
    rw [hfields, List.contains_iff_mem]
    exact List.mem_map

/-- A form that asks for an address; it goes on by itself, or waits. -/
def addressForm (goesOn : Bool) : Snapshot :=
  { Snapshot.ofStep .nil "Order" "Address" with
    parameters := [⟨"street", "Street", .null, true, false⟩], autoContinue := goesOn }

/-- An order is started. -/
def orderStarted : Moment Recording :=
  (Client.idle (.root 0) Recording.empty).face .open
    (.action (.start ⟨"Order", none, "en-US", .none⟩))

/-- The form comes. -/
def orderBrought (goesOn : Bool) : Moment Recording :=
  orderStarted.turn.client.face .open (.response (.ok (addressForm goesOn)))

/-- The form has gone on by itself, and the empty field is complained about. -/
def orderRejected : Moment Recording :=
  (orderBrought true).turn.client.face .open
    (.response (.error ((ServiceError.rejected "Validation failed").withFieldError "street"
      "is required")))

theorem run_orderBrought (goesOn : Bool) :
    ClientRun .open [orderStarted, orderBrought goesOn] (orderBrought goesOn).turn.client
      (orderBrought goesOn).requests :=
  @ClientRun.answer Recording _ .open [orderStarted] orderStarted.turn.client [] [] _
    ((ClientRun.new (.root 0) none false Recording.empty).act _) (.ok (addressForm goesOn))

/-- A form that waits is shown. -/
theorem shows_orderBrought :
    (orderBrought false).turn.client.phase = .interacting ∧
      (orderBrought false).turn.client.ShowsCurrent :=
  ⟨rfl, (shows_current_iff rfl (run_orderBrought false) rfl).2.2.2 rfl⟩

/-- A form that went on by itself and came back is not shown, though the user is to act on it. -/
theorem not_shows_orderRejected :
    ∃ H waiting, ClientRun .open H orderRejected.turn.client waiting ∧
      orderRejected.turn.client.phase = .interacting ∧
      orderRejected.turn.client.view.step = none ∧
      ¬ orderRejected.turn.client.ShowsCurrent := by
  refine ⟨_, _, @ClientRun.answer Recording _ .open _ _ [] [] _ (run_orderBrought true) _, rfl,
    rfl, ?_⟩
  rintro ⟨s, -, hrendered, -⟩
  cases hrendered

end Runs

end Stepwise
