/-
# Calls to a panel

A client shows everything by calls to its panel, and the answers decide which calls follow. This
module lists the calls that a step makes; running the step is then carrying out the list.

* `performAll`, `callEffects` : several calls one after the other, and what they leave behind;
* `drawCalls`, `complaintCalls` : the calls that show a snapshot, and those that show messages
  of fields;
* `Turn.after`, `run_bind_of_ok` : a step is run part by part, from the first to the last;
* `run_render`, `run_showFieldErrors` : the steps of a client that make the calls.
-/
import Stepwise.Client.Response

namespace Stepwise

variable {V : Type} [ProcessView V]

/-- The panel after several calls. -/
def performAll (v : V) (calls : List ViewCall) : V :=
  calls.foldl (fun v call => (ProcessView.perform v call).2) v

/-- What several calls of a client to its panel leave behind. -/
def callEffects (id : ClientId) (v : V) : List ViewCall → List Effect
  | [] => []
  | call :: rest =>
    .call id call (ProcessView.perform v call).1 ::
      callEffects id (ProcessView.perform v call).2 rest

@[simp] theorem performAll_nil (v : V) : performAll v [] = v := rfl

@[simp] theorem performAll_cons (v : V) (call : ViewCall) (calls : List ViewCall) :
    performAll v (call :: calls) = performAll (ProcessView.perform v call).2 calls := rfl

theorem performAll_append (v : V) (xs ys : List ViewCall) :
    performAll v (xs ++ ys) = performAll (performAll v xs) ys := by
  rw [performAll, List.foldl_append]
  rfl

@[simp] theorem callEffects_nil (id : ClientId) (v : V) : callEffects id v [] = [] := rfl

@[simp] theorem callEffects_cons (id : ClientId) (v : V) (call : ViewCall)
    (calls : List ViewCall) :
    callEffects id v (call :: calls) =
      .call id call (ProcessView.perform v call).1 ::
        callEffects id (ProcessView.perform v call).2 calls := rfl

theorem callEffects_append (id : ClientId) (v : V) (xs ys : List ViewCall) :
    callEffects id v (xs ++ ys) =
      callEffects id v xs ++ callEffects id (performAll v xs) ys := by
  induction xs generalizing v with
  | nil => rfl
  | cons call xs ih =>
    rw [List.cons_append, callEffects_cons, callEffects_cons, ih, performAll_cons, List.cons_append]

/-- A call leaves a trace of the client that made it. -/
theorem mem_callEffects {id : ClientId} {v : V} {calls : List ViewCall} {e : Effect}
    (h : e ∈ callEffects id v calls) : ∃ call ∈ calls, ∃ found, e = .call id call found := by
  induction calls generalizing v with
  | nil => cases h
  | cons call calls ih =>
    rcases List.mem_cons.1 h with rfl | h
    · exact ⟨call, List.mem_cons_self, _, rfl⟩
    · obtain ⟨other, hmem, found, rfl⟩ := ih h
      exact ⟨other, List.mem_cons_of_mem _ hmem, found, rfl⟩

/-- The client that leaves something behind. -/
def Effect.client : Effect → ClientId
  | .call client _ _ => client
  | .dispatch d => d.client
  | .event e => e.client

theorem client_of_mem_callEffects {id : ClientId} {v : V} {calls : List ViewCall} {e : Effect}
    (h : e ∈ callEffects id v calls) : e.client = id := by
  obtain ⟨_, _, _, rfl⟩ := mem_callEffects h
  rfl

/-- What is heard of an event. -/
def emitted (ch : Channels) (e : LifecycleEvent ClientId) : List Effect :=
  if ch.eventsOpen then [.event e] else []

theorem mem_emitted {ch : Channels} {event : LifecycleEvent ClientId} {e : Effect}
    (h : e ∈ emitted ch event) : e = .event event := by
  unfold emitted at h
  split at h
  · exact List.mem_singleton.1 h
  · cases h

theorem client_of_mem_emitted {ch : Channels} {event : LifecycleEvent ClientId} {e : Effect}
    (h : e ∈ emitted ch event) : e.client = event.client := by
  rw [mem_emitted h]
  rfl

/-! ## The calls that show a snapshot -/

/-- The calls that update a panel in place: one for each parameter, up to the first one whose field
the panel does not have. -/
def fieldCalls (v : V) : List Parameter → List ViewCall
  | [] => []
  | p :: rest =>
    .updateField p ::
      if (ProcessView.perform v (.updateField p)).1 then
        fieldCalls (ProcessView.perform v (.updateField p)).2 rest
      else []

/-- The panel has a field for each of the parameters when its turn comes. -/
def hasFields (v : V) : List Parameter → Bool
  | [] => true
  | p :: rest =>
    (ProcessView.perform v (.updateField p)).1 &&
      hasFields (ProcessView.perform v (.updateField p)).2 rest

/-- The calls that show a snapshot in a panel that was last shown for a layout. -/
def drawCalls (v : V) (rendered : Option Layout) (s : Snapshot) : List ViewCall :=
  if rendered = some (Layout.ofSnapshot s) then
    if hasFields v s.parameters then fieldCalls v s.parameters
    else fieldCalls v s.parameters ++ [.render s]
  else [.render s]

/-- The call that shows the message of a field, or else the call that shows it as a message. -/
def complaintCalls (v : V) : List (String × String) → List ViewCall
  | [] => []
  | (field, text) :: rest =>
    let shown := ProcessView.perform v (.showFieldError field text)
    if shown.1 then .showFieldError field text :: complaintCalls shown.2 rest
    else
      .showFieldError field text :: .showMessage (field ++ ": " ++ text) ::
        complaintCalls (ProcessView.perform shown.2 (.showMessage (field ++ ": " ++ text))).2 rest

/-- The calls that show a rejection: its messages of fields, or else its own message. -/
def rejectionCalls (v : V) (message : String) (fieldErrors : KeyMap String) : List ViewCall :=
  if fieldErrors.isEmpty then
    .showMessage message ::
      complaintCalls (ProcessView.perform v (.showMessage message)).2 fieldErrors.entries
  else complaintCalls v fieldErrors.entries

/-- Updating a panel in place only updates its fields. -/
theorem mem_fieldCalls {v : V} {ps : List Parameter} {call : ViewCall}
    (h : call ∈ fieldCalls v ps) : ∃ p, call = .updateField p := by
  induction ps generalizing v with
  | nil => cases h
  | cons p ps ih =>
    rcases List.mem_cons.1 h with rfl | h
    · exact ⟨p, rfl⟩
    · split at h
      · exact ih h
      · cases h

/-- Showing a snapshot only builds the panel or updates its fields. -/
theorem mem_drawCalls {v : V} {rendered : Option Layout} {s : Snapshot} {call : ViewCall}
    (h : call ∈ drawCalls v rendered s) : call = .render s ∨ ∃ p, call = .updateField p := by
  unfold drawCalls at h
  split at h
  · split at h
    · exact .inr (mem_fieldCalls h)
    · rcases List.mem_append.1 h with h | h
      · exact .inr (mem_fieldCalls h)
      · exact .inl (List.mem_singleton.1 h)
  · exact .inl (List.mem_singleton.1 h)

/-- Complaints are shown at fields or as messages. -/
theorem mem_complaintCalls {v : V} {entries : List (String × String)} {call : ViewCall}
    (h : call ∈ complaintCalls v entries) :
    (∃ field text, call = .showFieldError field text) ∨ ∃ text, call = .showMessage text := by
  induction entries generalizing v with
  | nil => cases h
  | cons e rest ih =>
    obtain ⟨field, text⟩ := e
    unfold complaintCalls at h
    dsimp only at h
    split at h
    · rcases List.mem_cons.1 h with rfl | h
      · exact .inl ⟨_, _, rfl⟩
      · exact ih h
    · rcases List.mem_cons.1 h with rfl | h
      · exact .inl ⟨_, _, rfl⟩
      · rcases List.mem_cons.1 h with rfl | h
        · exact .inr ⟨_, rfl⟩
        · exact ih h

/-! ## Running a step part by part -/

section Parts

variable {W α β : Type} {ch : Channels}

/-- The turn, after some effects that were left behind before. -/
def Turn.after (effects : List Effect) (t : Turn W α) : Turn W α :=
  ⟨t.result, t.client, effects ++ t.effects⟩

@[simp] theorem Turn.after_mk (before effects : List Effect) (r : Except ClientError α)
    (c : Client W) : Turn.after before ⟨r, c, effects⟩ = ⟨r, c, before ++ effects⟩ := rfl

@[simp] theorem Turn.after_after (first second : List Effect) (t : Turn W α) :
    Turn.after first (t.after second) = t.after (first ++ second) := by
  rw [Turn.after, Turn.after, Turn.after, List.append_assoc]

namespace Act

/-- What follows a part that is not refused. -/
theorem run_bind_of_ok {a : Act W α} {c c' : Client W} {x : α} {effects : List Effect}
    (h : run a ch c = ⟨.ok x, c', effects⟩) (f : α → Act W β) :
    run (a >>= f) ch c = (run (f x) ch c').after effects := by
  rw [run_bind, h]
  rfl

/-- Nothing follows a part that is refused. -/
theorem run_bind_of_error {a : Act W α} {c c' : Client W} {e : ClientError}
    {effects : List Effect} (h : run a ch c = ⟨.error e, c', effects⟩) (f : α → Act W β) :
    run (a >>= f) ch c = ⟨.error e, c', effects⟩ := by
  rw [run_bind, h]

@[simp] theorem run_bind_pure (x : α) (f : α → Act W β) (c : Client W) :
    run ((Pure.pure x : Act W α) >>= f) ch c = run (f x) ch c := by
  rw [run_bind_of_ok (run_pure x ch c)]
  rfl

@[simp] theorem run_bind_get (f : Client W → Act W β) (c : Client W) :
    run (get >>= f) ch c = run (f c) ch c := by
  rw [run_bind_of_ok (run_get ch c)]
  rfl

@[simp] theorem run_bind_modify (g : Client W → Client W) (f : Unit → Act W β) (c : Client W) :
    run (modify g >>= f) ch c = run (f ()) ch (g c) := by
  rw [run_bind_of_ok (run_modify g ch c)]
  rfl

@[simp] theorem run_bind_emit (e : LifecycleEvent ClientId) (f : Unit → Act W β) (c : Client W) :
    run (emit e >>= f) ch c = (run (f ()) ch c).after (emitted ch e) :=
  run_bind_of_ok (run_emit e ch c) f

@[simp] theorem run_bind_call [ProcessView W] (call : ViewCall) (f : Bool → Act W β)
    (c : Client W) :
    run (Act.call call >>= f) ch c =
      (run (f (ProcessView.perform c.view call).1) ch
        { c with view := (ProcessView.perform c.view call).2 }).after
          (callEffects c.id c.view [call]) :=
  run_bind_of_ok (run_call call ch c) f

@[simp] theorem run_bind_tell [ProcessView W] (call : ViewCall) (f : Unit → Act W β)
    (c : Client W) :
    run (tell call >>= f) ch c =
      (run (f ()) ch { c with view := (ProcessView.perform c.view call).2 }).after
        (callEffects c.id c.view [call]) :=
  run_bind_of_ok (run_tell call ch c) f

theorem run_ite (p : Prop) [Decidable p] (a b : Act W α) (c : Client W) :
    run (if p then a else b) ch c = if p then run a ch c else run b ch c := by
  split <;> rfl

end Act

end Parts

/-! ## The steps that make the calls -/

namespace Act

variable (ch : Channels) (o : ClientState V) (kids : List (Client V))

theorem run_updateFields (ps : List Parameter) :
    run (updateFields ps) ch ⟨o, kids⟩ =
      ⟨.ok (hasFields o.view ps),
        ⟨{ o with view := performAll o.view (fieldCalls o.view ps) }, kids⟩,
        callEffects o.id o.view (fieldCalls o.view ps)⟩ := by
  induction ps generalizing o with
  | nil => rfl
  | cons p ps ih =>
    rw [updateFields, run_bind, run_call]
    dsimp only
    rw [hasFields, fieldCalls]
    cases h : (ProcessView.perform o.view (.updateField p)).1
    · simp [h]
    · simp [h, ih]

theorem run_render (s : Snapshot) :
    run (render s) ch ⟨o, kids⟩ =
      ⟨.ok (),
        ⟨{ o with rendered := some (Layout.ofSnapshot s), current := some s,
                  view := performAll o.view (drawCalls o.view o.rendered s) }, kids⟩,
        callEffects o.id o.view (drawCalls o.view o.rendered s)⟩ := by
  have hfields := run_bind_of_ok (β := Unit) (run_updateFields ch o kids s.parameters)
  unfold render drawCalls
  by_cases hl : o.rendered = some (Layout.ofSnapshot s)
  · cases hf : hasFields o.view s.parameters
    · simp [hl, hf, hfields, performAll_append, callEffects_append]
    · simp [hl, hf, hfields]
  · simp [hl]

theorem run_showFieldErrors (entries : List (String × String)) :
    run (showFieldErrors entries) ch ⟨o, kids⟩ =
      ⟨.ok (), ⟨{ o with view := performAll o.view (complaintCalls o.view entries) }, kids⟩,
        callEffects o.id o.view (complaintCalls o.view entries)⟩ := by
  induction entries generalizing o with
  | nil => rfl
  | cons e rest ih =>
    obtain ⟨field, text⟩ := e
    rw [showFieldErrors, complaintCalls]
    cases h : (ProcessView.perform o.view (.showFieldError field text)).1
    · simp [h, ih]
    · simp [h, ih]

end Act

end Stepwise
