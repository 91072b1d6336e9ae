/-
# What the user has entered is kept

Whoever listens, and whatever is refused on the way, a client changes the values of its parameters in
two ways only: the user edits them, or a snapshot comes and is taken over. Each step is followed part by
part; most parts leave the values as they are.

* `Stimulus.comes`, `Stimulus.edits` : the snapshot that comes, and the edits;
* `Act.Keeps`, `Act.Takes` : steps that leave the values, and steps that may take those of a snapshot;
* `Stimulus.answers_act` : all that can happen is such a step, but for what the user enters;
* `Client.face_values` : what becomes of the values, whatever happens to a client;
* `Client.face_quiet` : without anybody who takes requests there are none.
-/
import Stepwise.Proofs.Client.Draft
import Stepwise.Proofs.Client.History

namespace Stepwise

variable {V : Type}

/-! ## Snapshots and edits that come -/

/-- The snapshot that comes to a client in some phase. -/
def Stimulus.comes (phase : Phase) : Stimulus → Option Snapshot
  | .action (.attach s) => if phase = .idle then some s else none
  | .response (.ok s) => if phase.isTerminal then none else some s
  | .response (.error (.recoverable _ _ replacement)) =>
    if phase.isTerminal then none else replacement
  | _ => none

/-- The edits that a client notes. It notes those of a submission even if the request that is to
follow cannot be handed over. -/
def Stimulus.edits : Stimulus → Except ClientError (Option Outcome) → List (String × Value)
  | .action (.edit name value), .ok (some .recorded) => [(name, value)]
  | .action (.submit edits _), .ok (some .sent) => edits
  | .action (.submit edits _), .error .channelClosed => edits
  | _, _ => []

/-- The parameters of the current snapshot, without marks. -/
def ClientState.values (o : ClientState V) : Option (List Parameter) := o.current.map Snapshot.values

namespace Moment

/-- The snapshot that comes. -/
def comes (m : Moment V) : Option Snapshot := m.stimulus.comes m.before.phase

/-- The edits that are noted. -/
def edits (m : Moment V) : List (String × Value) := m.stimulus.edits m.turn.result

/-- A snapshot comes, and its parameters are the client's own afterwards. -/
def Adopts (m : Moment V) : Prop :=
  ∃ s, m.comes = some s ∧ m.turn.client.values = some s.values

end Moment

/-- The values after some edits. -/
def revised (edits : List (String × Value)) (values : Option (List Parameter)) :
    Option (List Parameter) :=
  values.map ((Draft.ofEdits edits).parameters [])

@[simp] theorem revised_nil (o : ClientState V) : revised [] o.values = o.values := by
  rw [revised, ClientState.values]
  cases o.current with
  | none => rfl
  | some s =>
    rw [Option.map_some, Option.map_some, Draft.parameters_ofEdits_nil]
    exact congrArg some (Snapshot.values_clearModified s)

theorem revised_append (edits others : List (String × Value)) (values : Option (List Parameter)) :
    revised (edits ++ others) values = revised others (revised edits values) := by
  cases values with
  | none => rfl
  | some ps => exact congrArg some (Draft.parameters_ofEdits_append edits others [] ps)

/-! ## Parts of a step -/

namespace Act

variable {α β : Type}

/-- Nothing is handed over if nobody takes it. -/
def Quiet (ch : Channels) (effects : List Effect) : Prop :=
  ch.dispatchOpen = false → dispatchesOf effects = []

/-- The step leaves the values as they are, whoever listens. -/
def Keeps (a : Act V α) : Prop :=
  ∀ ch c, (a.run ch c).client.values = c.values ∧ Quiet ch (a.run ch c).effects

/-- The step leaves the values as they are, or takes those of a snapshot. -/
def Takes (s : Snapshot) (a : Act V α) : Prop :=
  ∀ ch c, ((a.run ch c).client.values = c.values ∨ (a.run ch c).client.values = some s.values) ∧
    Quiet ch (a.run ch c).effects

section Calculus

variable {ch : Channels} {xs ys : List Effect} {s : Snapshot} {a : Act V α} {f : α → Act V β}

theorem Quiet.append (hx : Quiet ch xs) (hy : Quiet ch ys) : Quiet ch (xs ++ ys) := fun closed => by
  rw [dispatchesOf_append, hx closed, hy closed]
  rfl

theorem quiet_nil : Quiet ch [] := fun _ => rfl

theorem quiet_callEffects [ProcessView V] (id : ClientId) (v : V) (calls : List ViewCall) :
    Quiet ch (callEffects id v calls) := fun _ => dispatchesOf_callEffects id v calls

theorem quiet_emitted (e : LifecycleEvent ClientId) : Quiet ch (emitted ch e) :=
  fun _ => dispatchesOf_emitted ch e

theorem Keeps.pure (x : α) : Keeps (Pure.pure x : Act V α) := fun _ _ => ⟨rfl, quiet_nil⟩

theorem Keeps.get : Keeps (get : Act V (Client V)) := fun _ _ => ⟨rfl, quiet_nil⟩

theorem Keeps.refuse (e : ClientError) : Keeps (Act.refuse e : Act V α) := fun _ _ => ⟨rfl, quiet_nil⟩

theorem Keeps.modify {g : Client V → Client V} (h : ∀ c, (g c).values = c.values) :
    Keeps (Act.modify g) := fun _ c => ⟨h c, quiet_nil⟩

theorem Keeps.emit (e : LifecycleEvent ClientId) : Keeps (Act.emit e : Act V Unit) :=
  fun _ _ => ⟨rfl, quiet_emitted e⟩

theorem Keeps.hand (r : Request) : Keeps (Act.hand r : Act V Unit) := fun ch c => by
  rw [run_hand]
  cases taken : ch.dispatchOpen with
  | true =>
    refine ⟨rfl, fun closed => ?_⟩
    rw [taken] at closed
    cases closed
  | false => exact ⟨rfl, quiet_nil⟩

theorem Keeps.bind (ha : Keeps a) (hf : ∀ x, Keeps (f x)) : Keeps (a >>= f) := fun ch c => by
  rw [run_bind]
  split
  · next x _ =>
    obtain ⟨same, quiet⟩ := hf x ch (a.run ch c).client
    exact ⟨same.trans (ha ch c).1, (ha ch c).2.append quiet⟩
  · exact ha ch c

theorem Keeps.ite {p : Prop} [Decidable p] {a b : Act V α} (ha : Keeps a) (hb : Keeps b) :
    Keeps (if p then a else b) := by
  split
  · exact ha
  · exact hb

theorem Keeps.takes (ha : Keeps a) : Takes s a := fun ch c => ⟨.inl (ha ch c).1, (ha ch c).2⟩

theorem Takes.after (ha : Keeps a) (hf : ∀ x, Takes s (f x)) : Takes s (a >>= f) := fun ch c => by
  rw [run_bind]
  split
  · next x _ =>
    obtain ⟨takes, quiet⟩ := hf x ch (a.run ch c).client
    rw [(ha ch c).1] at takes
    exact ⟨takes, (ha ch c).2.append quiet⟩
  · exact ha.takes ch c

theorem Takes.before (ha : Takes s a) (hf : ∀ x, Keeps (f x)) : Takes s (a >>= f) := fun ch c => by
  rw [run_bind]
  split
  · next x _ =>
    obtain ⟨same, quiet⟩ := hf x ch (a.run ch c).client
    obtain ⟨takes, earlier⟩ := ha ch c
    rw [← same] at takes
    exact ⟨takes, earlier.append quiet⟩
  · exact ha ch c

theorem Takes.ite {p : Prop} [Decidable p] {a b : Act V α} (ha : Takes s a) (hb : Takes s b) :
    Takes s (if p then a else b) := by
  split
  · exact ha
  · exact hb

/-- What a step with a snapshot, or without one, leaves to the client: the snapshot's values, or its
own. -/
def Answers (brought : Option Snapshot) (a : Act V α) : Prop :=
  match brought with
  | some s => Takes s a
  | none => Keeps a

theorem Answers.dropped {brought : Option Snapshot} (h : Answers brought a) (x : β) :
    Answers brought (a >>= fun _ => Pure.pure x) := by
  cases brought with
  | none => exact Keeps.bind h fun _ => .pure x
  | some s => exact Takes.before h fun _ => .pure x

theorem Answers.quiet {brought : Option Snapshot} (h : Answers brought a) (ch : Channels)
    (c : Client V) : Quiet ch (a.run ch c).effects := by
  cases brought with
  | none => exact (h ch c).2
  | some s => exact (h ch c).2

/-- A snapshot is stored. -/
theorem Takes.modify {g : Client V → Client V} (h : ∀ c, (g c).values = some s.values) :
    Takes s (Act.modify g) := fun _ c => ⟨.inr (h c), quiet_nil⟩

end Calculus

/-! ## Requests -/

section Requests

variable [ProcessView V]

theorem Keeps.tell (v : ViewCall) : Keeps (Act.tell v : Act V Unit) := fun _ _ => ⟨rfl, fun _ => rfl⟩

theorem Keeps.send (r : Request) : Keeps (send r : Act V Outcome) :=
  .bind (.hand r) fun _ => .bind (.modify fun _ => rfl) fun _ => .bind (.tell _) fun _ => .pure _

/-- Marks are no values. -/
theorem Keeps.proceed (mode : Mode) (event : Option Interaction) :
    Keeps (proceed mode event : Act V Outcome) := fun ch c => by
  unfold Act.proceed
  rw [run_bind_get]
  cases current : c.current with
  | none => exact ⟨rfl, quiet_nil⟩
  | some s =>
    dsimp only
    rw [run_bind_modify]
    obtain ⟨same, quiet⟩ := Keeps.send (.continue (outgoing s) mode event) ch
      { c with current := some s.clearModified
               cancelSent := if mode = .cancel then true else c.cancelSent }
    refine ⟨same.trans ?_, quiet⟩
    rw [ClientState.values, ClientState.values, current]
    exact congrArg some s.values_clearModified

/-- Going on from a snapshot sends a request, unless nobody takes it. -/
theorem result_proceed (ch : Channels) (o : ClientState V) {s : Snapshot}
    (current : o.current = some s) (mode : Mode) (event : Option Interaction)
    (kids : List (Client V)) :
    ((Act.proceed mode event).run ch ⟨o, kids⟩).result = .ok .sent ∨
      ((Act.proceed mode event).run ch ⟨o, kids⟩).result = .error .channelClosed := by
  cases open' : ch.dispatchOpen with
  | true =>
    rw [run_proceed open' current]
    exact .inl rfl
  | false =>
    refine .inr ?_
    simp [Act.proceed, Act.send, run_bind, run_hand, current, open']

/-- A request ends the part of a step that takes a snapshot. -/
theorem Keeps.passOn (mode : Mode) :
    Keeps (Act.proceed mode none >>= fun _ => Pure.pure () : Act V Unit) :=
  .bind (.proceed mode none) fun _ => .pure ()

end Requests

/-! ## Responses -/

section Responses

variable [ProcessView V]

theorem Takes.render (s : Snapshot) : Takes s (render s : Act V Unit) := fun ch c => by
  obtain ⟨o, kids⟩ := c
  rw [run_render]
  exact ⟨.inr rfl, quiet_callEffects _ _ _⟩

omit [ProcessView V] in
theorem Keeps.emitUpdated : Keeps (emitUpdated : Act V Unit) :=
  .bind .get fun c => by
    cases c.current with
    | none => exact .pure ()
    | some s => exact .emit _

theorem Takes.finish (s : Snapshot) (previousFinal : Bool) :
    Takes s (finish s previousFinal : Act V Unit) := fun ch c => by
  obtain ⟨o, kids⟩ := c
  rw [run_finish]
  exact ⟨.inr rfl, (quiet_callEffects _ _ _).append (quiet_emitted _)⟩

omit [ProcessView V] in
theorem Keeps.onFinalStep : Keeps (onFinalStep : Act V Bool) := .bind .get fun _ => .pure _

/-- The clients of children have values of their own. -/
theorem Keeps.spawn (s : Snapshot) {takeOver : Act V Unit}
    (h : ∀ ch c, Quiet ch (takeOver.run ch c).effects) : Keeps (spawn s takeOver) := by
  refine .bind .get fun before => .bind (.tell _) fun _ => fun ch c => ?_
  have quiet := h ch (newChild c (ProcessView.childPanel before.view s))
  unfold Act.run at quiet ⊢
  dsimp only
  split
  · exact ⟨rfl, quiet⟩
  · exact ⟨rfl, quiet⟩

theorem Keeps.spawnAll {ss : List Snapshot}
    (h : ∀ s ∈ ss, ∀ ch c, Quiet ch (((attach s : Act V Unit)).run ch c).effects) :
    Keeps (spawnAll ss : Act V Unit) := by
  induction ss with
  | nil =>
    rw [Act.spawnAll]
    exact .pure ()
  | cons s rest ih =>
    rw [Act.spawnAll]
    exact .bind (.spawn s (h s List.mem_cons_self)) fun _ =>
      ih fun t ht => h t (List.mem_cons_of_mem _ ht)

theorem Takes.receiveOpen (s : Snapshot) {spawning : Act V Unit} (h : Keeps spawning) :
    Takes s (receiveOpen s spawning) := by
  refine .after .get fun c => .after (.modify fun _ => rfl) fun _ => .ite ?_ ?_
  · exact .before (.modify fun _ => rfl) fun _ => .passOn _
  · refine .after (.modify fun _ => rfl) fun _ => .after (.tell _) fun _ =>
      .after .onFinalStep fun previousFinal => .after h fun _ => .ite (.finish s _) (.ite ?_ ?_)
    · exact Takes.finish { s with finished := true } previousFinal
    · refine .after (.modify fun _ => rfl) fun _ => .ite ?_ ?_
      · exact .before (.modify fun _ => rfl) fun _ => .passOn _
      · exact .before (.render s) fun _ => .emitUpdated

omit [ProcessView V] in
theorem Takes.takeOver {s : Snapshot} (processName : String) {receive : Act V Unit}
    (h : Takes s receive) : Takes s (takeOver processName receive) :=
  .after .get fun _ => .ite (Keeps.refuse _).takes (.after (.modify fun _ => rfl) fun _ =>
    .after (.emit _) fun _ => h)

/-- A snapshot is taken over, unless a request on the way cannot be handed over. -/
theorem Takes.receive (s : Snapshot) : Takes s (receive s : Act V Unit) := by
  induction s using Snapshot.forall_of_children with
  | h s ih =>
    rw [receive_eq]
    exact .after .get fun _ => .ite (Keeps.pure ()).takes (.receiveOpen s (.spawnAll fun t ht ch c =>
      (Takes.takeOver t.processName (ih t ht) ch c).2))

theorem Takes.attach (s : Snapshot) : Takes s (attach s : Act V Unit) := .takeOver _ (.receive s)

theorem Keeps.failFor (message : String) : Keeps (failFor message : Act V Unit) :=
  .bind (.modify fun _ => rfl) fun _ => .bind (.tell _) fun _ => .bind .get fun _ =>
    .bind (.tell _) fun _ => .emit _

theorem Keeps.showFieldErrors (entries : List (String × String)) :
    Keeps (showFieldErrors entries : Act V Unit) := fun ch c => by
  obtain ⟨o, kids⟩ := c
  rw [run_showFieldErrors]
  exact ⟨rfl, quiet_callEffects _ _ _⟩

theorem answers_recoverCancelling (message : String) (replacement : Option Snapshot) :
    Answers replacement (recoverCancelling message replacement : Act V Unit) := by
  -- without a process there is nothing to cancel
  have withdraws : Keeps (do
      modify fun c => { c with phase := .idle }
      tell (.setBusy false)
      tell (.showMessage message) : Act V Unit) :=
    .bind (.modify fun _ => rfl) fun _ => .bind (.tell _) fun _ => .tell _
  cases replacement with
  | none => exact .bind (.modify fun _ => rfl) fun _ => .bind .get fun _ => .ite (.passOn _) withdraws
  | some s =>
    exact .before (.modify fun _ => rfl) fun _ => .bind .get fun _ => .ite (.passOn _) withdraws

theorem answers_recover (message : String) (fieldErrors : KeyMap String)
    (replacement : Option Snapshot) :
    Answers replacement (recover message fieldErrors replacement : Act V Unit) := by
  cases replacement with
  | none =>
    refine Keeps.bind (.tell _) fun _ => .bind .get fun _ => .ite ?_ ?_
    · exact .bind (.modify fun _ => rfl) fun _ => .tell _
    · refine .bind (.modify fun _ => rfl) fun _ => .ite ?_ ?_
      · exact .bind (.tell _) fun _ => .showFieldErrors _
      · exact .bind (.pure ()) fun _ => .showFieldErrors _
  | some s =>
    refine Takes.after (.tell _) fun _ => .after .get fun _ => .ite ?_ ?_
    · exact .after .onFinalStep fun previousFinal => .finish s previousFinal
    · exact .after (.modify fun _ => rfl) fun _ => .before (.render s) fun _ =>
        .bind (.tell _) fun _ => .emitUpdated

/-- The replacement that comes with an error. -/
theorem answers_fail (message : String) (fieldErrors : KeyMap String)
    (replacement : Option Snapshot) :
    Answers replacement (fail (.recoverable message fieldErrors replacement) : Act V Unit) := by
  have hcancel := answers_recoverCancelling (V := V) message replacement
  have hrecover := answers_recover (V := V) message fieldErrors replacement
  cases replacement with
  | none =>
    exact .bind .get fun _ => .ite (.pure ()) (.bind (.modify fun _ => rfl) fun _ =>
      .bind (.modify fun _ => rfl) fun _ => .ite hcancel hrecover)
  | some s =>
    exact .after .get fun _ => .ite (Keeps.pure ()).takes (.after (.modify fun _ => rfl) fun _ =>
      .after (.modify fun _ => rfl) fun _ => .ite hcancel hrecover)

theorem Keeps.failUnrecoverable (message : String) (cause : Option String) :
    Keeps (fail (.unrecoverable message cause) : Act V Unit) :=
  .bind .get fun _ => .ite (.pure ()) (.bind (.modify fun _ => rfl) fun _ => .failFor message)

end Responses

/-! ## Actions -/

section Actions

variable [ProcessView V]

omit [ProcessView V] in
theorem Keeps.ensureOpen : Keeps (ensureOpen : Act V Unit) :=
  .bind .get fun _ => .ite (.refuse _) (.pure ())

omit [ProcessView V] in
theorem Keeps.ensureInteracting (operation : Operation) :
    Keeps (ensureInteracting operation : Act V Unit) :=
  .bind .get fun _ => .ite (.refuse _) (.pure ())

omit [ProcessView V] in
theorem Keeps.navigate (operation : Operation) {step : Act V Outcome} (h : Keeps step) :
    Keeps (navigate operation step) :=
  .bind .ensureOpen fun _ => .bind .get fun _ => .ite (.pure _)
    (.bind (.ensureInteracting operation) fun _ => .ite (.pure _) h)

theorem Keeps.start (d : Descriptor) : Keeps (start d : Act V Outcome) :=
  .bind .get fun _ => .ite (.refuse _) (.bind (.modify fun _ => rfl) fun _ => .bind (.emit _)
    fun _ => .bind (.send _) fun _ => .bind (.modify fun _ => rfl) fun _ => .pure _)

theorem Keeps.advance : Keeps (advance : Act V Outcome) :=
  .navigate _ (.bind .get fun _ => .ite (.proceed _ _) (.pure _))

theorem Keeps.rollback : Keeps (rollback : Act V Outcome) :=
  .navigate _ (.bind .get fun _ => .ite (.proceed _ _) (.pure _))

theorem Keeps.reload : Keeps (reload : Act V Outcome) := .navigate _ (.proceed _ _)

theorem Keeps.askToCancel (processName : String) : Keeps (askToCancel processName : Act V Outcome) :=
  .bind (.modify fun _ => rfl) fun _ => .bind (.tell _) fun _ => .pure _

theorem Keeps.cancel : Keeps (cancel : Act V Outcome) := by
  refine .bind .ensureOpen fun _ => .bind .get fun c => .ite (.pure _) (.ite (.refuse _) (.ite
    (.bind (.modify fun _ => rfl) fun _ => .pure _) (.ite (.pure _) ?_)))
  cases c.current with
  | none => exact .refuse _
  | some s => exact .ite (.proceed _ _) (.askToCancel _)

omit [ProcessView V] in
theorem Keeps.pause : Keeps (pause : Act V Unit) := .modify fun _ => rfl

theorem Keeps.resume : Keeps (resume : Act V Outcome) :=
  .bind (.modify fun _ => rfl) fun _ => .bind .get fun _ => .ite (.proceed _ _) (.pure _)

theorem Keeps.answer (accepted : Bool) : Keeps (answer accepted : Act V Outcome) :=
  .bind .get fun _ => .ite (.refuse _) (.bind (.modify fun _ => rfl) fun _ => .bind .ensureOpen
    fun _ => .ite (.ite (.bind (.modify fun _ => rfl) fun _ => .pure _) (.proceed _ _))
      (.ite .resume (.pure _)))

end Actions

end Act

/-! ## Whatever happens -/

section Moments

variable [ProcessView V]

/-- The user enters something. -/
def Stimulus.isEntry : Stimulus → Bool
  | .action (.edit ..) => true
  | .action (.submit ..) => true
  | _ => false

/-- The snapshot that is brought to a client, whether it comes or not. -/
def Stimulus.snapshot? : Stimulus → Option Snapshot
  | .action (.attach s) => some s
  | .response (.ok s) => some s
  | .response (.error (.recoverable _ _ replacement)) => replacement
  | _ => none

/-- Whatever happens, the values are those of the client or of the snapshot that is brought, unless the
user enters others. -/
theorem Stimulus.answers_act {i : Stimulus} (h : i.isEntry = false) :
    Act.Answers i.snapshot? (i.act : Act V (Option Outcome)) := by
  cases i with
  | response result =>
    cases result with
    | ok s => exact Act.Takes.before (.receive s) fun _ => .pure none
    | error e =>
      cases e with
      | unrecoverable message cause =>
        exact Act.Keeps.bind (.failUnrecoverable message cause) fun _ => .pure none
      | recoverable message fieldErrors replacement =>
        exact (Act.answers_fail message fieldErrors replacement).dropped none
  | action a =>
    cases a with
    | start d => exact Act.Keeps.bind (.start d) fun x => .pure (some x)
    | attach s => exact Act.Takes.before (.attach s) fun _ => .pure none
    | edit | submit => cases h
    | advance => exact Act.Keeps.bind .advance fun x => .pure (some x)
    | rollback => exact Act.Keeps.bind .rollback fun x => .pure (some x)
    | reload => exact Act.Keeps.bind .reload fun x => .pure (some x)
    | cancel => exact Act.Keeps.bind .cancel fun x => .pure (some x)
    | answer accepted => exact Act.Keeps.bind (.answer accepted) fun x => .pure (some x)
    | pause => exact Act.Keeps.bind .pause fun _ => .pure none
    | resume => exact Act.Keeps.bind .resume fun x => .pure (some x)

omit [ProcessView V] in
theorem Stimulus.edits_of_not_isEntry {i : Stimulus} (h : i.isEntry = false)
    (r : Except ClientError (Option Outcome)) : i.edits r = [] := by
  cases i with
  | response => rfl
  | action a =>
    cases a with
    | edit | submit => cases h
    | _ => rfl

/-- A snapshot that is brought comes, or nothing happens. -/
theorem Stimulus.comes_or_run (i : Stimulus) (ch : Channels) (c : Client V) {s : Snapshot}
    (brought : i.snapshot? = some s) :
    i.comes c.phase = some s ∨ (i.act.run ch c).client = c := by
  -- a process that is over takes no response
  have respond {result : Except ServiceError Snapshot}
      (h : (Stimulus.response result).snapshot? = some s) :
      (Stimulus.response result).comes c.phase = some s ∨
        ((Stimulus.response result).act.run ch c).client = c := by
    by_cases ended : c.phase.isTerminal = true
    · right
      show (Act.run (Act.respond result >>= fun _ => pure none) ch c).client = c
      cases result with
      | ok t =>
        rw [Act.respond, Act.receive_eq, Act.run_bind, Act.run_bind_get, if_pos ended]
        rfl
      | error e =>
        rw [Act.respond, Act.fail, Act.run_bind, Act.run_bind_get, if_pos ended]
        rfl
    · left
      cases result with
      | ok t => exact (if_neg ended).trans h
      | error e =>
        cases e with
        | unrecoverable => cases h
        | recoverable => exact (if_neg ended).trans h
  cases i with
  | response result => exact respond brought
  | action a =>
    cases a with
    | attach t =>
      by_cases idle : c.phase = .idle
      · exact .inl ((if_pos idle).trans brought)
      · right
        show (Act.run (Act.attach t >>= fun _ => pure none) ch c).client = c
        obtain ⟨o, kids⟩ := c
        rw [Act.run_bind_of_error (Act.run_attach_of_not_idle ch t idle)]
    | _ => cases brought

/-- An edit that is noted gives its value to the first parameter of its name. -/
theorem Reaction.values_of_edit {ch : Channels} {o o' : ClientState V} {name : String}
    {value : Value} {r : Except ClientError (Option Outcome)} {own : List Effect}
    (reaction : Reaction ch o (.action (.edit name value)) r o' own) :
    o'.values = revised ((Stimulus.action (.edit name value)).edits r) o.values := by
  cases reaction with
  | refused a e => exact (revised_nil o).symm
  | ignored a reason => exact (revised_nil o).symm
  | edited _ _ _ _ s t current edited =>
    have hall : s.editAll [(name, value)] = some t := by
      rw [Snapshot.editAll, edited]
      rfl
    rw [ClientState.values, ClientState.values, current]
    exact congrArg some (Snapshot.values_editAll hall)
  | navigated _ navigates => cases navigates

/-- An edit leaves no trace but in the snapshot. -/
theorem Reaction.own_of_edit {ch : Channels} {o o' : ClientState V} {name : String}
    {value : Value} {r : Except ClientError (Option Outcome)} {own : List Effect}
    (reaction : Reaction ch o (.action (.edit name value)) r o' own) : own = [] := by
  cases reaction with
  | refused | ignored | edited => rfl
  | navigated _ navigates => cases navigates

omit [ProcessView V] in
/-- A submission that declines notes nothing. -/
theorem edits_of_declined (edits : List (String × Value)) (event : Interaction)
    {r : Except ClientError Outcome} (handed : r ≠ .error .channelClosed)
    (declined : (∃ e, r = .error e) ∨ ∃ reason, r = .ok (.ignored reason)) :
    (Stimulus.action (.submit edits event)).edits (r.map some) = [] := by
  rcases declined with ⟨e, rfl⟩ | ⟨reason, rfl⟩
  · cases e with
    | channelClosed => exact absurd rfl handed
    | _ => rfl
  · rfl

/-- A submission notes its edits one after the other, unless it declines. -/
theorem values_submit (ch : Channels) (o : ClientState V) (kids : List (Client V))
    (edits : List (String × Value)) (event : Interaction) :
    ((Act.submit edits event).run ch ⟨o, kids⟩).client.values =
      revised ((Stimulus.action (.submit edits event)).edits
        (((Act.submit edits event).run ch ⟨o, kids⟩).result.map some)) o.values := by
  have submits : Act.Declines ch o kids (Act.submit edits event) ∨ _ :=
    Act.declines_submit edits event
  rcases submits with
    ⟨r, hrun, handed, declined⟩ | ⟨s, t, -, current, edited, hrun⟩
  · rw [hrun, edits_of_declined edits event handed declined, revised_nil]
  · rw [hrun]
    have hedits : (Stimulus.action (.submit edits event)).edits
        (((Act.proceed .execute (some event)).run ch ⟨{ o with current := some t }, kids⟩).result.map
          some) = edits := by
      rcases Act.result_proceed ch { o with current := some t } rfl .execute (some event) kids with
        hresult | hresult
      · rw [hresult]
        rfl
      · rw [hresult]
        rfl
    have hvalues : revised edits o.values = some t.values := by
      rw [ClientState.values, current]
      exact congrArg some (Snapshot.values_editAll edited).symm
    rw [hedits, hvalues]
    exact (Act.Keeps.proceed .execute (some event) ch _).1

/-- The user's entries are noted. -/
theorem Client.face_values_of_isEntry (ch : Channels) (c : Client V) {i : Stimulus}
    (entry : i.isEntry = true) :
    (c.face ch i).turn.client.values = revised (c.face ch i).edits c.values := by
  obtain ⟨o, kids⟩ := c
  cases i with
  | response => cases entry
  | action a =>
    cases a with
    | edit name value =>
      obtain ⟨o', reaction, hclient⟩ : Act.Reacts ch o kids (.edit name value) _ :=
        Act.reacts_edit name value
      have hturn : (Client.face ⟨o, kids⟩ ch (.action (.edit name value))).turn = _ :=
        Act.run_some _ _
      rw [Moment.edits, hturn, hclient]
      exact reaction.values_of_edit
    | submit edits event =>
      have hturn : (Client.face ⟨o, kids⟩ ch (.action (.submit edits event))).turn = _ :=
        Act.run_some _ _
      rw [Moment.edits, hturn]
      exact values_submit ch o kids edits event
    | _ => cases entry

/-- Whatever happens to a client, and whoever listens: it adopts the snapshot that comes, or its values
are those from before with the edits that were noted. -/
theorem Client.face_values (ch : Channels) (c : Client V) (i : Stimulus) :
    (c.face ch i).Adopts ∨
      (c.face ch i).turn.client.values = revised (c.face ch i).edits c.values := by
  cases entry : i.isEntry with
  | true => exact .inr (c.face_values_of_isEntry ch entry)
  | false =>
    have answers := Stimulus.answers_act (V := V) entry
    have unedited : (c.face ch i).edits = [] := Stimulus.edits_of_not_isEntry entry _
    rw [unedited, revised_nil]
    cases brought : i.snapshot? with
    | none =>
      rw [brought] at answers
      exact .inr (answers ch c).1
    | some s =>
      rw [brought] at answers
      rcases i.comes_or_run ch c brought with comes | same
      · exact (answers ch c).1.symm.imp_left fun takes => ⟨s, comes, takes⟩
      · exact .inr (congrArg (fun c : Client V => c.values) same)

/-- Whatever happens to a client, it hands nothing over if nobody takes it. -/
theorem Stimulus.quiet_act (i : Stimulus) (ch : Channels) (c : Client V) :
    Act.Quiet ch (i.act.run ch c).effects := by
  cases entry : i.isEntry with
  | false => exact (Stimulus.answers_act entry).quiet ch c
  | true =>
    obtain ⟨o, kids⟩ := c
    cases i with
    | response => cases entry
    | action a =>
      cases a with
      | edit name value =>
        obtain ⟨o', reaction, -⟩ : Act.Reacts ch o kids (.edit name value) _ :=
          Act.reacts_edit name value
        show Act.Quiet ch (Act.run (_ >>= fun x => pure (some x)) ch ⟨o, kids⟩).effects
        rw [Act.run_some, reaction.own_of_edit]
        exact Act.quiet_nil
      | submit edits event =>
        have submits : Act.Declines ch o kids (Act.submit edits event) ∨ _ :=
          Act.declines_submit edits event
        show Act.Quiet ch (Act.run (_ >>= fun x => pure (some x)) ch ⟨o, kids⟩).effects
        rw [Act.run_some]
        rcases submits with ⟨r, hrun, -⟩ | ⟨s, t, -, -, -, hrun⟩
        · rw [hrun]
          exact Act.quiet_nil
        · rw [hrun]
          exact (Act.Keeps.proceed .execute (some event) ch _).2
      | _ => cases entry

/-- A client sends no requests if nobody takes them. -/
theorem Client.face_quiet {ch : Channels} (closed : ch.dispatchOpen = false) (c : Client V)
    (i : Stimulus) : (c.face ch i).requests = [] := by
  rw [Moment.requests, Moment.own, requestsOf_about, Client.face, i.quiet_act ch c closed]
  rfl

end Moments

end Stepwise
