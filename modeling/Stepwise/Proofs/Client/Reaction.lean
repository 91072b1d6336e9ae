/-
# Everything that a client can do

From outside a client sees two kinds of things: its user acts, and its request is answered. What
follows for the client itself is one of a fixed list of reactions, each with the conditions under
which it happens. Invariants of clients are proved by going through this list.

* `UserAction`, `Stimulus` : what can happen to a client;
* `Reaction` : what the client does then;
* `Stimulus.follows_run` : nothing else happens, as long as requests are taken.
-/
import Stepwise.Client.Operation
import Stepwise.Proofs.Client.Reception

namespace Stepwise

/-- What a user, or whoever holds the client, can do with it. -/
inductive UserAction where
  | start (descriptor : Descriptor)
  | attach (s : Snapshot)
  | edit (name : String) (value : Value)
  | submit (edits : List (String × Value)) (event : Interaction)
  | advance
  | rollback
  | reload
  | cancel
  | answer (accepted : Bool)
  | pause
  | resume

/-- What can happen to a client. -/
inductive Stimulus where
  | action (a : UserAction)
  /-- Its request is answered. -/
  | response (result : Except ServiceError Snapshot)

variable {V : Type} [ProcessView V]

/-- What the client is made to do; the outcome, if there is one. -/
def UserAction.act : UserAction → Act V (Option Outcome)
  | .start d => Act.start d >>= fun x => pure (some x)
  | .attach s => Act.attach s >>= fun _ => pure none
  | .edit name value => Act.recordEdit name value >>= fun x => pure (some x)
  | .submit edits event => Act.submit edits event >>= fun x => pure (some x)
  | .advance => Act.advance >>= fun x => pure (some x)
  | .rollback => Act.rollback >>= fun x => pure (some x)
  | .reload => Act.reload >>= fun x => pure (some x)
  | .cancel => Act.cancel >>= fun x => pure (some x)
  | .answer accepted => Act.answer accepted >>= fun x => pure (some x)
  | .pause => Act.pause >>= fun _ => pure none
  | .resume => Act.resume >>= fun x => pure (some x)

/-- What the client is made to do. -/
def Stimulus.act : Stimulus → Act V (Option Outcome)
  | .action a => a.act
  | .response result => Act.respond result >>= fun _ => pure none

/-- The snapshot after several edits, one after the other; none if one of the names is unknown. -/
def Snapshot.editAll (s : Snapshot) : List (String × Value) → Option Snapshot
  | [] => some s
  | (name, value) :: rest => (s.edit? name value).bind fun t => t.editAll rest

/-- A step is shown, and the user may act on it. -/
structure ClientState.Offers (o : ClientState V) : Prop where
  shown : o.phase = .interacting
  unlocked : o.locked = false
  settled : o.awaitingConfirmation = false

/-- A cancel can begin. -/
structure ClientState.Cancellable (o : ClientState V) : Prop where
  going : o.phase.isTerminal = false
  begun : o.phase ≠ .idle
  waits : o.pendingCancel = false
  sent : o.cancelSent = false

/-- How a user goes on from the step that is shown: the action, the snapshot that goes out, what the
server is asked for, and the event behind it. -/
inductive Navigates (o : ClientState V) :
    UserAction → Snapshot → Mode → Option Interaction → Prop where
  | submitted (edits : List (String × Value)) (event : Interaction) (s t : Snapshot)
      (current : o.current = some s) (edited : s.editAll edits = some t) :
    Navigates o (.submit edits event) t .execute (some event)
  | advanced (s : Snapshot) (current : o.current = some s)
      (offered : (s.immediateInteraction && s.awaitsInput) = false) :
    Navigates o .advance s .execute none
  | rolledBack (s : Snapshot) (current : o.current = some s) (offered : s.canRollback = true)
      (rest : s.autoContinue = true → o.autoContinuePaused = true) :
    Navigates o .rollback s .rollback none
  | reloaded (s : Snapshot) (current : o.current = some s) : Navigates o .reload s .reload none

/-- What follows when steps go on by themselves again. -/
inductive Resumed (o : ClientState V) : Outcome → ClientState V → List Effect → Prop where
  | stayed : Resumed o (.ignored .nothingToResume) { o with autoContinuePaused := false } []
  | continued (offers : o.Offers) (waits : o.pendingCancel = false) (s : Snapshot)
      (current : o.current = some s) (auto : s.autoContinue = true) :
    Resumed o .sent (ClientState.proceeded { o with autoContinuePaused := false } s .execute)
      (o.sendEffects (.continue (Act.outgoing s) .execute none))

/-- The client once its question is answered. -/
def ClientState.settled (o : ClientState V) : ClientState V :=
  { o with awaitingConfirmation := false, pausedByConfirmation := false }

/-- What a client does. The arguments after the stimulus are the result, the client itself afterwards,
and what it leaves behind. -/
inductive Reaction (ch : Channels) (o : ClientState V) :
    Stimulus → Except ClientError (Option Outcome) → ClientState V → List Effect → Prop where
  | refused (a : UserAction) (e : ClientError) : Reaction ch o (.action a) (.error e) o []
  | ignored (a : UserAction) (reason : IgnoreReason) :
    Reaction ch o (.action a) (.ok (some (.ignored reason))) o []
  | started (d : Descriptor) (idle : o.phase = .idle) :
    Reaction ch o (.action (.start d)) (.ok (some .sent))
      { ClientState.sent { o with phase := .running } with awaitingStart := true }
      (emitted ch (.started o.id d.name) ++ o.sendEffects (.start d))
  | attached (s : Snapshot) (idle : o.phase = .idle) {o' : ClientState V} {effects : List Effect}
      (received : Received ch s { o with phase := .running } o' effects) :
    Reaction ch o (.action (.attach s)) (.ok none) o'
      (emitted ch (.started o.id s.processName) ++ effects)
  | edited (name : String) (value : Value) (shown : o.phase = .interacting)
      (unlocked : o.locked = false) (s t : Snapshot) (current : o.current = some s)
      (edited : s.edit? name value = some t) :
    Reaction ch o (.action (.edit name value)) (.ok (some .recorded)) { o with current := some t } []
  | navigated {a : UserAction} {s : Snapshot} {mode : Mode} {event : Option Interaction}
      (offers : o.Offers) (navigates : Navigates o a s mode event) :
    Reaction ch o (.action a) (.ok (some .sent)) (o.proceeded s mode)
      (o.sendEffects (.continue (Act.outgoing s) mode event))
  | deferred (can : o.Cancellable) (locked : o.locked = true) :
    Reaction ch o (.action .cancel) (.ok (some .deferred)) { o with pendingCancel := true } []
  | asked (can : o.Cancellable) (unlocked : o.locked = false)
      (settled : o.awaitingConfirmation = false) (s : Snapshot) (current : o.current = some s)
      (asks : s.immediateInteraction = false) :
    Reaction ch o (.action .cancel) (.ok (some .awaitingConfirmation))
      { o with awaitingConfirmation := true, pausedByConfirmation := !o.autoContinuePaused
               autoContinuePaused := true
               view := performAll o.view [.ask (.cancelProcess s.processName)] }
      (callEffects o.id o.view [.ask (.cancelProcess s.processName)])
  | cancelled (can : o.Cancellable) (unlocked : o.locked = false)
      (settled : o.awaitingConfirmation = false) (s : Snapshot) (current : o.current = some s)
      (immediate : s.immediateInteraction = true) :
    Reaction ch o (.action .cancel) (.ok (some .sent)) (o.proceeded s .cancel)
      (o.sendEffects (.continue (Act.outgoing s) .cancel none))
  /-- The answer comes too late, or there is nothing to cancel. -/
  | answerLost (accepted : Bool) (e : ClientError) (asked : o.awaitingConfirmation = true)
      (lost : o.phase.isTerminal = true ∨ o.locked = false ∧ o.current = none) :
    Reaction ch o (.action (.answer accepted)) (.error e) o.settled []
  | accepted (asked : o.awaitingConfirmation = true) (going : o.phase.isTerminal = false)
      (unlocked : o.locked = false) (s : Snapshot) (current : o.current = some s) :
    Reaction ch o (.action (.answer true)) (.ok (some .sent)) (o.settled.proceeded s .cancel)
      (o.sendEffects (.continue (Act.outgoing s) .cancel none))
  | acceptedLocked (asked : o.awaitingConfirmation = true) (going : o.phase.isTerminal = false)
      (locked : o.locked = true) :
    Reaction ch o (.action (.answer true)) (.ok (some .deferred))
      { o.settled with pendingCancel := true } []
  | declined (asked : o.awaitingConfirmation = true) (going : o.phase.isTerminal = false)
      (own : o.pausedByConfirmation = false) :
    Reaction ch o (.action (.answer false)) (.ok (some (.ignored .nothingToResume))) o.settled []
  | declinedResumed (asked : o.awaitingConfirmation = true) (going : o.phase.isTerminal = false)
      (own : o.pausedByConfirmation = true) {x : Outcome} {o' : ClientState V}
      {effects : List Effect} (resumed : Resumed o.settled x o' effects) :
    Reaction ch o (.action (.answer false)) (.ok (some x)) o' effects
  | paused : Reaction ch o (.action .pause) (.ok none) { o with autoContinuePaused := true } []
  | resumed {x : Outcome} {o' : ClientState V} {effects : List Effect}
      (resumed : Resumed o x o' effects) :
    Reaction ch o (.action .resume) (.ok (some x)) o' effects
  | received {s : Snapshot} {o' : ClientState V} {effects : List Effect}
      (received : Received ch s o o' effects) :
    Reaction ch o (.response (.ok s)) (.ok none) o' effects
  | rejected {e : ServiceError} {o' : ClientState V} {effects : List Effect}
      (rejected : Rejected ch o e o' effects) :
    Reaction ch o (.response (.error e)) (.ok none) o' effects

/-! ## Phases and snapshots -/

section Phases

variable {ch : Channels} {o o' : ClientState V} {r : Except ClientError (Option Outcome)}
  {own : List Effect}

/-- A user neither ends a process nor opens it again. -/
theorem Reaction.isTerminal_act {a : UserAction} (reaction : Reaction ch o (.action a) r o' own)
    (begun : o.phase ≠ .idle ∨ ∀ s, a ≠ .attach s) : o'.phase.isTerminal = o.phase.isTerminal := by
  have ofResumed {o o' : ClientState V} {x : Outcome} {effects : List Effect}
      (resumed : Resumed o x o' effects) : o'.phase.isTerminal = o.phase.isTerminal := by
    cases resumed with
    | stayed => rfl
    | continued => exact ClientState.isTerminal_proceeded _ _ _
  cases reaction with
  | started d idle =>
    rw [idle]
    exact ClientState.isTerminal_sent { o with phase := .running }
  | attached s idle =>
    rcases begun with begun | other
    · exact absurd idle begun
    · exact absurd rfl (other s)
  | navigated | cancelled => exact ClientState.isTerminal_proceeded _ _ _
  | accepted => exact ClientState.isTerminal_proceeded o.settled _ _
  | declinedResumed _ _ _ resumed => exact ofResumed (o := o.settled) resumed
  | resumed resumed => exact ofResumed resumed
  | _ => rfl

/-- A client has a snapshot once one has come, unless it was over before. -/
theorem Received.isSome_current {s : Snapshot} (received : Received ch s o o' own)
    (shown : o.phase.isTerminal = true → o.current.isSome = true) : o'.current.isSome = true := by
  cases received with
  | closed ended => exact shown ended
  | cancelled => rfl
  | concluded _ _ conclusion => cases conclusion <;> rfl

/-- Whatever happens, a client with a snapshot has one afterwards. -/
theorem Reaction.isSome_current {i : Stimulus} (reaction : Reaction ch o i r o' own)
    (shown : o.current.isSome = true) : o'.current.isSome = true := by
  have ofResumed {o : ClientState V} {x : Outcome} {effects : List Effect}
      (resumed : Resumed o x o' effects) (shown : o.current.isSome = true) :
      o'.current.isSome = true := by
    cases resumed with
    | stayed => exact shown
    | continued => rfl
  cases reaction with
  | attached _ _ received => exact received.isSome_current fun _ => shown
  | declinedResumed _ _ _ resumed => exact ofResumed (o := o.settled) resumed shown
  | resumed resumed => exact ofResumed resumed shown
  | received received => exact received.isSome_current fun _ => shown
  | rejected rejected =>
    cases rejected with
    | withdrawn _ _ _ none => rw [none] at shown; cases shown
    | closed | failed | rejected => exact shown
    | cancelled | finished | replaced => rfl
  | edited | navigated | cancelled | accepted => rfl
  | refused | ignored | started | deferred | asked | answerLost | acceptedLocked | declined
  | paused => exact shown

end Phases

/-! ## Edits -/

/-- A snapshot knows a name if one of its parameters has it. -/
theorem Snapshot.isSome_parameter? (s : Snapshot) (name : String) :
    (s.parameter? name).isSome = (s.parameters.map (·.name)).any (· == name) := by
  rw [parameter?, List.isSome_find?, List.any_map]
  rfl

/-- An edit changes nothing about the names that are known. -/
theorem Snapshot.isSome_parameter?_edit {s t : Snapshot} {name : String} {value : Value}
    (h : s.edit? name value = some t) (other : String) :
    (t.parameter? other).isSome = (s.parameter? other).isSome := by
  rw [isSome_parameter?, isSome_parameter?, names_edit? h]

/-- Edits of known names go through. -/
theorem Snapshot.exists_editAll {edits : List (String × Value)} (s : Snapshot)
    (known : ∀ e ∈ edits, (s.parameter? e.1).isSome = true) : ∃ t, s.editAll edits = some t := by
  induction edits generalizing s with
  | nil => exact ⟨s, rfl⟩
  | cons e rest ih =>
    obtain ⟨name, value⟩ := e
    have hname : (s.edit? name value).isSome = true := by
      rw [isSome_edit?]
      exact known (name, value) List.mem_cons_self
    obtain ⟨t, ht⟩ := Option.isSome_iff_exists.1 hname
    obtain ⟨u, hu⟩ := ih t fun e he => by
      rw [isSome_parameter?_edit ht]
      exact known e (List.mem_cons_of_mem _ he)
    exact ⟨u, by rw [editAll, ht, Option.bind_some, hu]⟩

/-! ## The parts that the user's actions share -/

namespace Act

variable {ch : Channels}

section Parts

variable {W α : Type}

theorem run_bind_ensureOpen (f : Unit → Act W α) (c : Client W) :
    run (ensureOpen >>= f) ch c =
      if c.phase.isTerminal then ⟨.error (.closed c.phase), c, []⟩ else run (f ()) ch c := by
  by_cases ended : c.phase.isTerminal = true
  · rw [run_bind, ensureOpen, run_bind_get, if_pos ended, if_pos ended, run_refuse]
  · rw [run_bind, ensureOpen, run_bind_get, if_neg ended, if_neg ended, run_pure]
    rfl

theorem run_bind_ensureInteracting (operation : Operation) (f : Unit → Act W α) (c : Client W) :
    run (ensureInteracting operation >>= f) ch c =
      if c.phase ≠ .interacting then ⟨.error (.invalidPhase operation c.phase), c, []⟩
      else run (f ()) ch c := by
  by_cases other : c.phase ≠ .interacting
  · rw [run_bind, ensureInteracting, run_bind_get, if_pos other, if_pos other, run_refuse]
  · rw [run_bind, ensureInteracting, run_bind_get, if_neg other, if_neg other, run_pure]
    rfl

end Parts

omit [ProcessView V] in
/-- One edit of a step that is shown. -/
theorem run_recordEdit {o : ClientState V} {s t : Snapshot} (shown : o.phase = .interacting)
    (unlocked : o.locked = false) (current : o.current = some s) {name : String} {value : Value}
    (edited : s.edit? name value = some t) (kids : List (Client V)) :
    run (recordEdit name value) ch ⟨o, kids⟩ =
      ⟨.ok .recorded, ⟨{ o with current := some t }, kids⟩, []⟩ := by
  unfold recordEdit
  rw [run_bind_ensureOpen]
  simp [run_bind_ensureInteracting, shown, unlocked, current, edited, Phase.isTerminal]

omit [ProcessView V] in
/-- There is nothing to edit without a snapshot. -/
theorem run_recordEdits_none {o : ClientState V} (shown : o.phase = .interacting)
    (unlocked : o.locked = false) (current : o.current = none) (e : String × Value)
    (rest : List (String × Value)) (kids : List (Client V)) :
    run (recordEdits (e :: rest)) ch ⟨o, kids⟩ =
      ⟨.error (.unknownParameter e.1), ⟨o, kids⟩, []⟩ := by
  have hedit : run (recordEdit e.1 e.2) ch ⟨o, kids⟩ =
      ⟨.error (.unknownParameter e.1), ⟨o, kids⟩, []⟩ := by
    unfold recordEdit
    rw [run_bind_ensureOpen]
    simp [run_bind_ensureInteracting, shown, unlocked, current, Phase.isTerminal]
  rw [recordEdits, run_bind_of_error hedit]

omit [ProcessView V] in
/-- Several edits of a step that is shown. -/
theorem run_recordEdits {edits : List (String × Value)} {o : ClientState V} {s t : Snapshot}
    (shown : o.phase = .interacting) (unlocked : o.locked = false) (current : o.current = some s)
    (edited : s.editAll edits = some t) (kids : List (Client V)) :
    run (recordEdits edits) ch ⟨o, kids⟩ =
      ⟨.ok (), ⟨{ o with current := some t }, kids⟩, []⟩ := by
  induction edits generalizing o s with
  | nil =>
    obtain rfl : s = t := Option.some.inj edited
    rw [recordEdits, run_pure, ← current]
  | cons e rest ih =>
    obtain ⟨name, value⟩ := e
    obtain ⟨u, hu, hrest⟩ := Option.bind_eq_some_iff.1 edited
    rw [recordEdits, run_bind_of_ok (run_recordEdit shown unlocked current hu kids),
      ih (o := { o with current := some u }) shown unlocked rfl hrest, Turn.after_mk]
    rfl

/-! ## The reactions to the user's actions -/

/-- The turn is one of the reactions to an action, and children have no part in it. -/
def Reacts (ch : Channels) (o : ClientState V) (kids : List (Client V)) (a : UserAction)
    (t : Turn V Outcome) : Prop :=
  ∃ o', Reaction ch o (.action a) (t.result.map some) o' t.effects ∧ t.client = ⟨o', kids⟩

variable {o : ClientState V} {kids : List (Client V)} {a : UserAction}

theorem reacts_refused (e : ClientError) : Reacts ch o kids a ⟨.error e, ⟨o, kids⟩, []⟩ :=
  ⟨o, .refused a e, rfl⟩

theorem reacts_ignored (reason : IgnoreReason) :
    Reacts ch o kids a ⟨.ok (.ignored reason), ⟨o, kids⟩, []⟩ :=
  ⟨o, .ignored a reason, rfl⟩

/-- The step is refused or ignored before anything was to go out. -/
def Declines (ch : Channels) (o : ClientState V) (kids : List (Client V)) (step : Act V Outcome) :
    Prop :=
  ∃ r, run step ch ⟨o, kids⟩ = ⟨r, ⟨o, kids⟩, []⟩ ∧ r ≠ .error .channelClosed ∧
    ((∃ e, r = .error e) ∨ ∃ reason, r = .ok (.ignored reason))

/-- A step that declines leaves no trace. -/
theorem Declines.reacts {step : Act V Outcome} (h : Declines ch o kids step) :
    Reacts ch o kids a (run step ch ⟨o, kids⟩) := by
  obtain ⟨r, hrun, -, ⟨e, rfl⟩ | ⟨reason, rfl⟩⟩ := h
  · rw [hrun]
    exact reacts_refused e
  · rw [hrun]
    exact reacts_ignored reason

omit [ProcessView V] in
/-- Navigation declines, unless a step is offered. -/
theorem declines_navigate (operation : Operation) (step : Act V Outcome) :
    Declines ch o kids (navigate operation step) ∨
      o.Offers ∧ run (navigate operation step) ch ⟨o, kids⟩ = run step ch ⟨o, kids⟩ := by
  unfold Declines navigate
  rw [run_bind_ensureOpen]
  by_cases ended : o.phase.isTerminal = true
  · exact .inl ⟨_, if_pos ended, nofun, .inl ⟨_, rfl⟩⟩
  rw [if_neg ended, run_bind_get]
  by_cases locked : o.locked = true
  · rw [if_pos locked, run_pure]
    exact .inl ⟨_, rfl, nofun, .inr ⟨_, rfl⟩⟩
  rw [if_neg locked, run_bind_ensureInteracting]
  by_cases shown : o.phase = .interacting
  · rw [if_neg (not_not_intro shown)]
    by_cases asked : o.awaitingConfirmation = true
    · rw [if_pos asked, run_pure]
      exact .inl ⟨_, rfl, nofun, .inr ⟨_, rfl⟩⟩
    · rw [if_neg asked]
      exact .inr ⟨⟨shown, Bool.eq_false_iff.2 locked, Bool.eq_false_iff.2 asked⟩, rfl⟩
  · exact .inl ⟨_, if_pos shown, nofun, .inl ⟨_, rfl⟩⟩

/-- Navigation reacts if its last part does, once a step is offered. -/
theorem reacts_navigate (operation : Operation) (step : Act V Outcome)
    (hstep : o.Offers → Reacts ch o kids a (run step ch ⟨o, kids⟩)) :
    Reacts ch o kids a (run (navigate operation step) ch ⟨o, kids⟩) := by
  rcases declines_navigate operation step with declines | ⟨offers, hrun⟩
  · exact declines.reacts
  · rw [hrun]
    exact hstep offers

/-- There is nothing to go on from without a snapshot. -/
theorem run_proceed_none {o : ClientState V} (current : o.current = none) (mode : Mode)
    (event : Option Interaction) (kids : List (Client V)) :
    run (proceed mode event) ch ⟨o, kids⟩ =
      ⟨.error (.invalidPhase .proceed o.phase), ⟨o, kids⟩, []⟩ := by
  unfold proceed
  simp [current]

/-- Going on from the current snapshot reacts. -/
theorem reacts_proceed (h : ch.dispatchOpen = true) (mode : Mode) (event : Option Interaction)
    (hsent : ∀ s, o.current = some s → Reaction ch o (.action a) (.ok (some .sent))
      (o.proceeded s mode) (o.sendEffects (.continue (outgoing s) mode event))) :
    Reacts ch o kids a (run (proceed mode event) ch ⟨o, kids⟩) := by
  cases current : o.current with
  | none =>
    rw [run_proceed_none current]
    exact reacts_refused _
  | some s =>
    rw [run_proceed h current]
    exact ⟨_, hsent s current, rfl⟩

theorem reacts_start (h : ch.dispatchOpen = true) (d : Descriptor) :
    Reacts ch o kids (.start d) (run (start d) ch ⟨o, kids⟩) := by
  unfold start
  rw [run_bind_get]
  by_cases idle : o.phase = .idle
  · rw [if_neg (not_not_intro idle), run_bind_modify, run_bind_emit,
      run_bind_of_ok (run_send h (.start d) { o with phase := .running } kids), run_bind_modify,
      run_pure]
    refine ⟨_, ?_, rfl⟩
    rw [Turn.after_mk, Turn.after_mk, List.append_nil]
    exact .started d idle
  · rw [if_pos idle, run_refuse]
    exact reacts_refused _

theorem reacts_edit (name : String) (value : Value) :
    Reacts ch o kids (.edit name value) (run (recordEdit name value) ch ⟨o, kids⟩) := by
  unfold recordEdit
  rw [run_bind_ensureOpen]
  by_cases ended : o.phase.isTerminal = true
  · rw [if_pos ended]
    exact reacts_refused _
  rw [if_neg ended, run_bind_get]
  by_cases locked : o.locked = true
  · rw [if_pos locked, run_pure]
    exact reacts_ignored _
  rw [if_neg locked, run_bind_ensureInteracting]
  by_cases shown : o.phase = .interacting
  · rw [if_neg (not_not_intro shown)]
    cases edited : o.current.bind (·.edit? name value) with
    | none =>
      simp only [run_refuse]
      exact reacts_refused _
    | some t =>
      obtain ⟨s, current, edited'⟩ := Option.bind_eq_some_iff.1 edited
      simp only [run_bind_modify, run_pure]
      exact ⟨_, .edited name value shown (Bool.eq_false_iff.2 locked) s t current edited',
        rfl⟩
  · rw [if_pos shown]
    exact reacts_refused _

/-- A submission declines, or it notes its edits and goes on. -/
theorem declines_submit (edits : List (String × Value)) (event : Interaction) :
    Declines ch o kids (submit edits event) ∨
      ∃ s t, o.Offers ∧ o.current = some s ∧ s.editAll edits = some t ∧
        run (submit edits event) ch ⟨o, kids⟩ =
          run (proceed .execute (some event)) ch ⟨{ o with current := some t }, kids⟩ := by
  unfold submit
  generalize hstep : (get >>= fun c => _ : Act V Outcome) = step
  have navigates : Declines ch o kids (navigate .submit step) ∨ _ := declines_navigate .submit step
  rcases navigates with declines | ⟨offers, hrun⟩
  · exact .inl declines
  unfold Declines
  rw [hrun, ← hstep, run_bind_get]
  cases unknown : edits.find? fun e => o.current.any fun s => (s.parameter? e.1).isNone with
  | some e => exact .inl ⟨_, rfl, nofun, .inl ⟨_, rfl⟩⟩
  | none =>
    dsimp only
    cases current : o.current with
    | none =>
      cases edits with
      | nil =>
        rw [recordEdits, run_bind_pure, run_proceed_none current]
        exact .inl ⟨_, rfl, nofun, .inl ⟨_, rfl⟩⟩
      | cons e rest =>
        rw [run_bind_of_error
          (run_recordEdits_none offers.shown offers.unlocked current e rest kids)]
        exact .inl ⟨_, rfl, nofun, .inl ⟨_, rfl⟩⟩
    | some s =>
      have known : ∀ e ∈ edits, (s.parameter? e.1).isSome = true := fun e he => by
        have := List.find?_eq_none.1 unknown e he
        rw [current, Option.any_some, Bool.not_eq_true, Option.isNone_eq_false_iff] at this
        exact this
      obtain ⟨t, edited⟩ := s.exists_editAll known
      rw [run_bind_of_ok (run_recordEdits offers.shown offers.unlocked current edited kids)]
      exact .inr ⟨s, t, offers, rfl, edited, rfl⟩

theorem reacts_submit (h : ch.dispatchOpen = true) (edits : List (String × Value))
    (event : Interaction) :
    Reacts ch o kids (.submit edits event) (run (submit edits event) ch ⟨o, kids⟩) := by
  have submits : Declines ch o kids (submit edits event) ∨ _ := declines_submit edits event
  rcases submits with
    declines | ⟨s, t, offers, current, edited, hrun⟩
  · exact declines.reacts
  · rw [hrun, run_proceed h rfl]
    exact ⟨_, .navigated offers (.submitted edits event s t current edited), rfl⟩

theorem reacts_advance (h : ch.dispatchOpen = true) :
    Reacts ch o kids .advance (run advance ch ⟨o, kids⟩) := by
  unfold advance
  apply reacts_navigate _ _
  intro offers
  rw [run_bind_get]
  by_cases offered : Client.nextOffered (⟨o, kids⟩ : Client V) = true
  · rw [if_pos offered]
    refine reacts_proceed h _ _ fun s current => .navigated offers (.advanced s current ?_)
    simpa only [Client.nextOffered, current, Option.any_some, Bool.not_eq_true'] using offered
  · rw [if_neg offered, run_pure]
    exact reacts_ignored _

theorem reacts_rollback (h : ch.dispatchOpen = true) :
    Reacts ch o kids .rollback (run rollback ch ⟨o, kids⟩) := by
  unfold rollback
  apply reacts_navigate _ _
  intro offers
  rw [run_bind_get]
  by_cases offered : Client.rollbackOffered (⟨o, kids⟩ : Client V) = true
  · rw [if_pos offered]
    apply reacts_proceed h _ _
    intro s current
    have ⟨can, rest⟩ : s.canRollback = true ∧
        (s.autoContinue = true → o.autoContinuePaused = true) := by
      simpa [Client.rollbackOffered, current, Decidable.imp_iff_not_or] using offered
    exact .navigated offers (.rolledBack s current can rest)
  · rw [if_neg offered, run_pure]
    exact reacts_ignored _

theorem reacts_reload (h : ch.dispatchOpen = true) :
    Reacts ch o kids .reload (run reload ch ⟨o, kids⟩) :=
  reacts_navigate _ _ fun offers =>
    reacts_proceed h _ _ fun s current => .navigated offers (.reloaded s current)

theorem reacts_cancel (h : ch.dispatchOpen = true) :
    Reacts ch o kids .cancel (run cancel ch ⟨o, kids⟩) := by
  unfold cancel
  rw [run_bind_ensureOpen]
  by_cases ended : o.phase.isTerminal = true
  · rw [if_pos ended]
    exact reacts_refused _
  rw [if_neg ended, run_bind_get]
  by_cases begun : (o.pendingCancel || o.cancelSent) = true
  · rw [if_pos begun, run_pure]
    exact reacts_ignored _
  rw [if_neg begun]
  by_cases idle : o.phase = .idle
  · rw [if_pos idle, run_refuse]
    exact reacts_refused _
  rw [if_neg idle]
  have can : o.Cancellable := by
    rw [Bool.or_eq_true, not_or] at begun
    exact ⟨Bool.eq_false_iff.2 ended, idle, Bool.eq_false_iff.2 begun.1, Bool.eq_false_iff.2 begun.2⟩
  by_cases locked : o.locked = true
  · rw [if_pos locked, run_bind_modify, run_pure]
    exact ⟨_, .deferred can locked, rfl⟩
  rw [if_neg locked]
  by_cases open' : o.awaitingConfirmation = true
  · rw [if_pos open', run_pure]
    exact reacts_ignored _
  rw [if_neg open']
  rw [Bool.not_eq_true] at locked open'
  cases current : o.current with
  | none =>
    simp only [run_refuse]
    exact reacts_refused _
  | some s =>
    dsimp only
    by_cases immediate : s.immediateInteraction = true
    · rw [if_pos immediate, run_proceed h current]
      exact ⟨_, .cancelled can locked open' s current immediate, rfl⟩
    · rw [if_neg immediate]
      unfold askToCancel
      rw [run_bind_modify, run_bind_tell, run_pure]
      exact ⟨_, .asked can locked open' s current (Bool.eq_false_iff.2 immediate), rfl⟩

/-- Steps go on by themselves again. -/
theorem run_resume (h : ch.dispatchOpen = true) (o : ClientState V) (kids : List (Client V)) :
    ∃ x o' effects, Resumed o x o' effects ∧
      run resume ch ⟨o, kids⟩ = ⟨.ok x, ⟨o', kids⟩, effects⟩ := by
  unfold resume
  rw [run_bind_modify, run_bind_get]
  by_cases holds : Client.holdsAutoStep
      (⟨{ o with autoContinuePaused := false }, kids⟩ : Client V) = true
  · rw [if_pos holds]
    simp only [Client.holdsAutoStep, Bool.and_eq_true, decide_eq_true_eq, Bool.not_eq_true',
      Option.any_eq_true] at holds
    obtain ⟨⟨⟨⟨shown, unlocked⟩, waits⟩, settled⟩, s, current, auto⟩ := holds
    exact ⟨_, _, _, .continued ⟨shown, unlocked, settled⟩ waits s current auto,
      run_proceed h (o := { o with autoContinuePaused := false }) current .execute none kids⟩
  · rw [if_neg holds]
    exact ⟨_, _, _, .stayed, rfl⟩

theorem reacts_resume (h : ch.dispatchOpen = true) :
    Reacts ch o kids .resume (run resume ch ⟨o, kids⟩) := by
  obtain ⟨x, o', effects, resumed, hrun⟩ := run_resume h o kids
  rw [hrun]
  exact ⟨o', .resumed resumed, rfl⟩

/-- The answer to the question, once it is settled that there is one. -/
theorem run_answer (asked : o.awaitingConfirmation = true) (accepted : Bool) :
    run (answer accepted) ch ⟨o, kids⟩ =
      if o.phase.isTerminal then ⟨.error (.closed o.phase), ⟨o.settled, kids⟩, []⟩
      else if accepted then
        if o.locked then ⟨.ok .deferred, ⟨{ o.settled with pendingCancel := true }, kids⟩, []⟩
        else run (proceed .cancel none) ch ⟨o.settled, kids⟩
      else if o.pausedByConfirmation then run resume ch ⟨o.settled, kids⟩
      else ⟨.ok (.ignored .nothingToResume), ⟨o.settled, kids⟩, []⟩ := by
  unfold answer
  rw [run_bind_get, if_neg (by simp [asked]), run_bind_modify, run_bind_ensureOpen]
  simp only [run_ite, run_bind_modify, run_pure]
  rfl

theorem reacts_answer (h : ch.dispatchOpen = true) (accepted : Bool) :
    Reacts ch o kids (.answer accepted) (run (answer accepted) ch ⟨o, kids⟩) := by
  by_cases asked : o.awaitingConfirmation = true
  · rw [run_answer asked]
    by_cases ended : o.phase.isTerminal = true
    · rw [if_pos ended]
      exact ⟨_, .answerLost accepted _ asked (.inl ended), rfl⟩
    rw [if_neg ended]
    rw [Bool.not_eq_true] at ended
    cases accepted with
    | true =>
      rw [if_pos rfl]
      by_cases locked : o.locked = true
      · rw [if_pos locked]
        exact ⟨_, .acceptedLocked asked ended locked, rfl⟩
      rw [if_neg locked]
      rw [Bool.not_eq_true] at locked
      by_cases current : o.current = none
      · rw [run_proceed_none (o := o.settled) current]
        exact ⟨_, .answerLost true _ asked (.inr ⟨locked, current⟩), rfl⟩
      · obtain ⟨s, current⟩ := Option.ne_none_iff_exists'.1 current
        rw [run_proceed h (o := o.settled) current]
        exact ⟨_, .accepted asked ended locked s current, rfl⟩
    | false =>
      rw [if_neg Bool.false_ne_true]
      by_cases own : o.pausedByConfirmation = true
      · rw [if_pos own]
        obtain ⟨x, o', effects, resumed, hrun⟩ := run_resume h o.settled kids
        rw [hrun]
        exact ⟨_, .declinedResumed asked ended own resumed, rfl⟩
      · rw [if_neg own]
        exact ⟨_, .declined asked ended (Bool.eq_false_iff.2 own), rfl⟩
  · unfold answer
    rw [run_bind_get, if_pos (by simp [asked]), run_refuse]
    exact reacts_refused _

/-- Only a client that has not begun attaches. -/
theorem run_attach_of_not_idle (ch : Channels) (s : Snapshot) {c : Client V} (begun : c.phase ≠ .idle) :
    run (attach s) ch c = ⟨.error (.invalidPhase .attach c.phase), c, []⟩ := by
  unfold attach takeOver
  rw [run_bind_get, if_pos begun, run_refuse]

end Act

/-! ## The reactions to everything -/

/-- The children whose clients take over when something happens to a client. -/
def Stimulus.offspring (o : ClientState V) : Stimulus → List Snapshot
  | .action (.attach s) =>
    if o.phase = .idle then ClientState.offspring { o with phase := .running } s else []
  | .action _ => []
  | .response (.ok s) => o.offspring s
  | .response (.error _) => []

section Births

variable (ch : Channels) (o : ClientState V) (phase : Phase) (ss : List Snapshot)

/-- New children do not see in which phase the client is. -/
theorem births_phase : births ch { o with phase } ss = births ch o ss := by
  induction ss generalizing o with
  | nil => rfl
  | cons s rest ih => exact congrArg _ (ih (o.spawned [s]))

theorem newcomers_phase : newcomers ch { o with phase } ss = newcomers ch o ss := by
  rw [newcomers, births_phase]
  rfl

theorem spawnEffects_phase : spawnEffects ch { o with phase } ss = spawnEffects ch o ss := by
  induction ss generalizing o with
  | nil => rfl
  | cons s rest ih => exact congrArg _ (ih (o.spawned [s]))

end Births

/-- What a client leaves behind itself is about itself. -/
theorem Reaction.client_of_mem {ch : Channels} {o o' : ClientState V} {i : Stimulus}
    {r : Except ClientError (Option Outcome)} {own : List Effect}
    (h : Reaction ch o i r o' own) {e : Effect} (he : e ∈ own) : e.client = o.id := by
  have ofResumed {o o' : ClientState V} {x : Outcome} {effects : List Effect}
      (h : Resumed o x o' effects) (he : e ∈ effects) : e.client = o.id := by
    cases h with
    | stayed => cases he
    | continued => exact client_of_mem_sendEffects he
  cases h with
  | started =>
    rcases List.mem_append.1 he with he | he
    · exact client_of_mem_emitted he
    · exact client_of_mem_sendEffects he
  | attached _ _ received =>
    rcases List.mem_append.1 he with he | he
    · exact client_of_mem_emitted he
    · exact received.client_of_mem he
  | asked => exact client_of_mem_callEffects he
  | navigated | cancelled | accepted => exact client_of_mem_sendEffects he
  | declinedResumed _ _ _ resumed => exact ofResumed (o := o.settled) resumed he
  | resumed resumed => exact ofResumed resumed he
  | received received => exact received.client_of_mem he
  | rejected rejected => exact rejected.client_of_mem he
  | refused | ignored | edited | deferred | answerLost | acceptedLocked | declined | paused =>
    cases he

/-- A snapshot opens one panel for each child whose client takes over. -/
theorem Received.opened {ch : Channels} {s : Snapshot} {o o' : ClientState V}
    {effects : List Effect} (h : Received ch s o o' effects) :
    o'.opened = o.opened + (o.offspring s).length := by
  cases h with
  | closed ended =>
    rw [ClientState.offspring, ended]
    rfl
  | cancelled _ waits ended =>
    rw [ClientState.offspring, waits, ended, Bool.not_false, Bool.and_true, Bool.or_true]
    rfl
  | concluded going moot conclusion =>
    have hall : o.offspring s = s.children := by
      rw [ClientState.offspring, going]
      cases waits : o.pendingCancel with
      | false => rfl
      | true =>
        rw [moot waits]
        rfl
    rw [hall]
    cases conclusion <;> rfl

/-- Without new children no panel is opened. -/
theorem Reaction.opened_of_alone {ch : Channels} {o o' : ClientState V} {i : Stimulus}
    {r : Except ClientError (Option Outcome)} {own : List Effect}
    (reaction : Reaction ch o i r o' own) (alone : i.offspring o = []) : o'.opened = o.opened := by
  have ofResumed {o o' : ClientState V} {x : Outcome} {effects : List Effect}
      (h : Resumed o x o' effects) : o'.opened = o.opened := by
    cases h <;> rfl
  cases reaction with
  | attached s idle received =>
    have hopened := received.opened
    rw [Stimulus.offspring, if_pos idle] at alone
    rwa [alone] at hopened
  | declinedResumed _ _ _ resumed => exact ofResumed (o := o.settled) resumed
  | resumed resumed => exact ofResumed resumed
  | received received =>
    have hopened := received.opened
    rw [Stimulus.offspring] at alone
    rwa [alone] at hopened
  | rejected rejected => cases rejected <;> rfl
  | _ => rfl

omit [ProcessView V] in
/-- An outcome that is passed on. -/
theorem Act.run_some {ch : Channels} (a : Act V Outcome) (c : Client V) :
    Act.run (a >>= fun x => Pure.pure (some x)) ch c =
      ⟨(a.run ch c).result.map some, (a.run ch c).client, (a.run ch c).effects⟩ := by
  rw [run_bind]
  cases h : (a.run ch c).result
  · rfl
  · simp [Except.map]

omit [ProcessView V] in
/-- No outcome is passed on. -/
theorem Act.run_none {ch : Channels} {a : Act V Unit} {c c' : Client V} {effects : List Effect}
    (h : a.run ch c = ⟨.ok (), c', effects⟩) :
    Act.run (a >>= fun _ => Pure.pure (none : Option Outcome)) ch c =
      ⟨.ok none, c', effects⟩ := by
  rw [run_bind_of_ok h, run_pure, Turn.after_mk, List.append_nil]

namespace Stimulus

variable {ch : Channels} {o : ClientState V} {kids : List (Client V)} {i : Stimulus}

/-- The turn is one of the client's reactions, and the clients of new children take over in the middle
of it. -/
def Follows (ch : Channels) (o : ClientState V) (kids : List (Client V)) (i : Stimulus)
    (t : Turn V (Option Outcome)) : Prop :=
  ∃ r o' before after,
    Reaction ch o i r o' (before ++
      callEffects o.id o.awake.view ((i.offspring o).map .openChild) ++ after) ∧
    o'.opened = o.opened + (i.offspring o).length ∧
    t = ⟨r, ⟨o', kids ++ newcomers ch o.awake (i.offspring o)⟩,
      before ++ spawnEffects ch o.awake (i.offspring o) ++ after⟩

/-- Most reactions have no children. -/
theorem follows_of_reaction {r : Except ClientError (Option Outcome)} {o' : ClientState V}
    {own : List Effect} (alone : i.offspring o = []) (reaction : Reaction ch o i r o' own) :
    Follows ch o kids i ⟨r, ⟨o', kids⟩, own⟩ := by
  refine ⟨r, o', own, [], ?_, ?_, ?_⟩
  · rw [alone, List.map_nil, callEffects_nil, List.append_nil, List.append_nil]
    exact reaction
  · rw [alone]
    exact reaction.opened_of_alone alone
  · rw [alone, newcomers, births, spawnEffects]
    simp

theorem follows_of_reacts {a : UserAction} {step : Act V Outcome}
    (alone : offspring o (.action a) = []) (hact : a.act = (step >>= fun x => pure (some x)))
    (h : Act.Reacts ch o kids a (step.run ch ⟨o, kids⟩)) :
    Follows ch o kids (.action a) (a.act.run ch ⟨o, kids⟩) := by
  obtain ⟨o', reaction, hclient⟩ := h
  rw [hact, Act.run_some, hclient]
  exact follows_of_reaction alone reaction

theorem follows_attach (h : ch.dispatchOpen = true) (s : Snapshot) :
    Follows ch o kids (.action (.attach s)) ((UserAction.attach s).act.run ch ⟨o, kids⟩) := by
  by_cases idle : o.phase = .idle
  · obtain ⟨o', before, after, received, hrun⟩ :=
      Act.run_receive h s { o with phase := .running } kids
    have hoffspring : offspring o (.action (.attach s)) =
        ClientState.offspring { o with phase := .running } s := if_pos idle
    have hattach := Act.run_attach ch s idle kids
    rw [hrun, Turn.after_mk] at hattach
    refine ⟨.ok none, o', emitted ch (.started o.id s.processName) ++ before, after, ?_, ?_, ?_⟩
    · have reaction := Reaction.attached s idle received
      rw [hoffspring]
      simp only [List.append_assoc] at reaction ⊢
      exact reaction
    · rw [hoffspring]
      exact received.opened
    · refine (Act.run_none hattach).trans ?_
      have hawake : ClientState.awake { o with phase := .running } =
          { o.awake with phase := .running } := rfl
      rw [hoffspring, hawake, newcomers_phase, spawnEffects_phase]
      simp only [List.append_assoc]
  · have hattach := Act.run_bind_of_error (Act.run_attach_of_not_idle ch s
      (c := (⟨o, kids⟩ : Client V)) idle) fun _ => pure (none : Option Outcome)
    refine Eq.subst (motive := Follows ch o kids (.action (.attach s))) hattach.symm ?_
    exact follows_of_reaction (if_neg idle) (.refused _ _)

/-- What happens to a client makes it react, and lets the clients of new children take over. -/
theorem follows_run (h : ch.dispatchOpen = true) (i : Stimulus) (o : ClientState V)
    (kids : List (Client V)) : Follows ch o kids i (i.act.run ch ⟨o, kids⟩) := by
  cases i with
  | action a =>
    cases a with
    | start d => exact follows_of_reacts rfl rfl (Act.reacts_start h d)
    | attach s => exact follows_attach h s
    | edit name value => exact follows_of_reacts rfl rfl (Act.reacts_edit name value)
    | submit edits event => exact follows_of_reacts rfl rfl (Act.reacts_submit h edits event)
    | advance => exact follows_of_reacts rfl rfl (Act.reacts_advance h)
    | rollback => exact follows_of_reacts rfl rfl (Act.reacts_rollback h)
    | reload => exact follows_of_reacts rfl rfl (Act.reacts_reload h)
    | cancel => exact follows_of_reacts rfl rfl (Act.reacts_cancel h)
    | answer accepted => exact follows_of_reacts rfl rfl (Act.reacts_answer h accepted)
    | pause => exact follows_of_reaction rfl .paused
    | resume => exact follows_of_reacts rfl rfl (Act.reacts_resume h)
  | response result =>
    cases result with
    | ok s =>
      obtain ⟨o', before, after, received, hrun⟩ := Act.run_receive h s o kids
      exact ⟨.ok none, o', before, after, .received received, received.opened,
        Act.run_none hrun⟩
    | error e =>
      obtain ⟨o', effects, rejected, hrun⟩ := Act.run_fail h e o kids
      refine Eq.subst (motive := Follows ch o kids (.response (.error e)))
        (Act.run_none hrun).symm ?_
      exact follows_of_reaction rfl (.rejected rejected)

end Stimulus

end Stepwise
