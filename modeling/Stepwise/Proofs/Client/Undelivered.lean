/-
# Requests that nobody takes

A request is handed over at the end of an action, after the client has noted that it was. If nobody takes
it, the client keeps the notes: a start leaves it running and announced, a cancel leaves it cancelling, and
whatever goes on from a step takes the marks off the edits that were to go out. Only the lock is set after
the request is taken.

* `UserAction.requests` : the actions that end in a request;
* `ClientState.undelivered` : the client after such an action, if nobody takes the request;
* `Act.run_proceed_closed` : going on without anybody who takes requests;
* `UserAction.run_undelivered` : what such an action leaves;
* `Traceless` : the client does not look as if a request had been sent;
* `traceless_iff` : when that is so.
-/
import Stepwise.Proofs.Client.Declining

namespace Stepwise

variable {V : Type}

/-- The actions that end in a request, if they go through at once. -/
def UserAction.requests : UserAction → Bool
  | .start _ | .submit .. | .advance | .rollback | .reload | .cancel | .answer true => true
  | _ => false

/-- The action asks for the process to be aborted. -/
def UserAction.cancels : UserAction → Bool
  | .cancel | .answer _ => true
  | _ => false

/-- The snapshot with all edits that were not sent before the action, those of the action with them. -/
def ClientState.drafted (o : ClientState V) : UserAction → Option Snapshot
  | .submit edits _ => o.current.bind (·.editAll edits)
  | _ => o.current

/-- The client after an action whose request nobody has taken. -/
def ClientState.undelivered (o : ClientState V) (a : UserAction) : ClientState V :=
  match a with
  | .start _ => { o with phase := .running }
  | .answer _ =>
    { o.settled with current := o.current.map Snapshot.clearModified, cancelSent := true }
  | .cancel => { o with current := o.current.map Snapshot.clearModified, cancelSent := true }
  | a => { o with current := (o.drafted a).map Snapshot.clearModified }

/-- What such an action leaves behind. -/
def ClientState.announced (ch : Channels) (o : ClientState V) : UserAction → List Effect
  | .start d => emitted ch (.started o.id d.name)
  | _ => []

/-! ## Without anybody who takes requests -/

/-- An outcome that is passed on does not hide an error. -/
theorem Act.result_of_some {ch : Channels} {step : Act V Outcome} {c : Client V} {e : ClientError}
    (h : (Act.run (step >>= fun x => Pure.pure (some x)) ch c).result = .error e) :
    (step.run ch c).result = .error e := by
  rw [run_some] at h
  dsimp only at h
  cases hstep : (step.run ch c).result with
  | ok x => rw [hstep] at h; cases h
  | error e' => rw [hstep] at h; exact congrArg _ (Except.error.inj h)

namespace Act

variable [ProcessView V] {ch : Channels} {o : ClientState V} {kids : List (Client V)}

theorem run_send_closed (closed : ch.dispatchOpen = false) (r : Request) (c : Client V) :
    run (send r) ch c = ⟨.error .channelClosed, c, []⟩ := by
  have hhand : run (hand r) ch c = ⟨.error .channelClosed, c, []⟩ := by
    rw [run_hand, if_neg (by rw [closed]; exact Bool.false_ne_true)]
  exact run_bind_of_error hhand _

/-- Whoever goes on has taken the marks off, and noted a cancel, when it turns out that nobody takes the
request. -/
theorem run_proceed_closed (closed : ch.dispatchOpen = false) {s : Snapshot}
    (current : o.current = some s) (mode : Mode) (event : Option Interaction) :
    run (proceed mode event) ch ⟨o, kids⟩ =
      ⟨.error .channelClosed,
        ⟨{ o with current := some s.clearModified
                  cancelSent := if mode = .cancel then true else o.cancelSent }, kids⟩, []⟩ := by
  unfold proceed
  rw [run_bind_get]
  simp only [current, run_bind_modify, run_send_closed closed]

/-- Going on is refused for want of somebody who takes requests only if there is a step to go on from. -/
theorem run_proceed_untaken (closed : ch.dispatchOpen = false) {mode : Mode}
    {event : Option Interaction}
    (untaken : (run (proceed mode event) ch ⟨o, kids⟩).result = .error .channelClosed) :
    run (proceed mode event) ch ⟨o, kids⟩ =
      ⟨.error .channelClosed,
        ⟨{ o with current := o.current.map Snapshot.clearModified
                  cancelSent := if mode = .cancel then true else o.cancelSent }, kids⟩, []⟩ := by
  cases current : o.current with
  | none =>
    rw [run_proceed_none current] at untaken
    cases untaken
  | some s => exact run_proceed_closed closed current mode event

omit [ProcessView V] in
/-- Navigation is refused so only if its step is. -/
theorem run_navigate_untaken {operation : Operation} {step : Act V Outcome}
    (untaken : (run (navigate operation step) ch ⟨o, kids⟩).result = .error .channelClosed) :
    run (navigate operation step) ch ⟨o, kids⟩ = run step ch ⟨o, kids⟩ := by
  have navigates : Declines ch o kids (navigate operation step) ∨ _ :=
    declines_navigate operation step
  rcases navigates with ⟨r, hrun, taken, -⟩ | ⟨-, hrun⟩
  · rw [hrun] at untaken
    exact absurd untaken taken
  · exact hrun

/-- Going on from a step that is offered. -/
theorem run_offered_untaken (closed : ch.dispatchOpen = false) {operation : Operation} {mode : Mode}
    (other : mode ≠ .cancel) {offered : Client V → Bool} {reason : IgnoreReason}
    (untaken : (run (navigate operation (get >>= fun c =>
      if offered c then proceed mode none else Pure.pure (.ignored reason))) ch ⟨o, kids⟩).result =
        .error .channelClosed) :
    run (navigate operation (get >>= fun c =>
      if offered c then proceed mode none else Pure.pure (.ignored reason))) ch ⟨o, kids⟩ =
        ⟨.error .channelClosed,
          ⟨{ o with current := o.current.map Snapshot.clearModified }, kids⟩, []⟩ := by
  have hrun := run_navigate_untaken untaken
  rw [run_bind_get] at hrun
  rw [hrun] at untaken ⊢
  by_cases offers : offered ⟨o, kids⟩ = true
  · rw [if_pos offers] at untaken ⊢
    rw [run_proceed_untaken closed untaken, if_neg other]
  · rw [if_neg offers] at untaken
    cases untaken

theorem run_start_untaken (closed : ch.dispatchOpen = false) {d : Descriptor}
    (untaken : (run (start d) ch ⟨o, kids⟩).result = .error .channelClosed) :
    o.phase = .idle ∧ run (start d) ch ⟨o, kids⟩ =
      ⟨.error .channelClosed, ⟨o.undelivered (.start d), kids⟩, o.announced ch (.start d)⟩ := by
  unfold start at untaken ⊢
  rw [run_bind_get] at untaken ⊢
  by_cases idle : o.phase = .idle
  · rw [if_neg (not_not_intro idle), run_bind_modify, run_bind_emit,
      run_bind_of_error (run_send_closed closed (.start d) _), Turn.after_mk, List.append_nil]
    exact ⟨idle, rfl⟩
  · rw [if_pos idle, run_refuse] at untaken
    cases untaken

theorem run_cancel_untaken (closed : ch.dispatchOpen = false)
    (untaken : (run cancel ch ⟨o, kids⟩).result = .error .channelClosed) :
    run cancel ch ⟨o, kids⟩ =
      ⟨.error .channelClosed, ⟨o.undelivered .cancel, kids⟩, []⟩ := by
  have hrun : run cancel ch ⟨o, kids⟩ = run (proceed .cancel none) ch ⟨o, kids⟩ := by
    unfold cancel at untaken ⊢
    simp only [run_bind_ensureOpen, run_bind_get, run_ite, run_pure, run_refuse, run_bind_modify]
      at untaken ⊢
    by_cases ended : o.phase.isTerminal = true
    · rw [if_pos ended] at untaken
      cases untaken
    by_cases begun : (o.pendingCancel || o.cancelSent) = true
    · rw [if_neg ended, if_pos begun] at untaken
      cases untaken
    by_cases idle : o.phase = .idle
    · rw [if_neg ended, if_neg begun, if_pos idle] at untaken
      cases untaken
    by_cases locked : o.locked = true
    · rw [if_neg ended, if_neg begun, if_neg idle, if_pos locked] at untaken
      cases untaken
    by_cases asked : o.awaitingConfirmation = true
    · rw [if_neg ended, if_neg begun, if_neg idle, if_neg locked, if_pos asked] at untaken
      cases untaken
    rw [if_neg ended, if_neg begun, if_neg idle, if_neg locked, if_neg asked] at untaken ⊢
    cases current : o.current with
    | none =>
      rw [current] at untaken
      cases untaken
    | some s =>
      rw [current] at untaken
      dsimp only at untaken ⊢
      by_cases immediate : s.immediateInteraction = true
      · rw [if_pos immediate]
      · rw [if_neg immediate] at untaken
        cases untaken
  rw [hrun] at untaken ⊢
  exact run_proceed_untaken closed untaken

theorem run_accept_untaken (closed : ch.dispatchOpen = false)
    (untaken : (run (answer true) ch ⟨o, kids⟩).result = .error .channelClosed) :
    run (answer true) ch ⟨o, kids⟩ =
      ⟨.error .channelClosed, ⟨o.undelivered (.answer true), kids⟩, []⟩ := by
  by_cases asked : o.awaitingConfirmation = true
  · have hrun : run (answer true) ch ⟨o, kids⟩ = run (proceed .cancel none) ch ⟨o.settled, kids⟩ := by
      rw [run_answer asked] at untaken ⊢
      by_cases ended : o.phase.isTerminal = true
      · rw [if_pos ended] at untaken
        cases untaken
      by_cases locked : o.locked = true
      · rw [if_neg ended, if_pos rfl, if_pos locked] at untaken
        cases untaken
      rw [if_neg ended, if_pos rfl, if_neg locked]
    rw [hrun] at untaken ⊢
    exact run_proceed_untaken closed untaken
  · unfold answer at untaken
    rw [run_bind_get, if_pos (by simp [asked]), run_refuse] at untaken
    cases untaken

theorem run_submit_untaken (closed : ch.dispatchOpen = false) {edits : List (String × Value)}
    {event : Interaction}
    (untaken : (run (submit edits event) ch ⟨o, kids⟩).result = .error .channelClosed) :
    run (submit edits event) ch ⟨o, kids⟩ =
      ⟨.error .channelClosed, ⟨o.undelivered (.submit edits event), kids⟩, []⟩ := by
  have submits : Declines ch o kids (submit edits event) ∨ _ := declines_submit edits event
  rcases submits with ⟨r, hrun, taken, -⟩ | ⟨s, t, offers, current, edited, hrun⟩
  · rw [hrun] at untaken
    exact absurd untaken taken
  · rw [hrun, run_proceed_closed closed rfl]
    have drafted : o.drafted (.submit edits event) = some t := by
      rw [ClientState.drafted, current]
      exact edited
    simp [ClientState.undelivered, drafted]

end Act

variable [ProcessView V] {ch : Channels}

/-- **What an action leaves whose request nobody takes.** -/
theorem UserAction.run_undelivered (closed : ch.dispatchOpen = false) {a : UserAction}
    (requests : a.requests = true) (o : ClientState V) (kids : List (Client V))
    (untaken : (a.act.run ch ⟨o, kids⟩).result = .error .channelClosed) :
    a.act.run ch ⟨o, kids⟩ =
      ⟨.error .channelClosed, ⟨o.undelivered a, kids⟩, o.announced ch a⟩ := by
  -- all but attaching and pausing pass an outcome on
  have passes {step : Act V Outcome}
      (hstep : (step.run ch ⟨o, kids⟩).result = .error .channelClosed →
        step.run ch ⟨o, kids⟩ = ⟨.error .channelClosed, ⟨o.undelivered a, kids⟩, o.announced ch a⟩)
      (untaken : ((step >>= fun x => pure (some x)).run ch ⟨o, kids⟩).result =
        .error .channelClosed) :
      (step >>= fun x => pure (some x)).run ch ⟨o, kids⟩ =
        ⟨.error .channelClosed, ⟨o.undelivered a, kids⟩, o.announced ch a⟩ := by
    rw [Act.run_some, hstep (Act.result_of_some untaken)]
    rfl
  cases a with
  | start d => exact passes (fun untaken => (Act.run_start_untaken closed untaken).2) untaken
  | submit edits event => exact passes (Act.run_submit_untaken closed) untaken
  | advance =>
    refine passes (fun untaken => ?_) untaken
    unfold Act.advance at untaken ⊢
    exact Act.run_offered_untaken closed (show Mode.execute ≠ .cancel by decide) untaken
  | rollback =>
    refine passes (fun untaken => ?_) untaken
    unfold Act.rollback at untaken ⊢
    exact Act.run_offered_untaken closed (show Mode.rollback ≠ .cancel by decide) untaken
  | reload =>
    refine passes (fun untaken => ?_) untaken
    have hrun := Act.run_navigate_untaken untaken
    rw [Act.reload, hrun] at untaken ⊢
    exact Act.run_proceed_untaken closed untaken
  | cancel => exact passes (Act.run_cancel_untaken closed) untaken
  | answer accepted =>
    cases accepted with
    | true => exact passes (Act.run_accept_untaken closed) untaken
    | false => cases requests
  | attach | edit | pause | resume => cases requests

/-! ## Traces -/

/-- The client does not look as if the request of the action had been sent: phase, lock and cancel are as
before, the edits that were to go out have their marks, and no process was announced. -/
structure Traceless (a : UserAction) (o : ClientState V) (t : Turn V (Option Outcome)) : Prop where
  phase : t.client.phase = o.phase
  locked : t.client.locked = o.locked
  cancelSent : t.client.cancelSent = o.cancelSent
  marked : ∀ s, o.drafted a = some s →
    ∃ s', t.client.current = some s' ∧ ∀ name ∈ s.modifiedNames, name ∈ s'.modifiedNames
  unannounced : ∀ id name, Effect.event (.started id name) ∉ t.effects

omit [ProcessView V] in
theorem Snapshot.modifiedNames_clearModified (s : Snapshot) : s.clearModified.modifiedNames = [] := by
  simp [modifiedNames, clearModified, Parameter.unmarked, List.filter_eq_nil_iff]

omit [ProcessView V] in
/-- But for a start, the edits that were to go out are those of the step, without marks. -/
theorem ClientState.current_undelivered (o : ClientState V) {a : UserAction}
    (other : ∀ d, a ≠ .start d) :
    (o.undelivered a).current = (o.drafted a).map Snapshot.clearModified := by
  cases a with
  | start d => exact absurd rfl (other d)
  | _ => rfl

omit [ProcessView V] in
/-- Whatever is asked for, the lock and, but for a start, the phase are not touched. -/
theorem ClientState.locked_undelivered (o : ClientState V) (a : UserAction) :
    (o.undelivered a).locked = o.locked ∧ ((∀ d, a ≠ .start d) → (o.undelivered a).phase = o.phase) := by
  cases a with
  | start d => exact ⟨rfl, fun other => absurd rfl (other d)⟩
  | _ => exact ⟨rfl, fun _ => rfl⟩

omit [ProcessView V] in
theorem ClientState.cancelSent_undelivered (o : ClientState V) (a : UserAction) :
    (o.undelivered a).cancelSent = (a.cancels || o.cancelSent) := by
  cases a <;> rfl

omit [ProcessView V] in
/-- An action other than a start leaves no trace if no cancel is noted by it and no mark was there to be
taken off. -/
theorem traceless_undelivered_iff {a : UserAction} (other : ∀ d, a ≠ .start d) (o : ClientState V)
    (kids : List (Client V)) (r : Except ClientError (Option Outcome)) :
    Traceless a o ⟨r, ⟨o.undelivered a, kids⟩, o.announced ch a⟩ ↔
      (a.cancels = true → o.cancelSent = true) ∧ ∀ s, o.drafted a = some s → s.modifiedNames = [] := by
  have hcurrent := o.current_undelivered other
  constructor
  · intro traceless
    refine ⟨fun cancels => ?_, fun s hs => ?_⟩
    · rw [← traceless.cancelSent]
      exact (o.cancelSent_undelivered a).trans (by rw [cancels, Bool.true_or])
    · obtain ⟨s', hs', marks⟩ := traceless.marked s hs
      have hs' : (o.undelivered a).current = some s' := hs'
      rw [hcurrent, hs, Option.map_some, Option.some.injEq] at hs'
      rw [← hs', Snapshot.modifiedNames_clearModified] at marks
      exact List.eq_nil_iff_forall_not_mem.2 fun name hname => List.not_mem_nil (marks name hname)
  · rintro ⟨hcancel, hmarks⟩
    refine ⟨(o.locked_undelivered a).2 other, (o.locked_undelivered a).1, ?_, fun s hs => ?_, ?_⟩
    · refine (o.cancelSent_undelivered a).trans ?_
      cases cancels : a.cancels with
      | false => rfl
      | true => rw [hcancel cancels]; rfl
    · refine ⟨s.clearModified, hcurrent.trans (by rw [hs]; rfl), ?_⟩
      rw [hmarks s hs]
      exact fun name hname => absurd hname List.not_mem_nil
    · intro id name
      cases a with
      | start d => exact absurd rfl (other d)
      | _ => exact List.not_mem_nil

/-- **When a request that nobody takes leaves no trace.** An action that ends in such a request leaves the
client as `ClientState.undelivered` says. Its lock is as before. It leaves no trace exactly if it is no
start, no cancel that is not noted already, and if no edit was to go out. -/
theorem traceless_iff (closed : ch.dispatchOpen = false) {a : UserAction} (requests : a.requests = true)
    (o : ClientState V) (kids : List (Client V))
    (untaken : (a.act.run ch ⟨o, kids⟩).result = .error .channelClosed) :
    a.act.run ch ⟨o, kids⟩ = ⟨.error .channelClosed, ⟨o.undelivered a, kids⟩, o.announced ch a⟩ ∧
    (o.undelivered a).locked = o.locked ∧
    (Traceless a o (a.act.run ch ⟨o, kids⟩) ↔
      (∀ d, a ≠ .start d) ∧ (a.cancels = true → o.cancelSent = true) ∧
        ∀ s, o.drafted a = some s → s.modifiedNames = []) := by
  have hrun := a.run_undelivered closed requests o kids untaken
  refine ⟨hrun, (o.locked_undelivered a).1, ?_⟩
  by_cases starts : ∃ d, a = .start d
  · -- a start leaves the phase that it goes through on the way
    obtain ⟨d, rfl⟩ := starts
    have idle := (Act.run_start_untaken closed (Act.result_of_some untaken)).1
    refine ⟨fun traceless => ?_, fun h => absurd rfl (h.1 d)⟩
    have hphase := traceless.phase
    rw [hrun, idle] at hphase
    cases hphase
  · have other : ∀ d, a ≠ .start d := fun d hd => starts ⟨d, hd⟩
    rw [hrun, traceless_undelivered_iff other]
    exact (and_iff_right other).symm

/-- Events are heard, but nobody takes requests. -/
def Channels.untaken : Channels := ⟨false, true⟩

/-- A form on which nothing was entered goes on without a trace. -/
theorem traceless_orderBrought :
    Traceless .advance (orderBrought false).turn.client.toClientState
      (UserAction.advance.act.run .untaken (orderBrought false).turn.client) := by
  refine (traceless_iff (show Channels.untaken.dispatchOpen = false from rfl) rfl _ _ rfl).2.2.2
    ⟨nofun, nofun, fun s hs => ?_⟩
  obtain rfl := Option.some.inj hs
  rfl

/-- The street is entered into the form. -/
def streetEntered : Moment Recording :=
  (orderBrought false).turn.client.face .open (.action (.edit "street" (.str "Main")))

/-- **A start that nobody takes leaves traces**, and so does going on with an entry: the process runs and
is announced, and the entry has lost its mark. -/
theorem not_traceless_idle :
    (let c := Client.idle (.root 0) Recording.empty
     let t := (UserAction.start ⟨"Order", none, "en-US", .none⟩).act.run .untaken c
     Course .untaken [] c ∧ t.result = .error .channelClosed ∧ t.client.phase = .running ∧
       t.effects = [.event (.started (.root 0) "Order")] ∧
       ¬ Traceless (.start ⟨"Order", none, "en-US", .none⟩) c.toClientState t) ∧
    (let c := streetEntered.turn.client
     let t := UserAction.advance.act.run .untaken c
     Course .untaken [orderStarted, orderBrought false, streetEntered] c ∧
       t.result = .error .channelClosed ∧ c.current.map (·.modifiedNames) = some ["street"] ∧
       t.client.current.map (·.modifiedNames) = some [] ∧ ¬ Traceless .advance c.toClientState t) := by
  refine ⟨⟨.new _ (.root 0) none false Recording.empty, rfl, rfl, rfl, fun traceless => ?_⟩, ?_, rfl,
    rfl, rfl, fun traceless => ?_⟩
  · cases traceless.phase
  · exact (((run_orderBrought false).course.happens _).deafened nofun)
  · obtain ⟨s', hs', marks⟩ := traceless.marked _ rfl
    obtain rfl := Option.some.inj hs'
    exact List.not_mem_nil (marks "street" List.mem_cons_self)

end Stepwise
