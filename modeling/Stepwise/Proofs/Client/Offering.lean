/-
# When a cancel is offered

A client notes that it has sent a cancel, and offers no second one. The note is taken back when a
request is rejected, but not when the server answers the cancel by another step. From then on the
process is shown and cannot be cancelled, until some later request is rejected.

* `CancelStands`, `CancelOut`, `Overlooked` : a cancel that was sent and not rejected, one that was not
  answered, and one that was answered by a snapshot;
* `Reaction.cancelSent_eq` : the note, moment by moment;
* `cancel_offered_iff` : when a process that is shown can be cancelled.
-/
import Stepwise.Proofs.Client.Cancelling
import Stepwise.Proofs.Client.Display
import Stepwise.Proofs.Client.Lifecycle

namespace Stepwise

variable {V : Type}

/-- The request is rejected, and the process stays. -/
def Stimulus.isRejection : Stimulus → Bool
  | .response (.error (.recoverable ..)) => true
  | _ => false

/-- A request is answered. -/
def Stimulus.isAnswer : Stimulus → Bool
  | .response _ => true
  | .action _ => false

/-- A request is answered by a snapshot. -/
def Stimulus.isSnapshot : Stimulus → Bool
  | .response (.ok _) => true
  | _ => false

/-- The client asks the server to cancel. -/
def Moment.sendsCancel (m : Moment V) : Bool := m.requests.any Request.isCancel

theorem Moment.Shows.sendsCancel_eq {m : Moment V} {o o' : ClientState V} {i : Stimulus}
    {r : Except ClientError (Option Outcome)} {own : List Effect} (shows : m.Shows o i r o' own) :
    m.sendsCancel = (requestsOf own).any Request.isCancel := by
  rw [Moment.sendsCancel, Moment.requests, shows.own]

/-- A cancel was sent, and no request was rejected since. -/
def CancelStands (H : List (Moment V)) : Prop :=
  Since (fun _ m => m.sendsCancel = true) (fun m => m.stimulus.isRejection = true) H

/-- A cancel was sent, and no request was answered since. -/
def CancelOut (H : List (Moment V)) : Prop :=
  Since (fun _ m => m.sendsCancel = true) (fun m => m.stimulus.isAnswer = true) H

/-- A snapshot has come while a cancel was out, and no request was rejected since. -/
def Overlooked (H : List (Moment V)) : Prop :=
  Since (fun earlier m => CancelOut earlier ∧ m.stimulus.isSnapshot = true)
    (fun m => m.stimulus.isRejection = true) H

/-- A rejection is an answer, but no snapshot. -/
theorem Stimulus.isAnswer_of_isRejection {i : Stimulus} (h : i.isRejection = true) :
    i.isAnswer = true ∧ i.isSnapshot = false := by
  cases i with
  | action => cases h
  | response result =>
    cases result with
    | ok => cases h
    | error => exact ⟨rfl, rfl⟩

/-- A cancel that waits for its answer stands. -/
theorem CancelOut.stands {H : List (Moment V)} (h : CancelOut H) : CancelStands H :=
  h.mono fun _ rejected => (Stimulus.isAnswer_of_isRejection rejected).1

/-- A cancel that was overlooked stands. -/
theorem Overlooked.stands {H : List (Moment V)} (h : Overlooked H) : CancelStands H := by
  obtain ⟨A, m, C, rfl, ⟨out, snapshot⟩, quiet⟩ := h
  refine out.stands.append fun k hk => ?_
  rcases List.mem_cons.1 hk with rfl | hk
  · intro rejected
    rw [(Stimulus.isAnswer_of_isRejection rejected).2] at snapshot
    cases snapshot
  · exact quiet k hk

/-! ## One moment -/

section Moments

variable [ProcessView V] {ch : Channels} {o o' : ClientState V} {i : Stimulus}
  {r : Except ClientError (Option Outcome)} {own : List Effect}

/-- Among requests there is a cancel exactly if their number of cancels is positive. -/
theorem any_isCancel_of_cancelCount {rs : List Request} (h : cancelCount rs = 0) :
    rs.any Request.isCancel = false :=
  List.any_eq_false.2 fun r hr => List.countP_eq_zero.1 h r hr

theorem Received.cancelSent_eq {s : Snapshot} {effects : List Effect}
    (h : Received ch s o o' effects) (running : o.phase = .running) :
    o'.cancelSent = (o.cancelSent || (requestsOf effects).any Request.isCancel) := by
  cases h with
  | closed ended => rw [running] at ended; cases ended
  | cancelled => exact (Bool.or_true _).symm
  | concluded _ _ conclusion =>
    have hnone := any_isCancel_of_cancelCount conclusion.account.1
    rw [requestsOf_append, requestsOf_callEffects, List.nil_append, hnone, Bool.or_false]
    cases conclusion with
    | finished => rfl
    | idleStart => rfl
    | continued => rfl
    | shown => rfl

theorem Rejected.cancelSent_eq {e : ServiceError} {effects : List Effect}
    (h : Rejected ch o e o' effects) (running : o.phase = .running) :
    o'.cancelSent = ((o.cancelSent && !(Stimulus.response (.error e)).isRejection) ||
      (requestsOf effects).any Request.isCancel) := by
  have taken : false = ((o.cancelSent && false) || false) := by
    rw [Bool.and_false, Bool.or_false]
  cases h with
  | closed _ ended => rw [running] at ended; cases ended
  | failed =>
    rw [requestsOf_append, requestsOf_callEffects, requestsOf_emitted]
    show o.cancelSent = ((o.cancelSent && true) || false)
    rw [Bool.and_true, Bool.or_false]
  | cancelled => exact (Bool.or_true _).symm
  | withdrawn =>
    rw [requestsOf_callEffects]
    exact taken
  | finished =>
    rw [requestsOf_append, requestsOf_callEffects, requestsOf_endEffects]
    exact taken
  | replaced =>
    rw [requestsOf_append, requestsOf_append, requestsOf_callEffects, requestsOf_callEffects,
      requestsOf_emitted]
    exact taken
  | rejected =>
    rw [requestsOf_append, requestsOf_callEffects, requestsOf_callEffects]
    exact taken

theorem Resumed.cancelSent_eq {x : Outcome} {effects : List Effect} (h : Resumed o x o' effects) :
    o'.cancelSent = (o.cancelSent || (requestsOf effects).any Request.isCancel) := by
  cases h with
  | stayed => exact (Bool.or_false _).symm
  | continued => exact (Bool.or_false _).symm

/-- The note that a cancel was sent: it is taken when a cancel goes out, and taken back when a request
is rejected. -/
theorem Reaction.cancelSent_eq (reaction : Reaction ch o i r o' own)
    (answers : ∀ result, i = .response result → o.phase = .running) :
    o'.cancelSent =
      ((o.cancelSent && !i.isRejection) || (requestsOf own).any Request.isCancel) := by
  -- an action takes nothing back
  have act {a : UserAction} (h : o'.cancelSent =
      (o.cancelSent || (requestsOf own).any Request.isCancel)) :
      o'.cancelSent = ((o.cancelSent && !(Stimulus.action a).isRejection) ||
        (requestsOf own).any Request.isCancel) := by
    rw [h]
    exact congrArg (· || _) (Bool.and_true _).symm
  cases reaction with
  | refused => exact act (Bool.or_false _).symm
  | ignored => exact act (Bool.or_false _).symm
  | started d =>
    refine act ?_
    rw [requestsOf_append, requestsOf_emitted]
    exact (Bool.or_false _).symm
  | attached s idle received =>
    refine act ?_
    rw [requestsOf_append, requestsOf_emitted, List.nil_append]
    exact received.cancelSent_eq rfl
  | edited => exact act (Bool.or_false _).symm
  | @navigated _ s mode event offers navigates =>
    obtain ⟨-, hmode⟩ := navigates.not_cancel
    refine act ?_
    show (if mode = .cancel then true else o.cancelSent) =
      (o.cancelSent || (decide (mode = .cancel) || false))
    rw [if_neg hmode, decide_eq_false hmode, Bool.or_false, Bool.or_false]
  | deferred => exact act (Bool.or_false _).symm
  | asked =>
    refine act ?_
    rw [requestsOf_callEffects]
    exact (Bool.or_false _).symm
  | cancelled => exact act (Bool.or_true _).symm
  | answerLost => exact act (Bool.or_false _).symm
  | accepted => exact act (Bool.or_true _).symm
  | acceptedLocked => exact act (Bool.or_false _).symm
  | declined => exact act (Bool.or_false _).symm
  | declinedResumed _ _ _ resumed => exact act resumed.cancelSent_eq
  | paused => exact act (Bool.or_false _).symm
  | resumed resumed => exact act resumed.cancelSent_eq
  | received received =>
    rw [received.cancelSent_eq (answers _ rfl)]
    exact congrArg (· || _) (Bool.and_true _).symm
  | rejected rejected => exact rejected.cancelSent_eq (answers _ rfl)

/-- An answer that leaves the process running, and is no rejection, is a snapshot. -/
theorem Reaction.isSnapshot_of_isAnswer (reaction : Reaction ch o i r o' own)
    (going : o'.phase.isTerminal = false) (running : o.phase = .running)
    (answer : i.isAnswer = true) (kept : i.isRejection = false) : i.isSnapshot = true := by
  cases reaction with
  | received => rfl
  | rejected rejected =>
    cases rejected with
    | closed _ ended => rw [running] at ended; cases ended
    | failed => cases going
    | _ => cases kept
  | _ => cases answer

end Moments

/-! ## A cancel from a step that is shown -/

section Cancels

variable [ProcessView V] {ch : Channels} {o : ClientState V}

omit [ProcessView V] in
/-- While a step is shown and nothing is asked or deferred, a cancel is offered unless one was sent. -/
theorem availableActions_cancel (shown : o.phase = .interacting)
    (settled : o.awaitingConfirmation = false) (undeferred : o.pendingCancel = false)
    (kids : List (Client V)) :
    (Client.availableActions ⟨o, kids⟩).cancel = !o.cancelSent := by
  have going : (o.phase.isTerminal || decide (o.phase = .idle)) = false := by
    rw [shown]
    rfl
  unfold Client.availableActions
  rw [if_neg (by simpa using going)]
  cases o.locked <;> simp [shown, settled, undeferred]

/-- A step that is shown is cancelled at once, or after a question. -/
theorem Act.run_cancel_shown (h : ch.dispatchOpen = true) (shown : o.phase = .interacting)
    (unlocked : o.locked = false) (settled : o.awaitingConfirmation = false)
    (undeferred : o.pendingCancel = false) (unsent : o.cancelSent = false) {s : Snapshot}
    (current : o.current = some s) (kids : List (Client V)) :
    (run cancel ch ⟨o, kids⟩).result =
      .ok (if s.immediateInteraction = true then .sent else .awaitingConfirmation) := by
  have going : o.phase.isTerminal = false := by
    rw [shown]
    rfl
  have begun : o.phase ≠ .idle := by
    rw [shown]
    decide
  unfold cancel
  rw [run_bind_ensureOpen, if_neg (by simp [going]), run_bind_get]
  simp only [undeferred, unsent, begun, unlocked, settled, current, Bool.or_self,
    Bool.false_eq_true, if_false]
  by_cases immediate : s.immediateInteraction = true
  · rw [if_pos immediate, if_pos immediate, run_proceed h current]
  · rw [if_neg immediate, if_neg immediate]
    rfl

/-- A second cancel does nothing. -/
theorem Act.run_cancel_sent (going : o.phase.isTerminal = false) (sent : o.cancelSent = true)
    (kids : List (Client V)) :
    run cancel ch ⟨o, kids⟩ = ⟨.ok (.ignored .alreadyCancelling), ⟨o, kids⟩, []⟩ := by
  unfold cancel
  rw [run_bind_ensureOpen, if_neg (by simp [going]), run_bind_get]
  simp only [sent, Bool.or_true, if_true]
  rfl

end Cancels

/-! ## Whole runs -/

section Runs

variable [ProcessView V] {ch : Channels} {H : List (Moment V)} {c : Client V}
  {waiting : List Request}

/-- The note that a cancel was sent, at every point of a run. -/
theorem ClientRun.cancelSent_iff (h : ch.dispatchOpen = true) (run : ClientRun ch H c waiting) :
    c.cancelSent = true ↔ CancelStands H := by
  -- the note follows the history moment by moment
  have moment {H : List (Moment V)} {o o' : ClientState V} {m : Moment V} {i : Stimulus}
      {r : Except ClientError (Option Outcome)} {own : List Effect}
      (ih : o.cancelSent = true ↔ CancelStands H) (shows : m.Shows o i r o' own)
      (reaction : Reaction ch o i r o' own)
      (answers : ∀ result, i = .response result → o.phase = .running) :
      o'.cancelSent = true ↔ CancelStands (H ++ [m]) := by
    rw [reaction.cancelSent_eq answers, CancelStands, since_concat, shows.sendsCancel_eq, shows.stimulus,
      Bool.or_eq_true, Bool.and_eq_true, ih, Bool.not_eq_true, Bool.not_eq_true']
    exact ⟨fun h => h.symm.imp_right And.symm, fun h => h.symm.imp_left And.symm⟩
  refine (run.standing_and h (P := fun H o _ => o.cancelSent = true ↔ CancelStands H) ?_ ?_ ?_).2
  · intro id parent paused view
    exact iff_of_false Bool.false_ne_true not_since_nil
  · intro H o o' waiting m a r own st ih shows reaction
    exact moment ih shows reaction (by simp)
  · intro H o o' request m result r own w ih shows reaction
    exact moment ih shows reaction fun _ _ => w.running

/-- A cancel waits for its answer exactly if one was sent and no request was answered since. -/
theorem ClientRun.cancelOut_iff (h : ch.dispatchOpen = true) (run : ClientRun ch H c waiting) :
    waiting.any Request.isCancel = true ↔ CancelOut H := by
  refine (run.standing_and h
    (P := fun H _ waiting => waiting.any Request.isCancel = true ↔ CancelOut H) ?_ ?_ ?_).2
  · intro id parent paused view
    exact iff_of_false Bool.false_ne_true not_since_nil
  · intro H o o' waiting m a r own st ih shows reaction
    rw [List.any_append, Bool.or_eq_true, CancelOut, since_concat, shows.sendsCancel_eq,
      shows.stimulus, ih]
    exact ⟨fun h => h.symm.imp_right fun h => ⟨Bool.false_ne_true, h⟩,
      fun h => h.symm.imp_left And.right⟩
  · intro H o o' request m result r own w ih shows reaction
    rw [CancelOut, since_concat, shows.sendsCancel_eq, shows.stimulus]
    exact ⟨.inl, fun h => h.elim id fun h => absurd rfl h.1⟩

/-- In a process that goes on, a cancel that stands waits for its answer or was overlooked. -/
theorem ClientRun.out_or_overlooked (h : ch.dispatchOpen = true) (run : ClientRun ch H c waiting)
    (going : c.phase.isTerminal = false) (stands : CancelStands H) :
    CancelOut H ∨ Overlooked H := by
  -- a process that goes on after a moment went on before it
  have moment {H : List (Moment V)} {o o' : ClientState V} {m : Moment V} {i : Stimulus}
      {r : Except ClientError (Option Outcome)} {own : List Effect}
      (ih : o.phase.isTerminal = false → CancelStands H → CancelOut H ∨ Overlooked H)
      (shows : m.Shows o i r o' own) (reaction : Reaction ch o i r o' own)
      (answers : i.isAnswer = true → o.phase = .running) (going : o'.phase.isTerminal = false)
      (stands : CancelStands (H ++ [m])) : CancelOut (H ++ [m]) ∨ Overlooked (H ++ [m]) := by
    rcases (since_concat H m).1 stands with sends | ⟨kept, earlier⟩
    · exact .inl ((since_concat H m).2 (.inl sends))
    rw [Bool.not_eq_true] at kept
    have before : o.phase.isTerminal = false := Bool.eq_false_iff.2 fun ended => by
      rw [(reaction.absorbed ended).2.phase, ended] at going
      cases going
    rcases ih before earlier with out | overlooked
    · cases answer : m.stimulus.isAnswer with
      | false => exact .inl ((since_concat H m).2 (.inr ⟨by rw [answer]; decide, out⟩))
      | true =>
        refine .inr ((since_concat H m).2 (.inl ⟨out, ?_⟩))
        rw [shows.stimulus] at kept answer ⊢
        exact reaction.isSnapshot_of_isAnswer going (answers answer) answer kept
    · exact .inr ((since_concat H m).2 (.inr ⟨by rw [kept]; decide, overlooked⟩))
  refine (run.standing_and h (P := fun H o _ => o.phase.isTerminal = false → CancelStands H →
    CancelOut H ∨ Overlooked H) ?_ ?_ ?_).2 going stands
  · intro id parent paused view _ stands
    exact absurd stands not_since_nil
  · intro H o o' waiting m a r own st ih shows reaction
    exact moment ih shows reaction nofun
  · intro H o o' request m result r own w ih shows reaction
    exact moment ih shows reaction fun _ => w.running

/-- When a process can be cancelled. At every point of a run of a client:

* in a process that goes on, the client notes that it has sent a cancel exactly as long as the cancel
  waits for its answer, or was overlooked: answered by a snapshot, with no request rejected since;
* while a step is shown and no question is open, a cancel is offered exactly if none was overlooked;
* then it goes out or the user is asked, and else it does nothing at all. -/
theorem cancel_offered_iff (h : ch.dispatchOpen = true) (run : ClientRun ch H c waiting) :
    (c.phase.isTerminal = false →
      (c.cancelSent = true ↔ waiting.any Request.isCancel = true ∨ Overlooked H)) ∧
    (c.phase = .interacting → c.awaitingConfirmation = false →
      (c.availableActions.cancel = true ↔ ¬ Overlooked H) ∧
      (¬ Overlooked H → ∃ x, (c.face ch (.action .cancel)).turn.result = .ok (some x) ∧
        (x = .sent ∨ x = .awaitingConfirmation)) ∧
      (Overlooked H → (c.face ch (.action .cancel)).turn =
        ⟨.ok (some (.ignored .alreadyCancelling)), c, []⟩)) := by
  have noted (going : c.phase.isTerminal = false) :
      c.cancelSent = true ↔ waiting.any Request.isCancel = true ∨ Overlooked H := by
    rw [run.cancelOut_iff h, run.cancelSent_iff h]
    exact ⟨run.out_or_overlooked h going, fun h => h.elim CancelOut.stands Overlooked.stands⟩
  refine ⟨noted, fun shown settled => ?_⟩
  have r : Resting (ownLog H) c.toClientState waiting := by
    cases run.standing h with
    | waits w => rw [w.running] at shown; cases shown
    | rests r => exact r
  have going : c.phase.isTerminal = false := by
    rw [shown]
    rfl
  -- nothing waits for an answer while a step is shown
  have sent_iff : c.cancelSent = true ↔ Overlooked H := by
    rw [noted going, r.none, List.any_nil, Bool.false_eq_true, false_or]
  obtain ⟨o, kids⟩ := c
  refine ⟨?_, fun fresh => ?_, fun overlooked => ?_⟩
  · rw [availableActions_cancel shown settled r.undeferred kids, Bool.not_eq_true', ← sent_iff,
      Bool.not_eq_true]
  · obtain ⟨s, current⟩ := Option.isSome_iff_exists.1 (r.shown shown)
    have unsent : o.cancelSent = false := Bool.eq_false_iff.2 fun sent => fresh (sent_iff.1 sent)
    have hcancel := Act.run_cancel_shown h shown r.unlocked settled r.undeferred unsent current kids
    refine ⟨if s.immediateInteraction = true then .sent else .awaitingConfirmation, ?_, ?_⟩
    · show (Act.run (Act.cancel >>= fun x => pure (some x)) ch ⟨o, kids⟩).result = _
      rw [Act.run_bind, hcancel]
      rfl
    · by_cases immediate : s.immediateInteraction = true
      · exact .inl (if_pos immediate)
      · exact .inr (if_neg immediate)
  · have hcancel : Act.run Act.cancel ch ⟨o, kids⟩ = _ :=
      Act.run_cancel_sent going (sent_iff.2 overlooked) kids
    show Act.run (Act.cancel >>= fun x => pure (some x)) ch ⟨o, kids⟩ = _
    rw [Act.run_bind, hcancel]
    rfl

end Runs

/-- The user of a form asks to cancel the order. -/
def orderQuestioned : Moment Recording :=
  (orderBrought false).turn.client.face .open (.action .cancel)

/-- The question is answered with yes, and the cancel goes out. -/
def orderWithdrawn : Moment Recording :=
  orderQuestioned.turn.client.face .open (.action (.answer true))

/-- The cancel is answered. -/
def orderReturned (result : Except ServiceError Snapshot) : Moment Recording :=
  orderWithdrawn.turn.client.face .open (.response result)

theorem run_orderReturned (result : Except ServiceError Snapshot) :
    ClientRun .open
      [orderStarted, orderBrought false, orderQuestioned, orderWithdrawn, orderReturned result]
      (orderReturned result).turn.client (orderReturned result).requests :=
  @ClientRun.answer Recording _ .open
    [orderStarted, orderBrought false, orderQuestioned, orderWithdrawn] orderWithdrawn.turn.client
    [] [] _ (((run_orderBrought false).act .cancel).act (.answer true)) result

/-- After a cancel that is rejected another one is offered, and the user is asked again. -/
theorem cancel_offered_orderRejected :
    (orderReturned (.error (.rejected "Too late"))).turn.client.availableActions.cancel = true ∧
      ∃ x, ((orderReturned (.error (.rejected "Too late"))).turn.client.face .open
        (.action .cancel)).turn.result = .ok (some x) ∧ (x = .sent ∨ x = .awaitingConfirmation) := by
  obtain ⟨noted, offered⟩ :=
    cancel_offered_iff rfl (run_orderReturned (.error (.rejected "Too late")))
  obtain ⟨offers, asks, -⟩ := offered rfl rfl
  have fresh : ¬ Overlooked _ := fun overlooked => by
    cases (noted rfl).2 (.inr overlooked)
  exact ⟨offers.2 fresh, asks fresh⟩

/-- After a cancel that is answered by the form once more, the form is shown, no question is open, and
the order cannot be cancelled. -/
theorem not_cancel_offered_orderReturned :
    ∃ H c, ClientRun .open H c ([] : List Request) ∧ c.phase = .interacting ∧
      c.awaitingConfirmation = false ∧ c.cancelSent = true ∧ c.availableActions.cancel = false ∧
      (Client.face c .open (.action .cancel) : Moment Recording).turn.result =
        .ok (some (.ignored .alreadyCancelling)) :=
  ⟨_, _, run_orderReturned (.ok (addressForm false)), rfl, rfl, rfl, rfl, rfl⟩

end Stepwise
