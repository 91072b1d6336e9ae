/-
# What is offered is accepted

A client offers actions, and each action decides once more whether it goes through. The two ask for
different things in a different order, so there are states in which they disagree: a step without a
snapshot, a question while a request is under way. No run gets there. What is offered is therefore
exactly what goes through, and a process that is not over can always go on.

* `next_offered_iff`, `previous_offered_iff`, `reload_offered_iff`, `cancel_available_iff` : when an
  action is offered;
* `Act.sent_advance_iff`, `Act.sent_rollback_iff`, `Act.sent_reload_iff`, `Act.accepted_cancel_iff` :
  when it goes through;
* `Standing.moves` : a process that is not over goes on in one of four ways;
* `offered_iff_accepted` : the same at every point of a run.
-/
import Stepwise.Proofs.Client.Display

namespace Stepwise

variable {V : Type} {o : ClientState V}

/-! ## When an action is offered -/

section Offered

variable (kids : List (Client V))

/-- While the user may act on the step that is shown, all depends on the step. -/
theorem availableActions_of_offers (offers : o.Offers) :
    Client.availableActions ⟨o, kids⟩ =
      { next := Client.nextOffered ⟨o, kids⟩, previous := Client.rollbackOffered ⟨o, kids⟩
        cancel := !o.pendingCancel && !o.cancelSent, reload := true } := by
  simp [Client.availableActions, offers.shown, offers.unlocked, offers.settled, Phase.isTerminal]

/-- Otherwise only a cancel can be offered. -/
theorem availableActions_of_not_offers (h : ¬ o.Offers) :
    (Client.availableActions ⟨o, kids⟩).next = false ∧
      (Client.availableActions ⟨o, kids⟩).previous = false ∧
      (Client.availableActions ⟨o, kids⟩).reload = false := by
  unfold Client.availableActions
  split
  · exact ⟨rfl, rfl, rfl⟩
  · dsimp only
    split
    · exact ⟨rfl, rfl, rfl⟩
    · next free =>
      simp only [ne_eq, Bool.or_eq_true, decide_eq_true_eq, not_or, Decidable.not_not,
        Bool.not_eq_true] at free
      exact absurd ⟨free.1.1, free.1.2, free.2⟩ h

theorem next_offered_iff :
    (Client.availableActions ⟨o, kids⟩).next = true ↔
      o.Offers ∧ Client.nextOffered ⟨o, kids⟩ = true := by
  by_cases offers : o.Offers
  · rw [availableActions_of_offers kids offers, and_iff_right offers]
  · simp [(availableActions_of_not_offers kids offers).1, offers]

theorem previous_offered_iff :
    (Client.availableActions ⟨o, kids⟩).previous = true ↔
      o.Offers ∧ Client.rollbackOffered ⟨o, kids⟩ = true := by
  by_cases offers : o.Offers
  · rw [availableActions_of_offers kids offers, and_iff_right offers]
  · simp [(availableActions_of_not_offers kids offers).2.1, offers]

theorem reload_offered_iff : (Client.availableActions ⟨o, kids⟩).reload = true ↔ o.Offers := by
  by_cases offers : o.Offers
  · rw [availableActions_of_offers kids offers]
    exact iff_of_true rfl offers
  · rw [(availableActions_of_not_offers kids offers).2.2]
    exact iff_of_false Bool.false_ne_true offers

/-- A cancel is offered if it can begin and nothing is asked, whether or not a step is shown. -/
theorem cancel_available_iff :
    (Client.availableActions ⟨o, kids⟩).cancel = true ↔
      o.Cancellable ∧ o.awaitingConfirmation = false := by
  have flags : (!o.pendingCancel && !o.cancelSent && !o.awaitingConfirmation) = true ↔
      (o.pendingCancel = false ∧ o.cancelSent = false) ∧ o.awaitingConfirmation = false := by
    simp only [Bool.and_eq_true, Bool.not_eq_true']
  unfold Client.availableActions
  split
  · next closed =>
    refine iff_of_false Bool.false_ne_true fun ⟨can, _⟩ => ?_
    rcases Bool.or_eq_true_iff.1 closed with ended | idle
    · exact Bool.false_ne_true (can.going.symm.trans ended)
    · exact can.begun (of_decide_eq_true idle)
  · next going =>
    rw [Bool.or_eq_true, not_or, Bool.not_eq_true, decide_eq_true_eq] at going
    have hcancel : (!o.pendingCancel && !o.cancelSent && !o.awaitingConfirmation) = true ↔
        o.Cancellable ∧ o.awaitingConfirmation = false := by
      rw [flags]
      exact ⟨fun h => ⟨⟨going.1, going.2, h.1.1, h.1.2⟩, h.2⟩,
        fun h => ⟨⟨h.1.waits, h.1.sent⟩, h.2⟩⟩
    dsimp only
    split
    · exact hcancel
    · exact hcancel

end Offered

/-! ## When an action goes through -/

namespace Act

variable [ProcessView V] {ch : Channels} {kids : List (Client V)}

omit [ProcessView V] in
/-- Navigation takes its step if the user may act on what is shown. -/
theorem run_navigate (offers : o.Offers) (operation : Operation) (step : Act V Outcome) :
    run (navigate operation step) ch ⟨o, kids⟩ = run step ch ⟨o, kids⟩ := by
  have going : o.phase.isTerminal = false := by
    rw [offers.shown]
    rfl
  unfold navigate
  rw [run_bind_ensureOpen, if_neg (by simp [going]), run_bind_get, if_neg (by simp [offers.unlocked]),
    run_bind_ensureInteracting, if_neg (not_not_intro offers.shown), if_neg (by simp [offers.settled])]

omit [ProcessView V] in
/-- Navigation sends a request exactly if the user may act on what is shown and its step sends one. -/
theorem sent_navigate_iff (operation : Operation) (step : Act V Outcome) :
    (run (navigate operation step) ch ⟨o, kids⟩).result = .ok .sent ↔
      o.Offers ∧ (run step ch ⟨o, kids⟩).result = .ok .sent := by
  constructor
  · intro sent
    have navigates : Declines ch o kids (navigate operation step) ∨ _ :=
      declines_navigate operation step
    rcases navigates with ⟨r, hrun, -, ⟨e, rfl⟩ | ⟨reason, rfl⟩⟩ | ⟨offers, hrun⟩
    · rw [hrun] at sent
      cases sent
    · rw [hrun] at sent
      cases sent
    · rw [hrun] at sent
      exact ⟨offers, sent⟩
  · rintro ⟨offers, sent⟩
    rw [run_navigate offers]
    exact sent

/-- A client goes on exactly if there is a snapshot to go on from. -/
theorem sent_proceed_iff (h : ch.dispatchOpen = true) (mode : Mode) (event : Option Interaction) :
    (run (proceed mode event) ch ⟨o, kids⟩).result = .ok .sent ↔ o.current.isSome = true := by
  cases current : o.current with
  | none =>
    rw [run_proceed_none current]
    simp
  | some s =>
    rw [run_proceed h current]
    exact iff_of_true rfl rfl

theorem sent_advance_iff (h : ch.dispatchOpen = true) :
    (run advance ch ⟨o, kids⟩).result = .ok .sent ↔
      o.Offers ∧ Client.nextOffered ⟨o, kids⟩ = true := by
  unfold advance
  rw [sent_navigate_iff, run_bind_get]
  refine and_congr_right fun _ => ?_
  by_cases offered : Client.nextOffered (⟨o, kids⟩ : Client V) = true
  · -- a step that is offered is a snapshot
    have current : o.current.isSome = true := Option.isSome_of_any offered
    rw [if_pos offered, sent_proceed_iff h]
    exact iff_of_true current offered
  · rw [if_neg offered, run_pure]
    exact iff_of_false nofun offered

theorem sent_rollback_iff (h : ch.dispatchOpen = true) :
    (run rollback ch ⟨o, kids⟩).result = .ok .sent ↔
      o.Offers ∧ Client.rollbackOffered ⟨o, kids⟩ = true := by
  unfold rollback
  rw [sent_navigate_iff, run_bind_get]
  refine and_congr_right fun _ => ?_
  by_cases offered : Client.rollbackOffered (⟨o, kids⟩ : Client V) = true
  · have current : o.current.isSome = true := Option.isSome_of_any offered
    rw [if_pos offered, sent_proceed_iff h]
    exact iff_of_true current offered
  · rw [if_neg offered, run_pure]
    exact iff_of_false nofun offered

theorem sent_reload_iff (h : ch.dispatchOpen = true) :
    (run reload ch ⟨o, kids⟩).result = .ok .sent ↔ o.Offers ∧ o.current.isSome = true := by
  unfold reload
  rw [sent_navigate_iff, sent_proceed_iff h]

/-- A cancel goes through if it can begin, and if either a request is under way, or nothing is asked
and there is a process to cancel. -/
theorem accepted_cancel_iff (h : ch.dispatchOpen = true) :
    (∃ x, (run cancel ch ⟨o, kids⟩).result = .ok x ∧
        (x = .sent ∨ x = .deferred ∨ x = .awaitingConfirmation)) ↔
      o.Cancellable ∧
        (o.locked = true ∨ o.awaitingConfirmation = false ∧ o.current.isSome = true) := by
  unfold cancel
  rw [run_bind_ensureOpen]
  by_cases ended : o.phase.isTerminal = true
  · rw [if_pos ended]
    exact iff_of_false (by simp) fun can => Bool.false_ne_true (can.1.going.symm.trans ended)
  rw [if_neg ended, run_bind_get]
  by_cases begun : (o.pendingCancel || o.cancelSent) = true
  · rw [if_pos begun, run_pure]
    refine iff_of_false (by simp) fun can => ?_
    rw [can.1.waits, can.1.sent] at begun
    cases begun
  rw [if_neg begun]
  by_cases idle : o.phase = .idle
  · rw [if_pos idle, run_refuse]
    exact iff_of_false (by simp) fun can => can.1.begun idle
  rw [if_neg idle]
  have can : o.Cancellable := by
    rw [Bool.or_eq_true, not_or] at begun
    exact ⟨Bool.eq_false_iff.2 ended, idle, Bool.eq_false_iff.2 begun.1, Bool.eq_false_iff.2 begun.2⟩
  rw [and_iff_right can]
  by_cases locked : o.locked = true
  · rw [if_pos locked, run_bind_modify, run_pure]
    exact iff_of_true ⟨_, rfl, .inr (.inl rfl)⟩ (.inl locked)
  rw [if_neg locked, or_iff_right locked]
  by_cases asked : o.awaitingConfirmation = true
  · rw [if_pos asked, run_pure]
    exact iff_of_false (by simp) fun free => Bool.false_ne_true (free.1.symm.trans asked)
  rw [if_neg asked, and_iff_right (Bool.eq_false_iff.2 asked)]
  cases current : o.current with
  | none =>
    simp only [run_refuse]
    exact iff_of_false (by simp) (by simp)
  | some s =>
    refine iff_of_true ?_ rfl
    dsimp only
    by_cases immediate : s.immediateInteraction = true
    · rw [if_pos immediate, run_proceed h current]
      exact ⟨_, rfl, .inl rfl⟩
    · rw [if_neg immediate]
      exact ⟨_, rfl, .inr (.inr rfl)⟩

/-- A client that has not begun can be started. -/
theorem sent_start (h : ch.dispatchOpen = true) (idle : o.phase = .idle) (d : Descriptor) :
    (run (start d) ch ⟨o, kids⟩).result = .ok .sent := by
  unfold start
  rw [run_bind_get, if_neg (not_not_intro idle), run_bind_modify, run_bind_emit,
    run_bind_of_ok (run_send h (.start d) { o with phase := .running } kids), run_bind_modify,
    run_pure]
  rfl

end Act

/-! ## Clients that wait or rest -/

section Standing

variable [ProcessView V] {ch : Channels} {log : List Effect} {waiting : List Request}

omit [ProcessView V] in
/-- What is shown has a snapshot. -/
theorem Standing.isSome_current (st : Standing log o waiting) (shown : o.phase = .interacting) :
    o.current.isSome = true := (st.rests_of_shown shown).shown shown

omit [ProcessView V] in
/-- Where a cancel can begin, a request is under way or there is a process to cancel. -/
theorem Standing.cancellable (st : Standing log o waiting) (can : o.Cancellable) :
    o.locked = true ∧ o.awaitingConfirmation = false ∨
      o.locked = false ∧ o.current.isSome = true := by
  cases st with
  | waits w => exact .inl ⟨w.locked, w.unasked⟩
  | rests r => exact .inr ⟨r.unlocked, r.shown (r.interacting can.going can.begun)⟩

/-- A process that is not over goes on: an answer is awaited, or the open question can be answered
with yes, or the process can be started, or its step can be asked for once more. -/
theorem Standing.moves (h : ch.dispatchOpen = true) (st : Standing log o waiting)
    (going : o.phase.isTerminal = false) (kids : List (Client V)) :
    waiting ≠ [] ∨
      (o.awaitingConfirmation = true ∧
        (Act.run (Act.answer true) ch ⟨o, kids⟩).result = .ok .sent) ∨
      (o.phase = .idle ∧ ∀ d, (Act.run (Act.start d) ch ⟨o, kids⟩).result = .ok .sent) ∨
      (Act.run Act.reload ch ⟨o, kids⟩).result = .ok .sent := by
  cases st with
  | waits w =>
    refine .inl fun none => ?_
    have single := w.single
    rw [none] at single
    cases single
  | rests r =>
    refine .inr ?_
    by_cases idle : o.phase = .idle
    · exact .inr (.inl ⟨idle, Act.sent_start h idle⟩)
    have shown := r.interacting going idle
    by_cases asked : o.awaitingConfirmation = true
    · refine .inl ⟨asked, ?_⟩
      rw [Act.run_answer asked, if_neg (by simp [going]), if_pos rfl, if_neg (by simp [r.unlocked])]
      exact (Act.sent_proceed_iff (o := o.settled) h .cancel none).2 (r.shown shown)
    · exact .inr (.inr ((Act.sent_reload_iff h).2
        ⟨⟨shown, r.unlocked, Bool.eq_false_iff.2 asked⟩, r.shown shown⟩))

end Standing

/-! ## Whole runs -/

section Runs

variable [ProcessView V] {ch : Channels} {H : List (Moment V)} {c : Client V}
  {waiting : List Request}

/-- What a client offers is what it accepts, at every point of its run:

* the next step, the way back and the current step once more are offered exactly if asking for them
  sends a request;
* a cancel is offered exactly if it is sent, deferred, or the user is asked;
* so a process that is not over is never stuck: a request is under way, or the open question can be
  answered with yes, or the process can be started, or its step can be asked for once more. -/
theorem offered_iff_accepted (h : ch.dispatchOpen = true) (run : ClientRun ch H c waiting) :
    (c.availableActions.next = true ↔ (Act.run Act.advance ch c).result = .ok .sent) ∧
    (c.availableActions.previous = true ↔ (Act.run Act.rollback ch c).result = .ok .sent) ∧
    (c.availableActions.reload = true ↔ (Act.run Act.reload ch c).result = .ok .sent) ∧
    (c.availableActions.cancel = true ↔
      ∃ x, (Act.run Act.cancel ch c).result = .ok x ∧
        (x = .sent ∨ x = .deferred ∨ x = .awaitingConfirmation)) ∧
    (c.phase.isTerminal = false →
      waiting ≠ [] ∨
      (c.awaitingConfirmation = true ∧ (Act.run (Act.answer true) ch c).result = .ok .sent) ∨
      (c.phase = .idle ∧ ∀ d, (Act.run (Act.start d) ch c).result = .ok .sent) ∨
      (Act.run Act.reload ch c).result = .ok .sent) := by
  have st := run.standing h
  obtain ⟨o, kids⟩ := c
  refine ⟨?_, ?_, ?_, ?_, fun going => st.moves h going kids⟩
  · rw [next_offered_iff, Act.sent_advance_iff h]
  · rw [previous_offered_iff, Act.sent_rollback_iff h]
  · rw [reload_offered_iff, Act.sent_reload_iff h]
    exact ⟨fun offers => ⟨offers, st.isSome_current offers.shown⟩, And.left⟩
  · rw [cancel_available_iff, Act.accepted_cancel_iff h]
    refine and_congr_right fun can => ?_
    rcases st.cancellable can with ⟨locked, unasked⟩ | ⟨unlocked, current⟩
    · exact iff_of_true unasked (.inl locked)
    · exact ⟨fun unasked => .inr ⟨unasked, current⟩,
        fun accepts => accepts.elim
          (fun locked => absurd (unlocked.symm.trans locked) Bool.false_ne_true) And.left⟩

/-- An address is asked for: all but the way back is offered, and the order can go on. -/
theorem offered_iff_accepted_orderBrought :
    (Act.run Act.advance .open (orderBrought false).turn.client).result = .ok .sent ∧
      (Act.run Act.rollback .open (orderBrought false).turn.client).result ≠ .ok .sent ∧
      (Act.run Act.reload .open (orderBrought false).turn.client).result = .ok .sent := by
  obtain ⟨next, previous, reload, -, -⟩ := offered_iff_accepted rfl (run_orderBrought false)
  refine ⟨next.1 rfl, fun sent => ?_, reload.1 rfl⟩
  exact Bool.false_ne_true (previous.2 sent)

end Runs

end Stepwise
