/-
# Cancels are neither lost nor doubled

A user decides to cancel by a cancel that goes out or is deferred, or by a positive answer to the
question. Every such intent ends in one cancel request, except that a deferred one is moot if the
response it waited for closes the client or withdraws the start.

* `Moment.isIntent`, `Moment.isMoot` : where intents come from, and where they are lost;
* `Reaction.account` : one moment keeps the account;
* `Reaction.answer_of_pending` : what a response does while a cancel waits;
* `cancels_accounted` : whole runs.
-/
import Stepwise.Proofs.Client.Standing
import Stepwise.View.Recording

namespace Stepwise

variable {V : Type}

/-! ## Intents -/

/-- The user asks to cancel, or says yes to the question. -/
def Stimulus.cancels : Stimulus → Bool
  | .action .cancel => true
  | .action (.answer accepted) => accepted
  | _ => false

/-- The result tells that a request was sent. -/
def isSent : Except ClientError (Option Outcome) → Bool
  | .ok (some .sent) => true
  | _ => false

/-- The result tells that a cancel waits. -/
def isDeferred : Except ClientError (Option Outcome) → Bool
  | .ok (some .deferred) => true
  | _ => false

/-- The response takes the purpose from a cancel that waits: it closes the client, or there is no
process to cancel. -/
def Stimulus.withdraws (o o' : ClientState V) : Stimulus → Bool
  | .action _ => false
  | .response (.error (.recoverable _ _ none)) =>
    o.pendingCancel && (o'.phase.isTerminal || o.current.isNone)
  | .response _ => o.pendingCancel && o'.phase.isTerminal

/-- The request asks the server to cancel. -/
def Request.isCancel (r : Request) : Bool := r.mode = .cancel

/-- The number of cancels among requests. -/
def cancelCount (rs : List Request) : Nat := rs.countP Request.isCancel

namespace Moment

/-- The user decides to cancel, and the cancel goes out or waits. -/
def isIntent (m : Moment V) : Bool :=
  m.stimulus.cancels && (isSent m.turn.result || isDeferred m.turn.result)

/-- A cancel that waits becomes moot. -/
def isMoot (m : Moment V) : Bool :=
  m.stimulus.withdraws m.before.toClientState m.turn.client.toClientState

end Moment

/-! ## One moment -/

section Account

variable [ProcessView V] {ch : Channels} {o o' : ClientState V}

theorem Resumed.account {x : Outcome} {effects : List Effect} (h : Resumed o x o' effects) :
    cancelCount (requestsOf effects) = 0 ∧ o'.pendingCancel = o.pendingCancel := by
  cases h with
  | stayed => exact ⟨rfl, rfl⟩
  | continued => exact ⟨rfl, rfl⟩

theorem Concluded.account {starting previousFinal : Bool} {s : Snapshot} {effects : List Effect}
    (h : Concluded ch starting previousFinal s o o' effects) :
    cancelCount (requestsOf effects) = 0 ∧ o'.pendingCancel = o.pendingCancel ∧
      (s.finished = true → o'.phase.isTerminal = true) := by
  cases h with
  | finished => exact ⟨by rw [requestsOf_endEffects]; rfl, rfl, fun _ => rfl⟩
  | idleStart => exact ⟨by rw [requestsOf_endEffects]; rfl, rfl, fun _ => rfl⟩
  | continued ended => exact ⟨rfl, rfl, fun h => by rw [ended] at h; cases h⟩
  | shown ended =>
    refine ⟨?_, rfl, fun h => by rw [ended] at h; cases h⟩
    rw [requestsOf_append, requestsOf_callEffects, requestsOf_emitted]
    rfl

/-- A snapshot sends the cancel that waits, or makes it moot. -/
theorem Received.account {s : Snapshot} {effects : List Effect} (h : Received ch s o o' effects)
    (running : o.phase = .running) :
    o.pendingCancel.toNat = cancelCount (requestsOf effects) + o'.pendingCancel.toNat +
      (o.pendingCancel && o'.phase.isTerminal).toNat := by
  cases h with
  | closed ended => rw [running] at ended; cases ended
  | cancelled _ waits =>
    have alive : (ClientState.proceeded { o.answered with pendingCancel := false } s
        .cancel).phase.isTerminal = false := by
      rw [ClientState.isTerminal_proceeded]
      exact congrArg Phase.isTerminal running
    rw [waits, alive]
    rfl
  | concluded _ moot conclusion =>
    obtain ⟨hcount, hpending, hover⟩ := conclusion.account
    rw [requestsOf_append, requestsOf_callEffects, List.nil_append, hcount, hpending]
    cases waits : o.pendingCancel with
    | false => rfl
    | true =>
      rw [hover (moot waits)]
      rfl

/-- An error sends the cancel that waits, or makes it moot. -/
theorem Rejected.account {e : ServiceError} {effects : List Effect} (h : Rejected ch o e o' effects)
    (running : o.phase = .running) :
    o.pendingCancel.toNat = cancelCount (requestsOf effects) + o'.pendingCancel.toNat +
      ((Stimulus.response (.error e)).withdraws o o').toNat := by
  cases h with
  | closed _ ended => rw [running] at ended; cases ended
  | failed message cause =>
    rw [requestsOf_append, requestsOf_callEffects, requestsOf_emitted]
    show o.pendingCancel.toNat = 0 + 0 + (o.pendingCancel && true).toNat
    rw [Bool.and_true, Nat.zero_add]
  | cancelled message fieldErrors replacement _ waits s subject =>
    have alive : (ClientState.proceeded
        { o.answered with pendingCancel := false, cancelSent := false } s
        .cancel).phase.isTerminal = false := by
      rw [ClientState.isTerminal_proceeded]
      exact congrArg Phase.isTerminal running
    rw [waits, requestsOf_sendEffects]
    cases replacement with
    | some t =>
      show 1 = 1 + 0 + (o.pendingCancel && _).toNat
      rw [alive, Bool.and_false]
      rfl
    | none =>
      have hsome : o.current.isNone = false := by
        rw [show o.current = some s from subject]
        rfl
      show 1 = 1 + 0 + (o.pendingCancel && (_ || o.current.isNone)).toNat
      rw [alive, hsome, Bool.or_false, Bool.and_false]
      rfl
  | withdrawn message fieldErrors _ none =>
    rw [requestsOf_callEffects]
    show o.pendingCancel.toNat = 0 + 0 + (o.pendingCancel && (_ || o.current.isNone)).toNat
    rw [none, Option.isNone_none, Bool.or_true, Bool.and_true, Nat.zero_add]
  | finished message fieldErrors s _ waits =>
    rw [waits, requestsOf_append, requestsOf_callEffects, requestsOf_endEffects]
    show 0 = 0 + o.pendingCancel.toNat + (o.pendingCancel && true).toNat
    rw [waits]
    rfl
  | replaced message fieldErrors s _ waits =>
    rw [waits, requestsOf_append, requestsOf_append, requestsOf_callEffects,
      requestsOf_callEffects, requestsOf_emitted]
    show 0 = 0 + o.pendingCancel.toNat + (o.pendingCancel && false).toNat
    rw [waits]
    rfl
  | rejected message fieldErrors _ waits s =>
    rw [waits, requestsOf_append, requestsOf_callEffects, requestsOf_callEffects]
    show 0 = 0 + o.pendingCancel.toNat + (o.pendingCancel && _).toNat
    rw [waits]
    rfl

omit [ProcessView V] in
/-- Going on from a step is no cancel, neither as an action nor as a request. -/
theorem Navigates.not_cancel {a : UserAction} {s : Snapshot} {mode : Mode}
    {event : Option Interaction} (h : Navigates o a s mode event) :
    (Stimulus.action a).cancels = false ∧ mode ≠ .cancel := by
  cases h <;> exact ⟨rfl, by decide⟩

/-- One moment keeps the account: intents, and the cancel that waited, are sent, wait, or become
moot. -/
theorem Reaction.account {log : List Effect} {waiting : List Request} {i : Stimulus}
    {r : Except ClientError (Option Outcome)} {own : List Effect}
    (reaction : Reaction ch o i r o' own) (st : Standing log o waiting)
    (answers : ∀ result, i = .response result → o.phase = .running) :
    (i.cancels && (isSent r || isDeferred r)).toNat + o.pendingCancel.toNat =
      cancelCount (requestsOf own) + o'.pendingCancel.toNat + (i.withdraws o o').toNat := by
  -- all but cancelling leaves the account as it is
  have silent {a : UserAction} {r : Except ClientError (Option Outcome)} {own : List Effect}
      (none : ((Stimulus.action a).cancels && (isSent r || isDeferred r)) = false)
      (hcount : cancelCount (requestsOf own) = 0) (same : o'.pendingCancel = o.pendingCancel) :
      ((Stimulus.action a).cancels && (isSent r || isDeferred r)).toNat + o.pendingCancel.toNat =
        cancelCount (requestsOf own) + o'.pendingCancel.toNat +
          ((Stimulus.action a).withdraws o o').toNat := by
    rw [none, hcount, same]
    rfl
  cases reaction with
  | refused a e => exact silent (Bool.and_false _) rfl rfl
  | ignored a reason => exact silent (Bool.and_false _) rfl rfl
  | started d idle =>
    refine silent rfl ?_ rfl
    rw [requestsOf_append, requestsOf_emitted]
    rfl
  | attached s idle received =>
    have hr : Resting log o waiting := by
      cases st with
      | waits w => rw [w.running] at idle; cases idle
      | rests r => exact r
    have hreceived := received.account rfl
    rw [show ({ o with phase := .running } : ClientState V).pendingCancel = false from
      hr.undeferred] at hreceived
    rw [requestsOf_append, requestsOf_emitted, List.nil_append, hr.undeferred]
    exact hreceived
  | edited => exact silent rfl rfl rfl
  | navigated offers navigates =>
    obtain ⟨none, hmode⟩ := navigates.not_cancel
    refine silent (by rw [none]; rfl) ?_ rfl
    rw [requestsOf_sendEffects, cancelCount, List.countP_singleton]
    exact if_neg fun h => hmode (of_decide_eq_true h)
  | deferred can =>
    rw [can.waits]
    rfl
  | asked => exact silent rfl (by rw [requestsOf_callEffects]; rfl) rfl
  | cancelled can =>
    show 1 + o.pendingCancel.toNat = 1 + o.pendingCancel.toNat + 0
    rw [Nat.add_zero]
  | answerLost accepted e => exact silent (Bool.and_false _) rfl rfl
  | accepted asked =>
    show 1 + o.pendingCancel.toNat = 1 + o.pendingCancel.toNat + 0
    rw [Nat.add_zero]
  | acceptedLocked asked _ locked =>
    rw [(st.rests_of_asked asked).unlocked] at locked
    cases locked
  | declined => exact silent rfl rfl rfl
  | declinedResumed _ _ _ resumed =>
    obtain ⟨hcount, same⟩ := resumed.account
    exact silent rfl hcount same
  | paused => exact silent rfl rfl rfl
  | resumed resumed =>
    obtain ⟨hcount, same⟩ := resumed.account
    exact silent rfl hcount same
  | received received => exact (Nat.zero_add _).trans (received.account (answers _ rfl))
  | rejected rejected => exact (Nat.zero_add _).trans (rejected.account (answers _ rfl))

/-- While its request is under way, nothing that the user does leaves anything behind, and a cancel
that waits goes on waiting. -/
theorem Reaction.act_of_waiting {log : List Effect} {waiting : List Request} {a : UserAction}
    {r : Except ClientError (Option Outcome)} {own : List Effect}
    (reaction : Reaction ch o (.action a) r o' own) (w : Waiting log o waiting) :
    own = [] ∧ (o.pendingCancel = true → o'.pendingCancel = true) := by
  have locked : o.locked ≠ false := by
    rw [w.locked]
    decide
  have unasked : o.awaitingConfirmation ≠ true := by
    rw [w.unasked]
    decide
  -- what is open to a user while a step is shown, or before the start, is closed now
  have other {phase : Phase} (hphase : o.phase = phase) (hne : phase ≠ .running) : False :=
    hne (hphase.symm.trans w.running)
  cases reaction with
  | refused => exact ⟨rfl, id⟩
  | ignored => exact ⟨rfl, id⟩
  | started d idle => exact (other idle (by decide)).elim
  | attached s idle => exact (other idle (by decide)).elim
  | edited _ _ shown => exact (other shown (by decide)).elim
  | navigated offers => exact absurd offers.unlocked locked
  | deferred => exact ⟨rfl, fun _ => rfl⟩
  | asked _ unlocked => exact absurd unlocked locked
  | cancelled _ unlocked => exact absurd unlocked locked
  | answerLost _ _ asked => exact absurd asked unasked
  | accepted asked => exact absurd asked unasked
  | acceptedLocked asked => exact absurd asked unasked
  | declined asked => exact absurd asked unasked
  | declinedResumed asked => exact absurd asked unasked
  | paused => exact ⟨rfl, id⟩
  | resumed resumed =>
    cases resumed with
    | stayed => exact ⟨rfl, id⟩
    | continued offers => exact absurd offers.unlocked locked

/-- The snapshot that a response leaves a client with: the one that comes, or else the current one. -/
def subject (current : Option Snapshot) : Except ServiceError Snapshot → Option Snapshot
  | .ok s => some s
  | .error (.recoverable _ _ replacement) => replacement.or current
  | .error (.unrecoverable _ _) => none

/-- A response makes the cancel that waits moot, or sends it with the snapshot it leaves and does
nothing else. -/
theorem Reaction.answer_of_pending {result : Except ServiceError Snapshot}
    {r : Except ClientError (Option Outcome)} {own : List Effect}
    (reaction : Reaction ch o (.response result) r o' own) (running : o.phase = .running)
    (waits : o.pendingCancel = true) :
    ((Stimulus.response result).withdraws o o' = true ∧ requestsOf own = []) ∨
      ∃ s, subject o.current result = some s ∧
        own = o.sendEffects (.continue (Act.outgoing s) .cancel none) ∧
        (Stimulus.response result).offspring o = [] := by
  cases reaction with
  | @received s _ _ received =>
    cases received with
    | closed ended => rw [running] at ended; cases ended
    | cancelled _ _ ended =>
      refine .inr ⟨s, rfl, rfl, ?_⟩
      show o.offspring s = []
      rw [ClientState.offspring, waits, ended, running]
      rfl
    | concluded _ moot conclusion =>
      refine .inl ⟨?_, ?_⟩
      · show (o.pendingCancel && o'.phase.isTerminal) = true
        rw [waits, conclusion.account.2.2 (moot waits)]
        rfl
      · rw [requestsOf_append, requestsOf_callEffects]
        cases conclusion with
        | finished => exact requestsOf_endEffects ..
        | idleStart ended => rw [moot waits] at ended; cases ended
        | continued ended => rw [moot waits] at ended; cases ended
        | shown ended => rw [moot waits] at ended; cases ended
  | @rejected e _ _ rejected =>
    cases rejected with
    | closed _ ended => rw [running] at ended; cases ended
    | failed message cause =>
      refine .inl ⟨?_, ?_⟩
      · show (o.pendingCancel && true) = true
        rw [waits]
        rfl
      · rw [requestsOf_append, requestsOf_callEffects, requestsOf_emitted]
        rfl
    | cancelled message fieldErrors replacement _ _ s subject =>
      exact .inr ⟨s, subject, rfl, rfl⟩
    | withdrawn message fieldErrors _ none =>
      refine .inl ⟨?_, requestsOf_callEffects ..⟩
      show (o.pendingCancel && (_ || o.current.isNone)) = true
      rw [waits, none, Option.isNone_none, Bool.or_true]
      rfl
    | finished _ _ _ _ settled => rw [waits] at settled; cases settled
    | replaced _ _ _ _ settled => rw [waits] at settled; cases settled
    | rejected _ _ _ settled => rw [waits] at settled; cases settled

/-- A cancel that is deferred waits. -/
theorem Reaction.pending_of_deferred {i : Stimulus} {r : Except ClientError (Option Outcome)}
    {own : List Effect} (reaction : Reaction ch o i r o' own) (deferred : isDeferred r = true) :
    o'.pendingCancel = true := by
  have not_resumed {o o' : ClientState V} {x : Outcome} {effects : List Effect}
      (h : Resumed o x o' effects) : isDeferred (.ok (some x)) = false := by
    cases h <;> rfl
  cases reaction with
  | deferred => rfl
  | acceptedLocked => rfl
  | declinedResumed _ _ _ resumed => rw [not_resumed resumed] at deferred; cases deferred
  | resumed resumed => rw [not_resumed resumed] at deferred; cases deferred
  | _ => cases deferred

/-- A cancel goes out at once only from a step that is cancelled without a question. -/
theorem Reaction.immediate_of_sent {r : Except ClientError (Option Outcome)} {own : List Effect}
    (reaction : Reaction ch o (.action .cancel) r o' own) (sent : isSent r = true) :
    ∃ s, o.current = some s ∧ s.immediateInteraction = true := by
  cases reaction with
  | cancelled _ _ _ s current immediate => exact ⟨s, current, immediate⟩
  | navigated _ navigates => cases navigates
  | _ => cases sent

end Account

/-! ## Whole runs -/

section Runs

variable [ProcessView V] {ch : Channels} {H : List (Moment V)} {c : Client V}
  {waiting : List Request}

/-- Counting in a single moment. -/
theorem countP_singleton_eq_toNat {α : Type} (p : α → Bool) (x : α) :
    [x].countP p = (p x).toNat := by
  rw [List.countP_singleton]
  cases p x <;> rfl

/-- The account of a run. -/
theorem ClientRun.account (h : ch.dispatchOpen = true) (run : ClientRun ch H c waiting) :
    H.countP Moment.isIntent =
      cancelCount (requestsOf (ownLog H)) + c.pendingCancel.toNat + H.countP Moment.isMoot := by
  -- a moment adds to each side of the account what it tells about itself
  have moment {H : List (Moment V)} {log : List Effect} {waiting : List Request}
      {o o' : ClientState V} {m : Moment V} {i : Stimulus}
      {r : Except ClientError (Option Outcome)} {own : List Effect}
      (st : Standing log o waiting) (answers : ∀ result, i = .response result → o.phase = .running)
      (ih : H.countP Moment.isIntent =
        cancelCount (requestsOf (ownLog H)) + o.pendingCancel.toNat + H.countP Moment.isMoot)
      (shows : m.Shows o i r o' own) (reaction : Reaction ch o i r o' own) :
      (H ++ [m]).countP Moment.isIntent =
        cancelCount (requestsOf (ownLog (H ++ [m]))) + o'.pendingCancel.toNat +
          (H ++ [m]).countP Moment.isMoot := by
    have hm := reaction.account st answers
    have hintent : [m].countP Moment.isIntent = (i.cancels && (isSent r || isDeferred r)).toNat := by
      rw [countP_singleton_eq_toNat, Moment.isIntent, shows.stimulus, shows.result]
    have hmoot : [m].countP Moment.isMoot = (i.withdraws o o').toNat := by
      rw [countP_singleton_eq_toNat, Moment.isMoot, shows.stimulus, shows.before, shows.after]
    have hcount : cancelCount (requestsOf (ownLog (H ++ [m]))) =
        cancelCount (requestsOf (ownLog H)) + cancelCount (requestsOf own) := by
      rw [ownLog_append, ownLog_singleton, requestsOf_append, shows.own]
      exact List.countP_append
    rw [List.countP_append, List.countP_append, hintent, hmoot, hcount]
    omega
  refine (run.standing_and h (P := fun H o _ => H.countP Moment.isIntent =
    cancelCount (requestsOf (ownLog H)) + o.pendingCancel.toNat + H.countP Moment.isMoot)
    ?_ ?_ ?_).2
  · intro id parent paused view
    rfl
  · intro H o o' waiting m a r own st ih shows reaction
    exact moment st (fun _ h => by cases h) ih shows reaction
  · intro H o o' request m result r own w ih shows reaction
    exact moment (.waits w) (fun _ _ => w.running) ih shows reaction

/-- A cancel that was deferred waits as long as no request goes out and it does not become moot. -/
theorem ClientRun.pending_of_deferred (h : ch.dispatchOpen = true) (run : ClientRun ch H c waiting)
    {A B : List (Moment V)} {m : Moment V} (hH : H = A ++ m :: B)
    (deferred : isDeferred m.turn.result = true)
    (quiet : ∀ b ∈ B, b.requests = [] ∧ b.isMoot = false) : c.pendingCancel = true := by
  -- the cancel was deferred in the last moment, or waited already and goes on waiting
  have last {H : List (Moment V)} {o o' : ClientState V} {k : Moment V} {i : Stimulus}
      {r : Except ClientError (Option Outcome)} {own : List Effect} (shows : k.Shows o i r o' own)
      (reaction : Reaction ch o i r o' own)
      (ih : ∀ A m B, H = A ++ m :: B → isDeferred m.turn.result = true →
        (∀ b ∈ B, b.requests = [] ∧ b.isMoot = false) → o.pendingCancel = true)
      (keeps : o.pendingCancel = true → k.requests = [] → k.isMoot = false →
        o'.pendingCancel = true) :
      ∀ A m B, H ++ [k] = A ++ m :: B → isDeferred m.turn.result = true →
        (∀ b ∈ B, b.requests = [] ∧ b.isMoot = false) → o'.pendingCancel = true := by
    intro A m B hsplit deferred quiet
    rcases split_concat hsplit with ⟨-, -, rfl⟩ | ⟨B', rfl, hH⟩
    · rw [shows.result] at deferred
      exact reaction.pending_of_deferred deferred
    · obtain ⟨hnone, hmoot⟩ := quiet k (by simp)
      exact keeps (ih A m B' hH deferred fun b hb => quiet b (by simp [hb])) hnone hmoot
  refine (run.standing_and h (P := fun H o _ => ∀ A m B, H = A ++ m :: B →
    isDeferred m.turn.result = true → (∀ b ∈ B, b.requests = [] ∧ b.isMoot = false) →
    o.pendingCancel = true) ?_ ?_ ?_).2 A m B hH deferred quiet
  · intro id parent paused view A m B hsplit
    simp at hsplit
  · intro H o o' waiting m a r own st ih shows reaction
    apply last shows reaction ih
    intro waits _ _
    have w : Waiting (ownLog H) o waiting := by
      cases st with
      | waits w => exact w
      | rests r => rw [r.undeferred] at waits; cases waits
    exact (reaction.act_of_waiting w).2 waits
  · intro H o o' request m result r own w ih shows reaction
    apply last shows reaction ih
    intro waits hnone hmoot
    rw [Moment.isMoot, shows.stimulus, shows.before, shows.after] at hmoot
    rcases reaction.answer_of_pending w.running waits with ⟨moot, -⟩ | ⟨s, -, hown, -⟩
    · rw [moot] at hmoot
      cases hmoot
    · rw [Moment.requests, shows.own, hown] at hnone
      cases hnone

/-- While a cancel waits, only a response sends a request: the cancel, with the snapshot that the
response leaves; and the client does nothing else with that snapshot. -/
theorem ClientRun.cancel_of_pending (h : ch.dispatchOpen = true) (run : ClientRun ch H c waiting)
    {i : Stimulus} (answers : ∀ result, i = .response result → waiting ≠ [])
    (waits : c.pendingCancel = true) (sends : (c.face ch i).requests ≠ []) :
    ∃ result s, i = .response result ∧ subject c.current result = some s ∧
      (c.face ch i).turn.effects = c.sendEffects (.continue (Act.outgoing s) .cancel none) ∧
      (c.face ch i).turn.client.children = c.children := by
  have w : Waiting (ownLog H) c.toClientState waiting := by
    cases run.standing h with
    | waits w => exact w
    | rests r => rw [r.undeferred] at waits; cases waits
  obtain ⟨r, o', own, reaction, shows, -⟩ := c.face_shows h i
  rw [Moment.requests, shows.own] at sends
  cases i with
  | action a =>
    rw [(reaction.act_of_waiting w).1] at sends
    exact absurd rfl sends
  | response result =>
    rcases reaction.answer_of_pending w.running waits with ⟨-, hnone⟩ | ⟨s, hs, hown, alone⟩
    · exact absurd hnone sends
    · obtain ⟨heffects, hkids⟩ := c.face_alone h _ alone
      rw [shows.own, hown] at heffects
      exact ⟨result, s, rfl, hs, heffects, hkids⟩

/-- Cancel intents are neither lost nor doubled. At every point of a run of a client:

* each intent was sent as a cancel, or waits, or was lost to a response that made it moot;
* after an intent that was deferred, the first request that goes out is the cancel, unless a response
  has made it moot before;
* the snapshot with which a cancel that waited goes out is neither shown nor told nor used to begin
  with children: the request, and the call that locks the input, is all that happens;
* a cancel goes out at once only from a step that is cancelled without a question. -/
theorem cancels_accounted (h : ch.dispatchOpen = true) (run : ClientRun ch H c waiting) :
    (H.countP Moment.isIntent =
      cancelCount (requestsOf (ownLog H)) + c.pendingCancel.toNat + H.countP Moment.isMoot) ∧
    (∀ A m B n C, H = A ++ m :: (B ++ n :: C) → isDeferred m.turn.result = true →
      (∀ b ∈ B, b.requests = [] ∧ b.isMoot = false) → n.requests ≠ [] →
      ∃ s, n.requests = [.continue (Act.outgoing s) .cancel none]) ∧
    (∀ n ∈ H, n.before.pendingCancel = true → n.requests ≠ [] →
      ∃ result s, n.stimulus = .response result ∧ subject n.before.current result = some s ∧
        n.turn.effects =
          .dispatch ⟨n.before.id, .continue (Act.outgoing s) .cancel none⟩ ::
            callEffects n.before.id n.before.view [.setBusy true] ∧
        n.turn.client.children = n.before.children) ∧
    (∀ n ∈ H, n.stimulus = .action .cancel → isSent n.turn.result = true →
      ∃ s, n.before.current = some s ∧ s.immediateInteraction = true) := by
  refine ⟨run.account h, ?_, ?_, ?_⟩
  · intro A m B n C hH deferred quiet sends
    rw [hH, ← List.cons_append, ← List.append_assoc] at run
    obtain ⟨c, waiting, i, earlier, rfl, answers⟩ := run.moment
    have waits := earlier.pending_of_deferred h rfl deferred quiet
    obtain ⟨result, s, -, -, heffects, -⟩ := earlier.cancel_of_pending h answers waits sends
    refine ⟨s, ?_⟩
    show requestsOf (about c.id (c.face ch i).turn.effects) = _
    rw [heffects, about_eq_self fun e he => client_of_mem_sendEffects he]
    rfl
  · intro n hn waits sends
    obtain ⟨A, C, rfl⟩ := List.append_of_mem hn
    obtain ⟨c, waiting, i, earlier, rfl, answers⟩ := run.moment
    exact earlier.cancel_of_pending h answers waits sends
  · intro n hn hcancel sent
    obtain ⟨A, C, rfl⟩ := List.append_of_mem hn
    obtain ⟨c, waiting, i, -, rfl, -⟩ := run.moment
    obtain ⟨r, o', own, reaction, shows, -⟩ := c.face_shows h i
    rw [show i = .action .cancel from hcancel] at reaction shows
    rw [show i = .action .cancel from hcancel, shows.result] at sent
    exact reaction.immediate_of_sent sent

end Runs

/-- An order is started. -/
def hastyStart : Moment Recording :=
  (Client.idle (.root 0) Recording.empty).face .open
    (.action (.start ⟨"Order", none, "en-US", .none⟩))

/-- It is cancelled before its first step comes. -/
def hastyCancel : Moment Recording := hastyStart.turn.client.face .open (.action .cancel)

/-- The first step comes. -/
def hastyAnswer : Moment Recording :=
  hastyCancel.turn.client.face .open (.response (.ok (Snapshot.ofStep .nil "Order" "Address")))

/-- A cancel that is deferred goes out with the first step. -/
theorem cancels_accounted_hasty :
    ∃ (H : List (Moment Recording)) (c : Client Recording) (waiting : List Request),
      ClientRun .open H c waiting ∧ H.countP Moment.isIntent = 1 ∧
      cancelCount (requestsOf (ownLog H)) + c.pendingCancel.toNat + H.countP Moment.isMoot = 1 ∧
      ∃ s, hastyAnswer.requests = [.continue (Act.outgoing s) .cancel none] := by
  have run : ClientRun .open [hastyStart, hastyCancel, hastyAnswer] hastyAnswer.turn.client
      hastyAnswer.requests :=
    @ClientRun.answer Recording _ .open [hastyStart, hastyCancel] hastyCancel.turn.client [] [] _
      (((ClientRun.new (.root 0) none false Recording.empty).act _).act .cancel) _
  obtain ⟨account, next, -⟩ := cancels_accounted rfl run
  exact ⟨_, _, _, run, rfl, account.symm, next [hastyStart] hastyCancel [] hastyAnswer [] rfl rfl
    (by simp) (List.cons_ne_nil _ _)⟩

end Stepwise
