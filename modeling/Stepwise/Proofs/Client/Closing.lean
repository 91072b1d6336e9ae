/-
# Requests for processes that are over

A snapshot that is reported as finished closes the client, and nothing is sent for it. This is so for
every way in which it can come but one: as the replacement of a rejected request, while a cancel waits.
Then the cancel goes out for a process that is over, and the client goes on with its snapshot, until
another one comes.

* `Stimulus.Slips` : the one way;
* `Handles`, `Reaction.handles` : what becomes of the snapshots that come and of what is sent, moment by
  moment;
* `ClientRun.overdue_iff` : when a client goes on with a snapshot of a process that is over;
* `sent_finished_iff` : when a request carries one.
-/
import Stepwise.Proofs.Client.Cancelling
import Stepwise.Proofs.Client.Display
import Stepwise.Proofs.Client.Lifecycle

namespace Stepwise

variable {V : Type}

/-- The client holds a snapshot of a process that is over. -/
def ClientState.overdue (o : ClientState V) : Bool := o.current.any (·.finished)

/-- A rejected request is replaced by a snapshot of a process that is over, while a cancel waits. -/
def Stimulus.Slips (i : Stimulus) (o : ClientState V) (s : Snapshot) : Prop :=
  (∃ message fieldErrors, i = .response (.error (.recoverable message fieldErrors (some s)))) ∧
    s.finished = true ∧ o.pendingCancel = true

/-- Such a replacement comes. -/
def Moment.Slips (m : Moment V) : Prop := ∃ s, m.stimulus.Slips m.before.toClientState s

/-- The snapshot that came last was such a replacement. -/
def Slipped (H : List (Moment V)) : Prop :=
  ∃ A m C, H = A ++ m :: C ∧ m.Slips ∧ ∀ n ∈ C, n.brought = none

theorem Stimulus.Slips.brings {i : Stimulus} {o : ClientState V} {s : Snapshot}
    (slips : i.Slips o s) (r : Except ClientError (Option Outcome)) : i.brings r = some s := by
  obtain ⟨⟨message, fieldErrors, rfl⟩, -⟩ := slips
  rfl

/-- What came last after one more moment. -/
theorem slipped_concat (H : List (Moment V)) (m : Moment V) :
    Slipped (H ++ [m]) ↔ m.Slips ∨ m.brought = none ∧ Slipped H := by
  -- a replacement is undone by what comes after it
  have split (H : List (Moment V)) :
      Slipped H ↔ Since (fun _ n => n.Slips) (fun n => n.brought ≠ none) H := by
    simp only [Slipped, Since, ne_eq, Classical.not_not]
  rw [split, split, since_concat, Classical.not_not]

/-! ## One moment -/

/-- The requests carry on a process that is over, or they carry on one that is not. -/
def Carry (requests : List Request) (done : Bool) : Prop :=
  ∀ s mode event, .continue s mode event ∈ requests → s.finished = done

theorem carry_nil (done : Bool) : Carry [] done := nofun

/-- A request for the next step carries the snapshot that it was made from. -/
theorem carry_outgoing (s : Snapshot) (mode : Mode) (event : Option Interaction) :
    Carry [.continue (Act.outgoing s) mode event] s.finished := by
  intro t mode' event' hmem
  cases List.mem_singleton.1 hmem
  rfl

/-- What becomes of a snapshot that comes, and of what is sent. -/
inductive Handles (i : Stimulus) (r : Except ClientError (Option Outcome)) (o o' : ClientState V)
    (requests : List Request) : Prop where
  /-- The process was over already. -/
  | closed (was : o.phase.isTerminal = true) (done : o'.phase.isTerminal = true)
      (none : requests = [])
  /-- The process ends; if its last snapshot comes, with this one. -/
  | ended (done : o'.phase.isTerminal = true) (none : requests = [])
      (last : ∀ s, i.brings r = some s → s.finished = true →
        o'.phase = .finished ∧ o'.current = some s ∧ o'.pendingCancel = false)
  /-- No snapshot comes, and the client goes on with its own. -/
  | kept (none : i.brings r = none) (going : o'.phase.isTerminal = o.phase.isTerminal)
      (same : o'.overdue = o.overdue) (carry : Carry requests o.overdue)
  | replaced (s : Snapshot) (brings : i.brings r = some s) (unfinished : s.finished = false)
      (going : o'.phase.isTerminal = false) (fresh : o'.overdue = false)
      (carry : Carry requests false)
  | slipped (s : Snapshot) (slips : i.Slips o s) (going : o'.phase.isTerminal = false)
      (overdue : o'.overdue = true)
      (sent : requests = [.continue (Act.outgoing s) .cancel none])

theorem Snapshot.finished_editAll {edits : List (String × Value)} {s t : Snapshot}
    (h : s.editAll edits = some t) : t.finished = s.finished := by
  induction edits generalizing s with
  | nil => rw [Option.some.inj h]
  | cons e rest ih =>
    obtain ⟨u, hu, hrest⟩ := Option.bind_eq_some_iff.1 h
    obtain ⟨ps, -, rfl⟩ := Option.map_eq_some_iff.1 hu
    exact (ih hrest).trans rfl

variable [ProcessView V] {ch : Channels} {o o' : ClientState V} {i : Stimulus}
  {r : Except ClientError (Option Outcome)}

theorem Concluded.handles {starting previousFinal : Bool} {s : Snapshot} {effects : List Effect}
    (conclusion : Concluded ch starting previousFinal s o o' effects)
    (undeferred : o.pendingCancel = false) (brings : i.brings r = some s) (first : ClientState V) :
    Handles i r first o' (requestsOf effects) := by
  cases conclusion with
  | finished ended =>
    refine .ended rfl (requestsOf_endEffects ..) fun t ht _ => ?_
    obtain rfl := Option.some.inj (brings.symm.trans ht)
    exact ⟨rfl, rfl, undeferred⟩
  | idleStart unfinished =>
    refine .ended rfl (requestsOf_endEffects ..) fun t ht ended => ?_
    obtain rfl := Option.some.inj (brings.symm.trans ht)
    rw [unfinished] at ended
    cases ended
  | continued unfinished =>
    refine .replaced s brings unfinished rfl unfinished ?_
    rw [← unfinished]
    exact carry_outgoing s .execute none
  | shown unfinished =>
    refine .replaced s brings unfinished rfl unfinished ?_
    rw [requestsOf_append, requestsOf_callEffects, requestsOf_emitted]
    exact carry_nil false

theorem Received.handles {s : Snapshot} {effects : List Effect}
    (received : Received ch s o o' effects) (going : o.phase.isTerminal = false)
    (brings : i.brings r = some s) (first : ClientState V) :
    Handles i r first o' (requestsOf effects) := by
  cases received with
  | closed ended => rw [going] at ended; cases ended
  | cancelled _ _ unfinished =>
    have going' := (ClientState.isTerminal_proceeded { o.answered with pendingCancel := false } s
      .cancel).trans going
    refine .replaced s brings unfinished going' unfinished ?_
    rw [← unfinished]
    exact carry_outgoing s .cancel none
  | concluded _ _ conclusion =>
    rw [requestsOf_append, requestsOf_callEffects, List.nil_append]
    exact conclusion.handles rfl brings first

theorem Rejected.handles {e : ServiceError} {effects : List Effect}
    (rejected : Rejected ch o e o' effects) (r : Except ClientError (Option Outcome)) :
    Handles (.response (.error e)) r o o' (requestsOf effects) := by
  cases rejected with
  | closed _ ended => exact .closed ended ended rfl
  | failed =>
    refine .ended rfl ?_ nofun
    rw [requestsOf_append, requestsOf_callEffects, requestsOf_emitted]
    rfl
  | cancelled message fieldErrors replacement going waits s subject =>
    cases replacement with
    | none =>
      have current : o.current = some s := subject
      have overdue : o.overdue = s.finished := by
        rw [ClientState.overdue, current]
        rfl
      refine .kept rfl (ClientState.isTerminal_proceeded _ s .cancel) overdue.symm ?_
      rw [overdue]
      exact carry_outgoing s .cancel none
    | some t =>
      obtain rfl : t = s := Option.some.inj subject
      have going' := (ClientState.isTerminal_proceeded
        { o.answered with pendingCancel := false, cancelSent := false } t .cancel).trans going
      cases hfinished : t.finished with
      | false =>
        refine .replaced t rfl hfinished going' hfinished ?_
        rw [← hfinished]
        exact carry_outgoing t .cancel none
      | true =>
        exact .slipped t ⟨⟨message, fieldErrors, rfl⟩, hfinished, waits⟩ going' hfinished rfl
  | withdrawn message fieldErrors going =>
    refine .kept rfl going.symm rfl ?_
    rw [requestsOf_callEffects]
    exact carry_nil _
  | finished message fieldErrors s _ waits =>
    refine .ended rfl ?_ fun t ht _ => ?_
    · rw [requestsOf_append, requestsOf_callEffects, requestsOf_endEffects]
      rfl
    · obtain rfl : s = t := Option.some.inj ht
      exact ⟨rfl, rfl, waits⟩
  | replaced message fieldErrors s _ _ unfinished =>
    refine .replaced s rfl unfinished rfl unfinished ?_
    rw [requestsOf_append, requestsOf_append, requestsOf_callEffects, requestsOf_callEffects,
      requestsOf_emitted]
    exact carry_nil false
  | rejected message fieldErrors going =>
    refine .kept rfl going.symm rfl ?_
    rw [requestsOf_append, requestsOf_callEffects, requestsOf_callEffects]
    exact carry_nil _

/-- What becomes of a snapshot that comes, and of what is sent, whatever happens to a client. -/
theorem Reaction.handles {own : List Effect} (reaction : Reaction ch o i r o' own)
    (answers : ∀ result, i = .response result → o.phase = .running) :
    Handles i r o o' (requestsOf own) := by
  have overdue {s : Snapshot} (current : o.current = some s) : o.overdue = s.finished := by
    rw [ClientState.overdue, current]
    rfl
  have sent {a : UserAction} {x : Option Outcome} {s t : Snapshot} {mode : Mode}
      {event : Option Interaction} (none : (Stimulus.action a).brings (.ok x) = none)
      (current : o.current = some s) (same : t.finished = s.finished) :
      Handles (.action a) (.ok x) o (o.proceeded t mode)
        (requestsOf (o.sendEffects (.continue (Act.outgoing t) mode event))) := by
    have hcarry := carry_outgoing t mode event
    rw [same, ← overdue current] at hcarry
    exact .kept none (ClientState.isTerminal_proceeded o t mode)
      (same.trans (overdue current).symm) hcarry
  have resumed {a : UserAction} {x : Outcome} {o₁ : ClientState V} {effects : List Effect}
      (resumed : Resumed o₁ x o' effects) (none : (Stimulus.action a).brings (.ok (some x)) = none)
      (phase : o₁.phase = o.phase) (current : o₁.current = o.current) :
      Handles (.action a) (.ok (some x)) o o' (requestsOf effects) := by
    cases resumed with
    | stayed =>
      refine .kept none (congrArg Phase.isTerminal phase) ?_ (carry_nil _)
      exact congrArg (Option.any (·.finished)) current
    | continued _ _ s hs =>
      have hcarry := carry_outgoing s .execute .none
      rw [← overdue (current.symm.trans hs)] at hcarry
      refine .kept none ?_ (overdue (current.symm.trans hs)).symm hcarry
      exact (ClientState.isTerminal_proceeded _ s .execute).trans (congrArg Phase.isTerminal phase)
  cases reaction with
  | refused a e =>
    refine .kept ?_ rfl rfl (carry_nil _)
    cases a <;> rfl
  | ignored a =>
    refine .kept ?_ rfl rfl (carry_nil _)
    cases a <;> rfl
  | started d idle =>
    refine .kept rfl ?_ rfl ?_
    · rw [idle]
      rfl
    · rw [requestsOf_append, requestsOf_emitted, requestsOf_sendEffects]
      intro s mode event hmem
      cases List.mem_singleton.1 hmem
  | attached s _ received =>
    rw [requestsOf_append, requestsOf_emitted, List.nil_append]
    exact received.handles rfl rfl o
  | edited _ _ _ _ s t current edited =>
    refine .kept rfl rfl ?_ (carry_nil _)
    obtain ⟨ps, -, rfl⟩ := Option.map_eq_some_iff.1 edited
    exact (overdue current).symm
  | navigated _ navigates =>
    cases navigates with
    | submitted edits event s t current edited =>
      exact sent rfl current (Snapshot.finished_editAll edited)
    | advanced s current => exact sent rfl current rfl
    | rolledBack s current => exact sent rfl current rfl
    | reloaded s current => exact sent rfl current rfl
  | deferred => exact .kept rfl rfl rfl (carry_nil _)
  | asked =>
    refine .kept rfl rfl rfl ?_
    rw [requestsOf_callEffects]
    exact carry_nil _
  | cancelled _ _ _ s current => exact sent rfl current rfl
  | answerLost => exact .kept rfl rfl rfl (carry_nil _)
  | accepted _ _ _ s current =>
    have hcarry := carry_outgoing s .cancel .none
    rw [← overdue current] at hcarry
    exact .kept rfl (ClientState.isTerminal_proceeded _ s .cancel) (overdue current).symm hcarry
  | acceptedLocked => exact .kept rfl rfl rfl (carry_nil _)
  | declined => exact .kept rfl rfl rfl (carry_nil _)
  | declinedResumed _ _ _ h => exact resumed h rfl rfl rfl
  | paused => exact .kept rfl rfl rfl (carry_nil _)
  | resumed h => exact resumed h rfl rfl rfl
  | received received =>
    refine received.handles ?_ rfl o
    rw [answers _ rfl]
    rfl
  | rejected rejected => exact rejected.handles _

/-! ## What is sent, and what is not -/

section Sending

variable {requests : List Request} {s : Snapshot}

omit [ProcessView V] in
/-- A snapshot of a process that is over closes a client that has not ended, unless it slips through. -/
theorem Handles.closes (handles : Handles i r o o' requests) (brings : i.brings r = some s)
    (finished : s.finished = true) (going : o.phase.isTerminal = false)
    (apart : ¬ ∃ t, i.Slips o t) :
    o'.phase = .finished ∧ o'.current = some s ∧ requests = [] ∧ o'.pendingCancel = false := by
  cases handles with
  | closed was => rw [going] at was; cases was
  | ended _ none last =>
    obtain ⟨phase, current, moot⟩ := last s brings finished
    exact ⟨phase, current, none, moot⟩
  | kept none => rw [brings] at none; cases none
  | replaced t brings' unfinished =>
    obtain rfl := Option.some.inj (brings.symm.trans brings')
    rw [finished] at unfinished
    cases unfinished
  | slipped t slips => exact absurd ⟨t, slips⟩ apart

/-- A snapshot that slips through is sent on with a cancel. -/
theorem Reaction.of_slips {own : List Effect} (reaction : Reaction ch o i r o' own)
    (slips : i.Slips o s) (running : o.phase = .running) :
    o'.phase = .running ∧ requestsOf own = [.continue (Act.outgoing s) .cancel none] := by
  obtain ⟨⟨message, fieldErrors, rfl⟩, finished, pending⟩ := slips
  cases reaction with
  | rejected rejected =>
    cases rejected with
    | closed _ ended => rw [running] at ended; cases ended
    | cancelled _ _ _ _ _ t subject =>
      obtain rfl : s = t := Option.some.inj subject
      refine ⟨?_, rfl⟩
      show (if o.phase = .interacting then Phase.running else o.phase) = .running
      rw [running]
      rfl
    | finished _ _ _ _ waits => rw [pending] at waits; cases waits
    | replaced _ _ _ _ waits => rw [pending] at waits; cases waits

omit [ProcessView V] in
/-- Whoever sends a snapshot goes on, and with that snapshot. -/
theorem Handles.sends (handles : Handles i r o o' requests) (going : o.phase.isTerminal = false)
    {mode : Mode} {event : Option Interaction} (hmem : .continue s mode event ∈ requests) :
    o'.phase.isTerminal = false ∧ s.finished = o'.overdue := by
  cases handles with
  | closed _ _ none => rw [none] at hmem; cases hmem
  | ended _ none => rw [none] at hmem; cases hmem
  | kept _ same overdue carry =>
    exact ⟨same.trans going, (carry s mode event hmem).trans overdue.symm⟩
  | replaced t _ _ going' fresh carry =>
    exact ⟨going', (carry s mode event hmem).trans fresh.symm⟩
  | slipped t slips going' overdue sent =>
    rw [sent] at hmem
    cases List.mem_singleton.1 hmem
    exact ⟨going', slips.2.1.trans overdue.symm⟩

end Sending

/-! ## Runs -/

section Runs

variable {H : List (Moment V)} {c : Client V} {waiting : List Request}

omit [ProcessView V] in
/-- What came last, from one moment to the next. -/
theorem Handles.overdue_iff {m : Moment V} {own : List Effect} {requests : List Request}
    (handles : Handles i r o o' requests) (shows : m.Shows o i r o' own)
    (ih : o.phase.isTerminal = false → (o.overdue = true ↔ Slipped H))
    (going : o'.phase.isTerminal = false) : o'.overdue = true ↔ Slipped (H ++ [m]) := by
  have brought : m.brought = i.brings r := by
    rw [Moment.brought, shows.stimulus, shows.result]
  have slips : m.Slips ↔ ∃ s, i.Slips o s := by
    rw [Moment.Slips, shows.stimulus, shows.before]
  rw [slipped_concat, brought, slips]
  cases handles with
  | closed _ done => rw [going] at done; cases done
  | ended done => rw [going] at done; cases done
  | kept none same overdue =>
    rw [overdue, ih (same.symm.trans going)]
    constructor
    · exact fun slipped => .inr ⟨none, slipped⟩
    · rintro (⟨s, slips⟩ | ⟨-, slipped⟩)
      · rw [slips.brings] at none
        cases none
      · exact slipped
  | replaced s brings unfinished _ fresh =>
    rw [fresh]
    refine iff_of_false Bool.false_ne_true ?_
    rintro (⟨t, slips⟩ | ⟨none, -⟩)
    · obtain rfl := Option.some.inj (brings.symm.trans (slips.brings r))
      have finished := slips.2.1
      rw [unfinished] at finished
      cases finished
    · rw [brings] at none
      cases none
  | slipped s slips _ overdue => exact iff_of_true overdue (.inl ⟨s, slips⟩)

/-- A client that goes on does so with a snapshot of a process that is over exactly if this came as a
replacement while a cancel waited. -/
theorem ClientRun.overdue_iff (h : ch.dispatchOpen = true) (run : ClientRun ch H c waiting)
    (going : c.phase.isTerminal = false) : c.overdue = true ↔ Slipped H := by
  refine (run.standing_and h (P := fun H o _ =>
    o.phase.isTerminal = false → (o.overdue = true ↔ Slipped H)) ?_ ?_ ?_).2 going
  · intro id parent paused view _
    refine iff_of_false Bool.false_ne_true ?_
    rintro ⟨A, m, C, hH, -⟩
    simp at hH
  · intro H o o' waiting m a r own st ih shows reaction
    exact (reaction.handles nofun).overdue_iff shows ih
  · intro H o o' request m result r own w ih shows reaction
    exact (reaction.handles fun _ _ => w.running).overdue_iff shows ih

/-- Every moment of a run is a reaction of a client that has come so far. -/
theorem ClientRun.reaction (h : ch.dispatchOpen = true) {A C : List (Moment V)} {m : Moment V}
    (run : ClientRun ch (A ++ m :: C) c waiting) :
    ∃ (c : Client V) (waiting : List Request) (i : Stimulus)
      (r : Except ClientError (Option Outcome)) (o' : ClientState V) (own : List Effect),
      ClientRun ch A c waiting ∧ Reaction ch c.toClientState i r o' own ∧
      m.Shows c.toClientState i r o' own ∧
      ∀ result, i = .response result → c.phase = .running := by
  obtain ⟨c, waiting, i, earlier, rfl, answers⟩ := run.moment
  obtain ⟨r, o', own, reaction, shows, -⟩ := c.face_shows h i
  refine ⟨c, waiting, i, r, o', own, earlier, reaction, shows, fun result hi => ?_⟩
  cases earlier.standing h with
  | waits w => exact w.running
  | rests r => exact absurd r.none (answers result hi)

/-- What is sent for a process that is over. A snapshot reported as finished closes a client that has
not ended: nothing is sent, and a cancel that waits is moot. The exception is a replacement that
comes while a cancel waits: for it the cancel is sent. So a request carries a snapshot that is
reported as finished exactly if the snapshot that came last was such a replacement. -/
theorem sent_finished_iff (h : ch.dispatchOpen = true) (run : ClientRun ch H c waiting) :
    (∀ A m C, H = A ++ m :: C → ∀ s, m.brought = some s → s.finished = true →
      m.before.phase.isTerminal = false → ¬ m.Slips →
      m.turn.client.phase = .finished ∧ m.turn.client.current = some s ∧ m.requests = [] ∧
        m.turn.client.pendingCancel = false) ∧
    (∀ A m C, H = A ++ m :: C → ∀ s, m.stimulus.Slips m.before.toClientState s →
      m.turn.client.phase = .running ∧
        m.requests = [.continue (Act.outgoing s) .cancel none]) ∧
    (∀ A m C, H = A ++ m :: C → ∀ s mode event, .continue s mode event ∈ m.requests →
      (s.finished = true ↔ Slipped (A ++ [m]))) := by
  refine ⟨?_, ?_, ?_⟩
  · rintro A m C rfl s hbrought finished going apart
    obtain ⟨d, waiting, i, r, o', own, -, reaction, shows, answers⟩ := run.reaction h
    rw [Moment.brought, shows.stimulus, shows.result] at hbrought
    rw [shows.before] at going
    rw [Moment.Slips, shows.stimulus, shows.before] at apart
    rw [Moment.requests, shows.own, shows.after]
    exact (reaction.handles answers).closes hbrought finished going apart
  · rintro A m C rfl s slips
    obtain ⟨d, waiting, i, r, o', own, -, reaction, shows, answers⟩ := run.reaction h
    rw [shows.stimulus, shows.before] at slips
    obtain ⟨message, fieldErrors, hi⟩ := slips.1
    rw [Moment.requests, shows.own, shows.after]
    exact reaction.of_slips slips (answers _ hi)
  · rintro A m C rfl s mode event hmem
    obtain ⟨d, waiting, i, r, o', own, earlier, reaction, shows, answers⟩ := run.reaction h
    rw [Moment.requests, shows.own] at hmem
    -- a client that has ended sends nothing
    have going : d.phase.isTerminal = false := by
      refine Bool.eq_false_iff.2 fun ended => ?_
      rw [(reaction.absorbed ended).1] at hmem
      cases hmem
    have handles := reaction.handles answers
    obtain ⟨going', overdue⟩ := handles.sends going hmem
    rw [overdue]
    exact handles.overdue_iff shows (fun _ => earlier.overdue_iff h going) going'

/-- The order that was cancelled hastily is reported as done. -/
def hastyDone : Moment Recording :=
  hastyCancel.turn.client.face .open
    (.response (.ok { Snapshot.ofStep .nil "Order" "Address" with finished := true }))

/-- Its start is rejected instead, and replaced by a snapshot that is reported as done. -/
def hastyReplaced : Moment Recording :=
  hastyCancel.turn.client.face .open
    (.response (.error ((ServiceError.rejected "Too late").withReplacement
      { Snapshot.ofStep .nil "Order" "Address" with finished := true })))

theorem run_hasty (result : Except ServiceError Snapshot) :
    ClientRun .open [hastyStart, hastyCancel, hastyCancel.turn.client.face .open (.response result)]
      (hastyCancel.turn.client.face .open (.response result)).turn.client
      (hastyCancel.turn.client.face .open (.response result)).requests :=
  @ClientRun.answer Recording _ .open [hastyStart, hastyCancel] hastyCancel.turn.client [] [] _
    (((ClientRun.new (.root 0) none false Recording.empty).act _).act .cancel) result

/-- The order that is done is closed, and its cancel is moot. -/
theorem sent_finished_hasty :
    hastyDone.before.pendingCancel = true ∧ hastyDone.turn.client.phase = .finished ∧
      hastyDone.requests = [] ∧ hastyDone.turn.client.pendingCancel = false := by
  obtain ⟨closes, -⟩ := sent_finished_iff rfl (run_hasty (.ok
    { Snapshot.ofStep .nil "Order" "Address" with finished := true }))
  obtain ⟨phase, -, none, moot⟩ := closes [hastyStart, hastyCancel] hastyDone [] rfl _ rfl rfl rfl
    (by rintro ⟨s, ⟨message, fieldErrors, h⟩, -⟩; cases h)
  exact ⟨rfl, phase, none, moot⟩

/-- The order that was replaced goes on, and a cancel is sent for it though it is done. -/
theorem sent_finished_replaced :
    ∃ c waiting, ClientRun .open [hastyStart, hastyCancel, hastyReplaced] c waiting ∧
      c.phase = .running ∧ ∃ s, .continue s .cancel none ∈ hastyReplaced.requests ∧
        s.finished = true :=
  ⟨_, _, run_hasty _, rfl, _, List.mem_singleton_self _, rfl⟩

end Runs

end Stepwise
