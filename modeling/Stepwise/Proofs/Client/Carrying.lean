/-
# What requests carry

A request that waits was sent from the snapshot that its client still has: while the request is under
way, nothing replaces the snapshot. Only a request that starts a process waits without one.

* `Matches`, `Carries` : the requests that wait match the snapshot of their client;
* `ClientRun.carries` : this is so at every point of a run.
-/
import Stepwise.Proofs.Client.Standing

namespace Stepwise

variable {V : Type}

/-- The request was sent from the snapshot that the client has, or starts a process while there is
none. The way back is only asked for if the snapshot offers it. -/
inductive Matches (o : ClientState V) : Request → Prop where
  | start (d : Descriptor) (fresh : o.current = none) : Matches o (.start d)
  | «continue» (t : Snapshot) (mode : Mode) (event : Option Interaction) {s : Snapshot}
      (current : o.current = some s) (hid : t.id = s.id)
      (back : mode = .rollback → s.canRollback = true) : Matches o (.continue t mode event)

/-- The requests that wait match the snapshot, and only without one is the start awaited. -/
structure Carries (o : ClientState V) (waiting : List Request) : Prop where
  matching : ∀ r ∈ waiting, Matches o r
  begins : o.awaitingStart = true → o.current = none

/-- Requests match as long as the snapshot is the same. -/
theorem Matches.of_current {o o' : ClientState V} {r : Request} (h : Matches o r)
    (same : o'.current = o.current) : Matches o' r := by
  cases h with
  | start d fresh => exact .start d (same.trans fresh)
  | «continue» t mode event current hid back =>
    exact .continue t mode event (same.trans current) hid back

namespace Carries

variable {o o' : ClientState V} {waiting : List Request}

theorem of_current (c : Carries o waiting) (same : o'.current = o.current)
    (start : o'.awaitingStart = o.awaitingStart) : Carries o' waiting :=
  ⟨fun r hr => (c.matching r hr).of_current same, fun h => same.trans (c.begins (start ▸ h))⟩

/-- Nothing waits, and no start is awaited. -/
theorem of_nil (answered : o.awaitingStart = false) : Carries o [] :=
  ⟨nofun, fun h => by rw [answered] at h; cases h⟩

/-- A client with a snapshot awaits no start. -/
theorem answered (c : Carries o waiting) {s : Snapshot} (current : o.current = some s) :
    o.awaitingStart = false := by
  apply Bool.eq_false_iff.2
  intro h
  rw [c.begins h] at current
  cases current

variable [ProcessView V]

/-- A snapshot that is sent on is the one that the client has then. -/
theorem of_proceeded {s : Snapshot} {mode : Mode} (answered : o.awaitingStart = false)
    (back : mode = .rollback → s.canRollback = true) (event : Option Interaction) :
    Carries (o.proceeded s mode) [.continue (Act.outgoing s) mode event] := by
  constructor
  · intro r hr
    obtain rfl := List.mem_singleton.1 hr
    exact .continue _ mode event (s := s.clearModified) rfl rfl back
  · intro h
    rw [show (o.proceeded s mode).awaitingStart = o.awaitingStart from rfl, answered] at h
    cases h

theorem of_concluded {ch : Channels} {starting previousFinal : Bool} {s : Snapshot}
    {effects : List Effect} (conclusion : Concluded ch starting previousFinal s o o' effects)
    (answered : o.awaitingStart = false) : Carries o' (requestsOf effects) := by
  cases conclusion with
  | finished => rw [requestsOf_endEffects]; exact .of_nil answered
  | idleStart => rw [requestsOf_endEffects]; exact .of_nil answered
  | continued =>
    exact of_proceeded (o := { o with phase := .interacting }) answered (by nofun) none
  | shown =>
    rw [requestsOf_append, requestsOf_callEffects, requestsOf_emitted]
    exact .of_nil answered

theorem of_received {ch : Channels} {s : Snapshot} {effects : List Effect}
    (received : Received ch s o o' effects) (going : o.phase.isTerminal = false) :
    Carries o' (requestsOf effects) := by
  cases received with
  | closed ended => rw [going] at ended; cases ended
  | cancelled =>
    exact of_proceeded (o := { o.answered with pendingCancel := false }) rfl (by nofun) none
  | concluded _ _ conclusion =>
    rw [requestsOf_append, requestsOf_callEffects, List.nil_append]
    exact of_concluded conclusion rfl

theorem of_rejected {ch : Channels} {e : ServiceError} {effects : List Effect}
    (rejected : Rejected ch o e o' effects) (going : o.phase.isTerminal = false) :
    Carries o' (requestsOf effects) := by
  cases rejected with
  | closed _ ended => rw [going] at ended; cases ended
  | failed =>
    rw [requestsOf_append, requestsOf_callEffects, requestsOf_emitted]
    exact .of_nil rfl
  | cancelled =>
    exact of_proceeded (o := { o.answered with pendingCancel := false, cancelSent := false }) rfl
      (by nofun) none
  | withdrawn => rw [requestsOf_callEffects]; exact .of_nil rfl
  | finished =>
    rw [requestsOf_append, requestsOf_callEffects, requestsOf_endEffects]
    exact .of_nil rfl
  | replaced =>
    rw [requestsOf_append, requestsOf_append, requestsOf_callEffects, requestsOf_callEffects,
      requestsOf_emitted]
    exact .of_nil rfl
  | rejected =>
    rw [requestsOf_append, requestsOf_callEffects, requestsOf_callEffects]
    exact .of_nil rfl

theorem of_resumed {log : List Effect} {x : Outcome} {effects : List Effect}
    (resumed : Resumed o x o' effects) (st : Standing log o waiting) (c : Carries o waiting) :
    Carries o' (waiting ++ requestsOf effects) := by
  cases resumed with
  | stayed =>
    rw [requestsOf_nil, List.append_nil]
    exact c.of_current rfl rfl
  | continued offers _ s current =>
    rw [(st.rests_of_unlocked offers.unlocked).none, List.nil_append]
    exact of_proceeded (o := { o with autoContinuePaused := false }) (c.answered current) (by nofun) none

/-- Whatever its user does, the requests of a client match its snapshot. -/
theorem act {ch : Channels} {log : List Effect} {a : UserAction}
    {r : Except ClientError (Option Outcome)} {own : List Effect}
    (reaction : Reaction ch o (.action a) r o' own) (st : Standing log o waiting)
    (c : Carries o waiting) : Carries o' (waiting ++ requestsOf own) := by
  have silent (c : Carries o' waiting) : Carries o' (waiting ++ requestsOf []) := by
    rw [requestsOf_nil, List.append_nil]
    exact c
  cases reaction with
  | refused => exact silent c
  | ignored => exact silent c
  | started d idle =>
    cases st with
    | waits w => rw [w.running] at idle; cases idle
    | rests rest =>
      rw [rest.none, requestsOf_append, requestsOf_emitted, requestsOf_sendEffects]
      refine ⟨fun r hr => ?_, fun _ => rest.begun idle⟩
      obtain rfl := List.mem_singleton.1 hr
      exact .start d (rest.begun idle)
  | attached s idle received =>
    cases st with
    | waits w => rw [w.running] at idle; cases idle
    | rests rest =>
      rw [rest.none, requestsOf_append, requestsOf_emitted]
      exact of_received received rfl
  | edited _ _ _ unlocked s t current =>
    rw [(st.rests_of_unlocked unlocked).none, requestsOf_nil]
    exact .of_nil (c.answered current)
  | @navigated _ s mode event offers navigates =>
    rw [(st.rests_of_unlocked offers.unlocked).none]
    cases navigates with
    | submitted _ _ s t current => exact of_proceeded (c.answered current) (by nofun) _
    | advanced _ current => exact of_proceeded (c.answered current) (by nofun) _
    | rolledBack _ current offered =>
      exact of_proceeded (c.answered current) (fun _ => offered) _
    | reloaded _ current => exact of_proceeded (c.answered current) (by nofun) _
  | deferred => exact silent (c.of_current rfl rfl)
  | asked =>
    rw [requestsOf_callEffects, List.append_nil]
    exact c.of_current rfl rfl
  | cancelled _ unlocked _ s current =>
    rw [(st.rests_of_unlocked unlocked).none]
    exact of_proceeded (c.answered current) (by nofun) none
  | answerLost => exact silent (c.of_current rfl rfl)
  | accepted asked _ _ s current =>
    rw [(st.rests_of_asked asked).none]
    exact of_proceeded (o := o.settled) (c.answered current) (by nofun) none
  | acceptedLocked => exact silent (c.of_current rfl rfl)
  | declined => exact silent (c.of_current rfl rfl)
  | declinedResumed asked _ _ resumed =>
    exact of_resumed resumed (.rests (st.rests_of_asked asked).settled) (c.of_current rfl rfl)
  | paused => exact silent (c.of_current rfl rfl)
  | resumed resumed => exact of_resumed resumed st c

end Carries

variable [ProcessView V]

/-- At every point of its run the requests of a client that wait match its snapshot. -/
theorem ClientRun.carries {ch : Channels} (h : ch.dispatchOpen = true) {H : List (Moment V)}
    {c : Client V} {waiting : List Request} (run : ClientRun ch H c waiting) :
    Carries c.toClientState waiting := by
  refine (run.standing_and h (P := fun _ o waiting => Carries o waiting) ?_ ?_ ?_).2
  · exact fun id parent paused view => .of_nil rfl
  · exact fun st carries _ reaction => carries.act reaction st
  · intro H o o' request m result r own w _ _ reaction
    have going : o.phase.isTerminal = false := by
      rw [w.running]
      rfl
    cases reaction with
    | received received => exact .of_received received going
    | rejected rejected => exact .of_rejected rejected going

end Stepwise
