/-
# A client waits or rests

At every point of its run a client stands in one of two ways. Either it waits: one request is under
way, the client is locked and running, its panel was told last to lock the input, and no question is
open. Or it rests: nothing is under way, no cancel is deferred, and what is asked or shown has a
snapshot to it.

* `Waiting`, `Resting`, `Standing` : the two ways;
* `Standing.act`, `Standing.answer` : every reaction leads from the one to the other or stays;
* `ClientRun.standing` : a client stands in one of the two ways at every point of a run.
-/
import Stepwise.Proofs.Client.History

namespace Stepwise

variable {V : Type}

/-- The client waits for the answer to its request. -/
structure Waiting (log : List Effect) (o : ClientState V) (waiting : List Request) : Prop where
  single : waiting.length = 1
  locked : o.locked = true
  running : o.phase = .running
  busy : lastBusy log = some true
  unasked : o.awaitingConfirmation = false

/-- The client has nothing under way. -/
structure Resting (log : List Effect) (o : ClientState V) (waiting : List Request) : Prop where
  none : waiting = []
  unlocked : o.locked = false
  calm : o.phase ≠ .running
  free : lastBusy log ≠ some true
  undeferred : o.pendingCancel = false
  asked : o.awaitingConfirmation = true → o.phase = .interacting
  shown : o.phase = .interacting → o.current.isSome = true
  begun : o.phase = .idle → o.current = .none

/-- The client waits, or it rests. -/
inductive Standing (log : List Effect) (o : ClientState V) (waiting : List Request) : Prop where
  | waits (w : Waiting log o waiting)
  | rests (r : Resting log o waiting)

/-- A client that rests in the middle of its process shows a step. -/
theorem Resting.interacting {log : List Effect} {o : ClientState V} {waiting : List Request}
    (r : Resting log o waiting) (going : o.phase.isTerminal = false) (begun : o.phase ≠ .idle) :
    o.phase = .interacting := by
  cases h : o.phase with
  | idle => exact absurd h begun
  | running => exact absurd h r.calm
  | interacting => rfl
  | finished => rw [h] at going; cases going
  | failed => rw [h] at going; cases going

/-- Nothing is asked before the process has begun. -/
theorem Resting.unasked {log : List Effect} {o : ClientState V} {waiting : List Request}
    (r : Resting log o waiting) (other : o.phase ≠ .interacting) :
    o.awaitingConfirmation = false :=
  Bool.eq_false_iff.2 fun asked => other (r.asked asked)

/-- A client that was answered rests as it did. -/
theorem Resting.settled {log : List Effect} {o : ClientState V} {waiting : List Request}
    (r : Resting log o waiting) : Resting log o.settled waiting :=
  ⟨r.none, r.unlocked, r.calm, r.free, r.undeferred, nofun, r.shown, r.begun⟩

namespace Standing

variable {log : List Effect} {o o' : ClientState V} {waiting : List Request}

/-- A client waits exactly if it is locked. -/
theorem waits_of_locked (st : Standing log o waiting) (locked : o.locked = true) :
    Waiting log o waiting := by
  cases st with
  | waits w => exact w
  | rests r => rw [r.unlocked] at locked; cases locked

theorem rests_of_unlocked (st : Standing log o waiting) (unlocked : o.locked = false) :
    Resting log o waiting := by
  cases st with
  | waits w => rw [w.locked] at unlocked; cases unlocked
  | rests r => exact r

/-- A client that waits shows no step. -/
theorem rests_of_shown (st : Standing log o waiting) (shown : o.phase = .interacting) :
    Resting log o waiting := by
  cases st with
  | waits w => rw [w.running] at shown; cases shown
  | rests r => exact r

/-- Only a client that rests has asked. -/
theorem rests_of_asked (st : Standing log o waiting) (asked : o.awaitingConfirmation = true) :
    Resting log o waiting := by
  cases st with
  | waits w => rw [w.unasked] at asked; cases asked
  | rests r => exact r

/-- A request waits only for a client that waits. -/
theorem waits_of_mem {older newer : List Request} {r : Request}
    (st : Standing log o (older ++ r :: newer)) :
    Waiting log o (older ++ r :: newer) ∧ older ++ newer = [] := by
  cases st with
  | waits w =>
    have hlen := w.single
    rw [List.length_append, List.length_cons] at hlen
    refine ⟨w, List.append_eq_nil_iff.2 ⟨?_, ?_⟩⟩
    · exact List.eq_nil_of_length_eq_zero (by omega)
    · exact List.eq_nil_of_length_eq_zero (by omega)
  | rests r =>
    have hnil := r.none
    simp at hnil

variable [ProcessView V]

/-- A client that sends a request waits. -/
theorem of_sent {r : Request} (going : o.phase = .interacting ∨ o.phase = .running)
    (unasked : o.awaitingConfirmation = false) (effects : List Effect)
    (hbusy : lastBusy effects = some true) : Standing (log ++ effects) o.sent [r] := by
  refine .waits ⟨rfl, rfl, ?_, ?_, unasked⟩
  · show (if o.phase = .interacting then Phase.running else o.phase) = .running
    rcases going with h | h
    · rw [if_pos h]
    · rw [h]
      rfl
  · rw [lastBusy_append, hbusy]
    rfl

/-- A client that sends a snapshot on waits. -/
theorem of_proceeded {s : Snapshot} {mode : Mode} {r : Request}
    (going : o.phase = .interacting ∨ o.phase = .running)
    (unasked : o.awaitingConfirmation = false) (effects : List Effect)
    (hbusy : lastBusy effects = some true) : Standing (log ++ effects) (o.proceeded s mode) [r] :=
  of_sent (o := { o with current := some s.clearModified
                         cancelSent := if mode = .cancel then true else o.cancelSent })
    going unasked effects hbusy

/-- Opening child panels leaves the input as it is. -/
theorem lastBusy_openChild (id : ClientId) (v : V) (ss : List Snapshot) (busy : Bool) :
    lastBusy (callEffects id v (.setBusy busy :: ss.map .openChild)) = some busy := by
  refine lastBusy_callEffects_cons (fun b hmem => ?_) busy id v
  obtain ⟨s, -, hs⟩ := List.mem_map.1 hmem
  cases hs

/-- Showing a snapshot, with messages or without, leaves the input as it is. -/
theorem lastBusy_drawCalls (id : ClientId) (v : V) (rendered : Option Layout) (s : Snapshot)
    (texts : List String) :
    lastBusy (callEffects id v (drawCalls v rendered s ++ texts.map .showMessage)) = none := by
  refine lastBusy_callEffects (fun busy hmem => ?_) id v
  rcases List.mem_append.1 hmem with hmem | hmem
  · rcases mem_drawCalls hmem with h | ⟨p, h⟩ <;> cases h
  · obtain ⟨text, -, h⟩ := List.mem_map.1 hmem
    cases h

/-- Showing messages leaves the input as it is. -/
theorem lastBusy_rejectionCalls (id : ClientId) (v v' : V) (message : String)
    (fieldErrors : KeyMap String) :
    lastBusy (callEffects id v (rejectionCalls v' message fieldErrors)) = none := by
  have complaint : ∀ {v : V} {busy : Bool} {entries : List (String × String)},
      .setBusy busy ∉ complaintCalls v entries := fun hmem => by
    rcases mem_complaintCalls hmem with ⟨field, text, h⟩ | ⟨text, h⟩ <;> cases h
  refine lastBusy_callEffects (fun busy hmem => ?_) id v
  unfold rejectionCalls at hmem
  split at hmem
  · rcases List.mem_cons.1 hmem with h | hmem
    · cases h
    · exact complaint hmem
  · exact complaint hmem

/-- After the conclusion of a snapshot the client waits or rests. -/
theorem of_concluded {ch : Channels} {starting previousFinal : Bool} {s : Snapshot}
    {effects : List Effect} (conclusion : Concluded ch starting previousFinal s o o' effects)
    (unlocked : o.locked = false) (free : lastBusy log = some false)
    (undeferred : o.pendingCancel = false) (unasked : o.awaitingConfirmation = false) :
    Standing (log ++ effects) o' (requestsOf effects) := by
  have ended : ∀ s : Snapshot, Standing (log ++ o.endEffects ch s previousFinal)
      (o.ended s previousFinal) (requestsOf (o.endEffects ch s previousFinal)) := fun s => by
    refine .rests ⟨requestsOf_endEffects .., unlocked, nofun, ?_, undeferred, fun h => ?_, nofun,
      nofun⟩
    · rw [lastBusy_append, lastBusy_endEffects]
      show lastBusy log ≠ some true
      rw [free]
      decide
    · rw [show (o.ended s previousFinal).awaitingConfirmation = false from unasked] at h
      cases h
  cases conclusion with
  | finished => exact ended s
  | idleStart => exact ended _
  | continued => exact of_proceeded (o := { o with phase := .interacting }) (.inl rfl) unasked _ rfl
  | shown =>
    refine .rests ⟨?_, unlocked, nofun, ?_, undeferred, fun _ => rfl, fun _ => rfl, nofun⟩
    · rw [requestsOf_append, requestsOf_callEffects, requestsOf_emitted]
      rfl
    · have hdraw := lastBusy_drawCalls o.id o.view o.rendered s []
      rw [List.map_nil, List.append_nil] at hdraw
      rw [lastBusy_append, lastBusy_append, lastBusy_emitted, hdraw]
      show lastBusy log ≠ some true
      rw [free]
      decide

/-- After a snapshot a client that runs waits or rests. -/
theorem of_received {ch : Channels} {s : Snapshot} {effects : List Effect}
    (received : Received ch s o o' effects) (running : o.phase = .running)
    (unasked : o.awaitingConfirmation = false) :
    Standing (log ++ effects) o' (requestsOf effects) := by
  cases received with
  | closed ended => rw [running] at ended; cases ended
  | cancelled =>
    exact of_proceeded (o := { o.answered with pendingCancel := false }) (.inr running) unasked _
      rfl
  | concluded _ _ conclusion =>
    rw [requestsOf_append, requestsOf_callEffects, List.nil_append, ← List.append_assoc]
    refine of_concluded conclusion rfl ?_ rfl unasked
    rw [lastBusy_append, lastBusy_openChild]
    rfl

/-- After an error a client that runs waits or rests. -/
theorem of_rejected {ch : Channels} {e : ServiceError} {effects : List Effect}
    (rejected : Rejected ch o e o' effects) (running : o.phase = .running)
    (unasked : o.awaitingConfirmation = false) :
    Standing (log ++ effects) o' (requestsOf effects) := by
  -- nothing was asked while the request was under way
  have quiet {o' : ClientState V} (h : o'.awaitingConfirmation = o.awaitingConfirmation) :
      o'.awaitingConfirmation = true → o'.phase = .interacting := fun asked => by
    rw [h, unasked] at asked
    cases asked
  -- the input is unlocked before anything else is said
  have freed {calls : List ViewCall} (h : ∀ busy, .setBusy busy ∉ calls) (rest : List Effect)
      (hrest : lastBusy rest = none) :
      lastBusy (log ++ (callEffects o.id o.view (.setBusy false :: calls) ++ rest)) ≠
        some true := by
    rw [lastBusy_append, lastBusy_append, hrest, lastBusy_callEffects_cons h]
    nofun
  cases rejected with
  | closed _ ended => rw [running] at ended; cases ended
  | failed message =>
    refine .rests ⟨?_, rfl, nofun, ?_, rfl, quiet rfl, nofun, nofun⟩
    · rw [requestsOf_append, requestsOf_callEffects, requestsOf_emitted]
      rfl
    · exact freed (by simp) _ (lastBusy_emitted ..)
  | cancelled =>
    exact of_proceeded (o := { o.answered with pendingCancel := false, cancelSent := false })
      (.inr running) unasked _ rfl
  | withdrawn message _ _ none =>
    refine .rests ⟨requestsOf_callEffects .., rfl, nofun, ?_, rfl, quiet rfl, nofun, fun _ => none⟩
    have hcalls : ∀ busy, .setBusy busy ∉ [ViewCall.showMessage message] := by simp
    have hfree := freed hcalls [] rfl
    rwa [List.append_nil] at hfree
  | finished _ _ s _ waits =>
    refine .rests ⟨?_, rfl, nofun, ?_, waits, quiet rfl, nofun, nofun⟩
    · rw [requestsOf_append, requestsOf_callEffects, requestsOf_endEffects]
      rfl
    · exact freed (by simp) _ (lastBusy_endEffects ..)
  | replaced message _ s _ waits =>
    refine .rests ⟨?_, rfl, nofun, ?_, waits, fun _ => rfl, fun _ => rfl, nofun⟩
    · rw [requestsOf_append, requestsOf_append, requestsOf_callEffects, requestsOf_callEffects,
        requestsOf_emitted]
      rfl
    · rw [List.append_assoc]
      refine freed (by simp) _ ?_
      have hdraw := lastBusy_drawCalls o.id o.relieved.view o.rendered s [message]
      rw [lastBusy_append, lastBusy_emitted]
      exact hdraw
  | rejected message fieldErrors _ waits s current =>
    refine .rests ⟨?_, rfl, nofun, ?_, waits, fun _ => rfl, fun _ => ?_, nofun⟩
    · rw [requestsOf_append, requestsOf_callEffects, requestsOf_callEffects]
      rfl
    · exact freed (by simp) _ (lastBusy_rejectionCalls ..)
    · show o.current.isSome = true
      rw [current]
      rfl

/-- After steps go on by themselves again the client waits or rests. -/
theorem of_resumed {x : Outcome} {effects : List Effect} (resumed : Resumed o x o' effects)
    (st : Standing log o waiting) :
    Standing (log ++ effects) o' (waiting ++ requestsOf effects) := by
  cases resumed with
  | stayed =>
    rw [List.append_nil, requestsOf_nil, List.append_nil]
    cases st with
    | waits w => exact .waits ⟨w.single, w.locked, w.running, w.busy, w.unasked⟩
    | rests r =>
      exact .rests ⟨r.none, r.unlocked, r.calm, r.free, r.undeferred, r.asked, r.shown, r.begun⟩
  | continued offers =>
    rw [(st.rests_of_unlocked offers.unlocked).none, List.nil_append]
    exact of_proceeded (o := { o with autoContinuePaused := false }) (.inl offers.shown)
      offers.settled _ rfl

/-- Whatever its user does, the client waits or rests afterwards. -/
theorem act {ch : Channels} {a : UserAction} {r : Except ClientError (Option Outcome)}
    {own : List Effect} (reaction : Reaction ch o (.action a) r o' own)
    (st : Standing log o waiting) : Standing (log ++ own) o' (waiting ++ requestsOf own) := by
  have silent (st : Standing log o' waiting) :
      Standing (log ++ []) o' (waiting ++ requestsOf []) := by
    rw [List.append_nil, requestsOf_nil, List.append_nil]
    exact st
  cases reaction with
  | refused => exact silent st
  | ignored => exact silent st
  | started d idle =>
    cases st with
    | waits w => rw [w.running] at idle; cases idle
    | rests r =>
      refine .waits ⟨?_, rfl, rfl, ?_, r.unasked (by rw [idle]; decide)⟩
      · rw [r.none, requestsOf_append, requestsOf_emitted]
        rfl
      · rw [lastBusy_append, lastBusy_append]
        rfl
  | attached s idle received =>
    cases st with
    | waits w => rw [w.running] at idle; cases idle
    | rests r =>
      rw [r.none, requestsOf_append, requestsOf_emitted, ← List.append_assoc]
      exact of_received received rfl (r.unasked (by rw [idle]; decide))
  | edited _ _ shown unlocked =>
    have r := st.rests_of_unlocked unlocked
    refine silent (.rests ⟨r.none, r.unlocked, r.calm, r.free, r.undeferred, r.asked, fun _ => rfl,
      fun idle => ?_⟩)
    rw [show o.phase = .idle from idle] at shown
    cases shown
  | navigated offers =>
    rw [(st.rests_of_unlocked offers.unlocked).none]
    exact of_proceeded (.inl offers.shown) offers.settled _ rfl
  | deferred _ locked =>
    have w := st.waits_of_locked locked
    exact silent (.waits ⟨w.single, w.locked, w.running, w.busy, w.unasked⟩)
  | asked can unlocked _ s =>
    have r := st.rests_of_unlocked unlocked
    have hbusy : lastBusy (callEffects o.id o.view [.ask (.cancelProcess s.processName)]) =
        none := rfl
    rw [requestsOf_callEffects, List.append_nil]
    refine .rests ⟨r.none, r.unlocked, r.calm, ?_, r.undeferred,
      fun _ => r.interacting can.going can.begun, r.shown, r.begun⟩
    rw [lastBusy_append, hbusy]
    exact r.free
  | cancelled can unlocked unasked =>
    have r := st.rests_of_unlocked unlocked
    rw [r.none]
    exact of_proceeded (.inl (r.interacting can.going can.begun)) unasked _ rfl
  | answerLost _ _ asked => exact silent (.rests (st.rests_of_asked asked).settled)
  | accepted asked =>
    have r := st.rests_of_asked asked
    rw [r.none]
    exact of_proceeded (o := o.settled) (.inl (r.asked asked)) rfl _ rfl
  | acceptedLocked asked _ locked =>
    rw [(st.rests_of_asked asked).unlocked] at locked
    cases locked
  | declined asked => exact silent (.rests (st.rests_of_asked asked).settled)
  | declinedResumed asked _ _ resumed =>
    exact of_resumed resumed (.rests (st.rests_of_asked asked).settled)
  | paused =>
    refine silent ?_
    cases st with
    | waits w => exact .waits ⟨w.single, w.locked, w.running, w.busy, w.unasked⟩
    | rests r =>
      exact .rests ⟨r.none, r.unlocked, r.calm, r.free, r.undeferred, r.asked, r.shown, r.begun⟩
  | resumed resumed => exact of_resumed resumed st

/-- Whatever its request is answered, the client waits or rests afterwards. -/
theorem answer {ch : Channels} {result : Except ServiceError Snapshot}
    {r : Except ClientError (Option Outcome)} {own : List Effect}
    (reaction : Reaction ch o (.response result) r o' own) (w : Waiting log o waiting) :
    Standing (log ++ own) o' (requestsOf own) := by
  cases reaction with
  | received received => exact of_received received w.running w.unasked
  | rejected rejected => exact of_rejected rejected w.running w.unasked

end Standing

variable [ProcessView V]

/-- At every point of its run a client waits or rests; and so whatever holds of a new client and is
kept by every reaction of a client that waits or rests holds as well. -/
theorem ClientRun.standing_and {ch : Channels} (h : ch.dispatchOpen = true)
    {P : List (Moment V) → ClientState V → List Request → Prop}
    (new : ∀ id parent paused view, P [] (.fresh id parent paused view) [])
    (act : ∀ {H : List (Moment V)} {o o' : ClientState V} {waiting : List Request} {m : Moment V}
      {a : UserAction} {r : Except ClientError (Option Outcome)} {own : List Effect},
      Standing (ownLog H) o waiting → P H o waiting → m.Shows o (.action a) r o' own →
      Reaction ch o (.action a) r o' own → P (H ++ [m]) o' (waiting ++ requestsOf own))
    (answer : ∀ {H : List (Moment V)} {o o' : ClientState V} {request : Request} {m : Moment V}
      {result : Except ServiceError Snapshot} {r : Except ClientError (Option Outcome)}
      {own : List Effect},
      Waiting (ownLog H) o [request] → P H o [request] → m.Shows o (.response result) r o' own →
      Reaction ch o (.response result) r o' own → P (H ++ [m]) o' (requestsOf own))
    {H : List (Moment V)} {c : Client V} {waiting : List Request}
    (run : ClientRun ch H c waiting) :
    Standing (ownLog H) c.toClientState waiting ∧ P H c.toClientState waiting := by
  refine run.invariant h
    (P := fun H o waiting => Standing (ownLog H) o waiting ∧ P H o waiting) ?_ ?_ ?_
  · intro id parent paused view
    exact ⟨.rests ⟨rfl, rfl, nofun, nofun, rfl, nofun, nofun, fun _ => rfl⟩,
      new id parent paused view⟩
  · rintro H o o' waiting m a r own ⟨st, hP⟩ shows reaction
    refine ⟨?_, act st hP shows reaction⟩
    rw [ownLog_append, ownLog_singleton, shows.own]
    exact st.act reaction
  · rintro H o o' older newer request m result r own ⟨st, hP⟩ shows reaction
    -- the request that is answered is the only one that waited
    obtain ⟨w, hrest⟩ := st.waits_of_mem
    obtain ⟨rfl, rfl⟩ := List.append_eq_nil_iff.1 hrest
    refine ⟨?_, answer w hP shows reaction⟩
    rw [ownLog_append, ownLog_singleton, shows.own]
    exact Standing.answer reaction w

/-- At every point of its run a client waits or rests. -/
theorem ClientRun.standing {ch : Channels} (h : ch.dispatchOpen = true) {H : List (Moment V)}
    {c : Client V} {waiting : List Request} (run : ClientRun ch H c waiting) :
    Standing (ownLog H) c.toClientState waiting :=
  (run.standing_and h (P := fun _ _ _ => True) (fun _ _ _ _ => trivial)
    (fun _ _ _ _ => trivial) (fun _ _ _ _ => trivial)).1

end Stepwise
