/-
# The life of a client

A client tells its life by events. It begins, once more for every start that was turned down; then it
shows snapshots; and it ends once at most, with its process or by an error. What has ended stays as
it is, whatever happens.

* `Lifecycle` : the order in which a life is told;
* `Reaction.absorbed` : nothing happens to a client that has ended;
* `Tells`, `Reaction.tells` : what a client has told fits the state it is in, moment by moment;
* `ClientRun.tells`, `ClientRun.summaries` : this is so at every point of a run.
-/
import Stepwise.Proofs.Client.Standing

namespace Stepwise

/-! ## Events -/

namespace LifecycleEvent

variable {ι : Type}

def isStarted : LifecycleEvent ι → Bool
  | .started .. => true
  | _ => false

def isUpdated : LifecycleEvent ι → Bool
  | .updated .. => true
  | _ => false

def isFinished : LifecycleEvent ι → Bool
  | .finished .. => true
  | _ => false

def isFailed : LifecycleEvent ι → Bool
  | .failed .. => true
  | _ => false

/-- A beginning is no end. -/
theorem goes_of_isStarted {e : LifecycleEvent ι} (h : e.isStarted = true) :
    e.isFinished = false ∧ e.isFailed = false := by
  cases e with
  | started => exact ⟨rfl, rfl⟩
  | _ => cases h

/-- A snapshot that is shown is no end. -/
theorem goes_of_isUpdated {e : LifecycleEvent ι} (h : e.isUpdated = true) :
    e.isFinished = false ∧ e.isFailed = false := by
  cases e with
  | updated => exact ⟨rfl, rfl⟩
  | _ => cases h

end LifecycleEvent

/-- A life that was told: it begins, once at least; then snapshots are shown; then it ends, once at
most. -/
inductive Lifecycle {ι : Type} : List (LifecycleEvent ι) → Prop where
  | told {begins shows ends : List (LifecycleEvent ι)} (begun : begins ≠ [])
      (hbegins : ∀ e ∈ begins, e.isStarted = true) (hshows : ∀ e ∈ shows, e.isUpdated = true)
      (once : ends.length ≤ 1) (hends : ∀ e ∈ ends, (e.isFinished || e.isFailed) = true) :
    Lifecycle (begins ++ shows ++ ends)

/-- The events that effects tell. -/
def eventsOf (effects : List Effect) : List (LifecycleEvent ClientId) :=
  effects.filterMap fun
    | .event e => some e
    | _ => none

/-- The effect is the summary of a process. -/
def Effect.isSummary : Effect → Bool
  | .call _ (.showSummary _) _ => true
  | _ => false

/-- How many summaries effects show. -/
def summaryCount (effects : List Effect) : Nat := effects.countP Effect.isSummary

@[simp] theorem eventsOf_nil : eventsOf [] = [] := rfl

@[simp] theorem eventsOf_append (xs ys : List Effect) :
    eventsOf (xs ++ ys) = eventsOf xs ++ eventsOf ys := List.filterMap_append ..

/-- The events of one client. -/
theorem eventsOf_about (id : ClientId) (effects : List Effect) :
    eventsOf (about id effects) = (eventsOf effects).filter fun e => e.client = id := by
  refine filterMap_about LifecycleEvent.client (fun e x hx => ?_) id effects
  cases e with
  | event => cases hx; rfl
  | _ => cases hx

@[simp] theorem summaryCount_append (xs ys : List Effect) :
    summaryCount (xs ++ ys) = summaryCount xs + summaryCount ys := List.countP_append ..

variable {V : Type} [ProcessView V] {ch : Channels}

@[simp] theorem eventsOf_callEffects (id : ClientId) (v : V) (calls : List ViewCall) :
    eventsOf (callEffects id v calls) = [] := by
  induction calls generalizing v with
  | nil => rfl
  | cons call calls ih => exact ih _

theorem eventsOf_emitted (heard : ch.eventsOpen = true) (e : LifecycleEvent ClientId) :
    eventsOf (emitted ch e) = [e] := by
  rw [emitted, if_pos heard]
  rfl

@[simp] theorem eventsOf_sendEffects (o : ClientState V) (r : Request) :
    eventsOf (o.sendEffects r) = [] := rfl

theorem eventsOf_endEffects (heard : ch.eventsOpen = true) (o : ClientState V) (s : Snapshot)
    (previousFinal : Bool) :
    eventsOf (o.endEffects ch s previousFinal) = [.finished o.id o.parent s] := by
  rw [ClientState.endEffects, eventsOf_append, eventsOf_callEffects, eventsOf_emitted heard]
  rfl

@[simp] theorem summaryCount_emitted (ch : Channels) (e : LifecycleEvent ClientId) :
    summaryCount (emitted ch e) = 0 := by
  unfold emitted
  split <;> rfl

/-- Calls that show no summary. -/
theorem summaryCount_callEffects {calls : List ViewCall} (h : ∀ s, .showSummary s ∉ calls)
    (id : ClientId) (v : V) : summaryCount (callEffects id v calls) = 0 := by
  refine List.countP_eq_zero.2 fun e he => ?_
  obtain ⟨call, hmem, found, rfl⟩ := mem_callEffects he
  cases call with
  | showSummary s => exact absurd hmem (h s)
  | _ => exact Bool.false_ne_true

/-! ## What has ended -/

section Absorbed

variable {o o' : ClientState V}

/-- The client stands where the other one does. -/
structure ClientState.Stands (o o' : ClientState V) : Prop where
  phase : o'.phase = o.phase
  current : o'.current = o.current
  cancelled : o'.cancelled = o.cancelled

omit [ProcessView V] in
theorem ClientState.Stands.refl (o : ClientState V) : o.Stands o := ⟨rfl, rfl, rfl⟩

/-- Whatever happens to a client that has ended, it leaves nothing behind and stands where it did. -/
theorem Reaction.absorbed {i : Stimulus} {r : Except ClientError (Option Outcome)}
    {own : List Effect} (reaction : Reaction ch o i r o' own)
    (ended : o.phase.isTerminal = true) : own = [] ∧ o.Stands o' := by
  have other {phase : Phase} (hphase : o.phase = phase) (hgoing : phase.isTerminal = false) :
      False := by
    rw [hphase, hgoing] at ended
    cases ended
  have resumed {o₁ : ClientState V} {x : Outcome} {effects : List Effect}
      (h : Resumed o₁ x o' effects) (same : o.Stands o₁) : effects = [] ∧ o.Stands o' := by
    cases h with
    | stayed => exact ⟨rfl, same.phase, same.current, same.cancelled⟩
    | continued offers => exact (other (same.phase.symm.trans offers.shown) rfl).elim
  cases reaction with
  | refused => exact ⟨rfl, .refl o⟩
  | ignored => exact ⟨rfl, .refl o⟩
  | started _ idle => exact (other idle rfl).elim
  | attached _ idle => exact (other idle rfl).elim
  | edited _ _ shown => exact (other shown rfl).elim
  | navigated offers => exact (other offers.shown rfl).elim
  | deferred can => exact (other rfl can.going).elim
  | asked can => exact (other rfl can.going).elim
  | cancelled can => exact (other rfl can.going).elim
  | answerLost => exact ⟨rfl, rfl, rfl, rfl⟩
  | accepted _ going => exact (other rfl going).elim
  | acceptedLocked _ going => exact (other rfl going).elim
  | declined _ going => exact (other rfl going).elim
  | declinedResumed _ going => exact (other rfl going).elim
  | paused => exact ⟨rfl, rfl, rfl, rfl⟩
  | resumed h => exact resumed h (.refl o)
  | received received =>
    cases received with
    | closed => exact ⟨rfl, .refl o⟩
    | cancelled going => exact (other rfl going).elim
    | concluded going => exact (other rfl going).elim
  | rejected rejected =>
    cases rejected with
    | closed => exact ⟨rfl, .refl o⟩
    | failed _ _ going => exact (other rfl going).elim
    | cancelled _ _ _ going => exact (other rfl going).elim
    | withdrawn _ _ going => exact (other rfl going).elim
    | finished _ _ _ going => exact (other rfl going).elim
    | replaced _ _ _ going => exact (other rfl going).elim
    | rejected _ _ going => exact (other rfl going).elim

end Absorbed

/-! ## What a client has told -/

/-- How a life that was told so far ends, by where the client stands. -/
inductive Ending (o : ClientState V) : List (LifecycleEvent ClientId) → Prop where
  | going (going : o.phase.isTerminal = false) : Ending o []
  | finished (s : Snapshot) (ended : o.phase = .finished) (last : s.finished = true)
      (current : o.current = some s) (cancelled : o.cancelled = s.cancelled) :
    Ending o [.finished o.id o.parent s]
  | failed (message : String) (ended : o.phase = .failed) :
    Ending o [.failed o.id o.parent message]

/-- What a client has told fits where it stands: only before it has begun nothing was told, and only
with a snapshot was anything shown. -/
inductive Tells (o : ClientState V) : List (LifecycleEvent ClientId) → Prop where
  | told {begins shows ends : List (LifecycleEvent ClientId)}
      (hbegins : ∀ e ∈ begins, e.isStarted = true) (hshows : ∀ e ∈ shows, e.isUpdated = true)
      (begun : o.phase = .idle ∨ begins ≠ []) (fresh : o.current = none → shows = [])
      (ending : Ending o ends) : Tells o (begins ++ shows ++ ends)

namespace Tells

variable {o o' : ClientState V} {es : List (LifecycleEvent ClientId)}

omit [ProcessView V] in
/-- A client that goes on has not told an end. -/
theorem of_going (h : Tells o es) (going : o.phase.isTerminal = false) :
    ∃ begins shows, es = begins ++ shows ∧ (∀ e ∈ begins, e.isStarted = true) ∧
      (∀ e ∈ shows, e.isUpdated = true) ∧ (o.phase = .idle ∨ begins ≠ []) ∧
      (o.current = none → shows = []) := by
  obtain ⟨hbegins, hshows, begun, fresh, ending⟩ := h
  cases ending with
  | going => exact ⟨_, _, List.append_nil _, hbegins, hshows, begun, fresh⟩
  | finished _ ended => rw [ended] at going; cases going
  | failed _ ended => rw [ended] at going; cases going

omit [ProcessView V] in
/-- Nothing is told. -/
theorem silent (h : Tells o es) (going : o.phase.isTerminal = false)
    (going' : o'.phase.isTerminal = false) (begun' : o'.phase = .idle ∨ o.phase ≠ .idle)
    (fresh' : o'.current = none → o.current = none) : Tells o' es := by
  obtain ⟨begins, shows, rfl, hbegins, hshows, begun, fresh⟩ := h.of_going going
  rw [← List.append_nil (begins ++ shows)]
  refine .told hbegins hshows ?_ (fun none => fresh (fresh' none)) (.going going')
  rcases begun' with idle | other
  · exact .inl idle
  · exact .inr (begun.resolve_left other)

omit [ProcessView V] in
/-- The client begins. -/
theorem started (h : Tells o es) (idle : o.phase = .idle) (none : o.current = none)
    (going' : o'.phase.isTerminal = false) (id : ClientId) (name : String) :
    Tells o' (es ++ [.started id name]) := by
  obtain ⟨begins, shows, rfl, hbegins, hshows, -, fresh⟩ := h.of_going (by rw [idle]; rfl)
  rw [fresh none, List.append_nil]
  have hbegins' : ∀ e ∈ begins ++ [LifecycleEvent.started id name], e.isStarted = true := by
    intro e he
    rcases List.mem_append.1 he with he | he
    · exact hbegins e he
    · rw [List.mem_singleton.1 he]
      rfl
  have told : Tells o' (_ ++ [] ++ []) :=
    .told hbegins' (List.forall_mem_nil _) (.inr (by simp)) (fun _ => rfl) (.going going')
  rwa [List.append_nil, List.append_nil] at told

omit [ProcessView V] in
/-- The client shows a snapshot. -/
theorem updated (h : Tells o es) (going : o.phase.isTerminal = false) (begun' : o.phase ≠ .idle)
    (going' : o'.phase.isTerminal = false) {s : Snapshot} (current : o'.current = some s)
    (id : ClientId) (t : Snapshot) : Tells o' (es ++ [.updated id t]) := by
  obtain ⟨begins, shows, rfl, hbegins, hshows, begun, -⟩ := h.of_going going
  have hshows' : ∀ e ∈ shows ++ [LifecycleEvent.updated id t], e.isUpdated = true := by
    intro e he
    rcases List.mem_append.1 he with he | he
    · exact hshows e he
    · rw [List.mem_singleton.1 he]
      rfl
  have told := Tells.told hbegins hshows' (.inr (begun.resolve_left begun'))
    (fun none => by rw [current] at none; cases none) (.going going')
  rwa [List.append_nil, ← List.append_assoc] at told

omit [ProcessView V] in
/-- The client ends. -/
theorem ended (h : Tells o es) (going : o.phase.isTerminal = false) (begun' : o.phase ≠ .idle)
    (fresh' : o'.current = none → o.current = none) {e : LifecycleEvent ClientId}
    (ending : Ending o' [e]) : Tells o' (es ++ [e]) := by
  obtain ⟨begins, shows, rfl, hbegins, hshows, begun, fresh⟩ := h.of_going going
  exact .told hbegins hshows (.inr (begun.resolve_left begun')) (fun none => fresh (fresh' none))
    ending

omit [ProcessView V] in
/-- Nothing has changed. -/
theorem same (h : Tells o es) (stands : o.Stands o') (named : o'.id = o.id ∧ o'.parent = o.parent) :
    Tells o' es := by
  obtain ⟨hbegins, hshows, begun, fresh, ending⟩ := h
  refine .told hbegins hshows (stands.phase ▸ begun) (stands.current ▸ fresh) ?_
  cases ending with
  | going going => exact .going (stands.phase ▸ going)
  | finished s ended last current cancelled =>
    rw [← named.1, ← named.2]
    exact .finished s (stands.phase ▸ ended) last (stands.current ▸ current)
      (stands.cancelled.trans cancelled)
  | failed message ended =>
    rw [← named.1, ← named.2]
    exact .failed message (stands.phase ▸ ended)

/-- The client sends a snapshot on. -/
theorem proceeded (h : Tells o es) (going : o.phase.isTerminal = false) (begun : o.phase ≠ .idle)
    (s : Snapshot) (mode : Mode) : Tells (o.proceeded s mode) es :=
  h.silent going ((ClientState.isTerminal_proceeded o s mode).trans going) (.inr begun) nofun

end Tells

section Told

variable {o o' : ClientState V} {es : List (LifecycleEvent ClientId)} {effects : List Effect}

theorem Concluded.tells (heard : ch.eventsOpen = true) {starting previousFinal : Bool}
    {s : Snapshot} (conclusion : Concluded ch starting previousFinal s o o' effects)
    (h : Tells o es) (going : o.phase.isTerminal = false) (begun : o.phase ≠ .idle) :
    Tells o' (es ++ eventsOf effects) := by
  cases conclusion with
  | finished last =>
    rw [eventsOf_endEffects heard]
    exact h.ended going begun (fun none => by cases none) (.finished s rfl last rfl rfl)
  | idleStart =>
    rw [eventsOf_endEffects heard]
    exact h.ended going begun (fun none => by cases none)
      (.finished { s with finished := true } rfl rfl rfl rfl)
  | continued =>
    rw [eventsOf_sendEffects, List.append_nil]
    have shown : Tells { o with phase := .interacting } es := h.silent going rfl (.inr begun) id
    exact shown.proceeded rfl nofun s .execute
  | shown =>
    rw [eventsOf_append, eventsOf_callEffects, eventsOf_emitted heard]
    exact h.updated going begun rfl rfl o.id s

theorem Received.tells (heard : ch.eventsOpen = true) {s : Snapshot}
    (received : Received ch s o o' effects) (h : Tells o es) (running : o.phase = .running) :
    Tells o' (es ++ eventsOf effects) := by
  have going : o.phase.isTerminal = false := by
    rw [running]
    rfl
  have begun : o.phase ≠ .idle := by
    rw [running]
    decide
  cases received with
  | closed ended => rw [going] at ended; cases ended
  | cancelled =>
    rw [eventsOf_sendEffects, List.append_nil]
    have answered : Tells { o.answered with pendingCancel := false } es :=
      h.silent going going (.inr begun) id
    exact answered.proceeded going begun s .cancel
  | concluded _ _ conclusion =>
    rw [eventsOf_append, eventsOf_callEffects, List.nil_append]
    have awake : Tells (o.awake.spawned s.children) es := h.silent going going (.inr begun) id
    exact conclusion.tells heard awake going begun

theorem Rejected.tells (heard : ch.eventsOpen = true) {e : ServiceError}
    (rejected : Rejected ch o e o' effects) (h : Tells o es) (running : o.phase = .running) :
    Tells o' (es ++ eventsOf effects) := by
  have going : o.phase.isTerminal = false := by
    rw [running]
    rfl
  have begun : o.phase ≠ .idle := by
    rw [running]
    decide
  have silent (none : eventsOf effects = []) (going' : o'.phase.isTerminal = false)
      (fresh' : o'.current = .none → o.current = .none) : Tells o' (es ++ eventsOf effects) := by
    rw [none, List.append_nil]
    exact h.silent going going' (.inr begun) fresh'
  cases rejected with
  | closed _ ended => rw [going] at ended; cases ended
  | failed message =>
    rw [eventsOf_append, eventsOf_callEffects, eventsOf_emitted heard]
    refine h.ended going begun (fun none => ?_) (.failed message ?_)
    · exact none
    · rfl
  | cancelled message fieldErrors replacement _ _ s =>
    refine silent rfl ?_ nofun
    exact (ClientState.isTerminal_proceeded _ s .cancel).trans going
  | withdrawn => exact silent (eventsOf_callEffects ..) rfl id
  | finished message fieldErrors s _ _ last =>
    rw [eventsOf_append, eventsOf_callEffects, eventsOf_endEffects heard]
    exact h.ended going begun (fun none => by cases none) (.finished s rfl last rfl rfl)
  | replaced message fieldErrors s =>
    rw [eventsOf_append, eventsOf_append, eventsOf_callEffects, eventsOf_callEffects,
      eventsOf_emitted heard]
    exact h.updated going begun rfl rfl o.id s
  | rejected =>
    refine silent ?_ rfl id
    rw [eventsOf_append, eventsOf_callEffects, eventsOf_callEffects]
    rfl

/-- What a client has told fits where it stands, after one more moment. -/
theorem Reaction.tells (heard : ch.eventsOpen = true) {log : List Effect} {waiting : List Request}
    {i : Stimulus} {r : Except ClientError (Option Outcome)}
    (reaction : Reaction ch o i r o' effects) (st : Standing log o waiting)
    (answers : ∀ result, i = .response result → o.phase = .running) (h : Tells o es) :
    Tells o' (es ++ eventsOf effects) := by
  by_cases ended : o.phase.isTerminal = true
  · obtain ⟨rfl, stands⟩ := reaction.absorbed ended
    rw [eventsOf_nil, List.append_nil]
    exact h.same stands reaction.named
  rw [Bool.not_eq_true] at ended
  have silent {o' : ClientState V} {effects : List Effect} (none : eventsOf effects = [])
      (going' : o'.phase.isTerminal = false) (begun' : o'.phase = .idle ∨ o.phase ≠ .idle)
      (fresh' : o'.current = .none → o.current = .none) : Tells o' (es ++ eventsOf effects) := by
    rw [none, List.append_nil]
    exact h.silent ended going' begun' fresh'
  have sent (begun : o.phase ≠ .idle) (s : Snapshot) (mode : Mode) (request : Request) :
      Tells (o.proceeded s mode) (es ++ eventsOf (o.sendEffects request)) :=
    silent rfl ((ClientState.isTerminal_proceeded o s mode).trans ended) (.inr begun) nofun
  -- where the client has not begun, it stays so
  have begins (phase : Phase) (hphase : o.phase = phase) : phase = .idle ∨ o.phase ≠ .idle := by
    rw [hphase]
    exact Decidable.em _
  have resumed {o₁ : ClientState V} {x : Outcome} {effects : List Effect}
      (h : Resumed o₁ x o' effects) (stands : o.Stands o₁) : Tells o' (es ++ eventsOf effects) := by
    cases h with
    | stayed =>
      exact silent rfl (stands.phase ▸ ended) (begins _ stands.phase.symm)
        fun none => stands.current ▸ none
    | continued offers _ s =>
      refine silent rfl ?_ (.inr ?_) nofun
      · exact (ClientState.isTerminal_proceeded _ s .execute).trans (stands.phase ▸ ended)
      · rw [← stands.phase, offers.shown]
        decide
  have shown_begun (shown : o.phase = .interacting) : o.phase ≠ .idle := by
    rw [shown]
    decide
  cases reaction with
  | refused => exact silent rfl ended (begins _ rfl) id
  | ignored => exact silent rfl ended (begins _ rfl) id
  | started d idle =>
    have r := st.rests_of_unlocked (Bool.eq_false_iff.2 fun locked => by
      rw [(st.waits_of_locked locked).running] at idle
      cases idle)
    rw [eventsOf_append, eventsOf_emitted heard, eventsOf_sendEffects]
    exact h.started idle (r.begun idle) rfl o.id d.name
  | attached s idle received =>
    have r := st.rests_of_unlocked (Bool.eq_false_iff.2 fun locked => by
      rw [(st.waits_of_locked locked).running] at idle
      cases idle)
    rw [eventsOf_append, eventsOf_emitted heard, ← List.append_assoc]
    have started : Tells { o with phase := .running } (es ++ [.started o.id s.processName]) :=
      h.started idle (r.begun idle) rfl o.id s.processName
    exact received.tells heard started rfl
  | edited _ _ shown => exact silent rfl ended (.inr (shown_begun shown)) nofun
  | @navigated _ s mode _ offers => exact sent (shown_begun offers.shown) s mode _
  | deferred => exact silent rfl ended (begins _ rfl) id
  | asked => exact silent rfl ended (begins _ rfl) id
  | cancelled can _ _ s => exact sent can.begun s .cancel _
  | answerLost => exact silent rfl ended (begins _ rfl) id
  | accepted asked _ _ s =>
    have shown := (st.rests_of_asked asked).asked asked
    refine silent rfl ?_ (.inr (shown_begun shown)) nofun
    exact (ClientState.isTerminal_proceeded o.settled s .cancel).trans ended
  | acceptedLocked => exact silent rfl ended (begins _ rfl) id
  | declined => exact silent rfl ended (begins _ rfl) id
  | declinedResumed _ _ _ h => exact resumed h ⟨rfl, rfl, rfl⟩
  | paused => exact silent rfl ended (begins _ rfl) id
  | resumed h => exact resumed h (.refl o)
  | received received => exact received.tells heard h (answers _ rfl)
  | rejected rejected => exact rejected.tells heard h (answers _ rfl)

end Told

/-! ## Summaries -/

section Summaries

variable {o o' : ClientState V} {effects : List Effect}

theorem summaryCount_endEffects (ch : Channels) (o : ClientState V) (s : Snapshot)
    (previousFinal : Bool) : summaryCount (o.endEffects ch s previousFinal) ≤ 1 := by
  rw [ClientState.endEffects, summaryCount_append, summaryCount_emitted]
  cases previousFinal
  · exact Nat.le_refl 1
  · exact Nat.zero_le 1

/-- Showing a snapshot, with messages or without, shows no summary. -/
theorem summaryCount_drawCalls (id : ClientId) (v : V) (rendered : Option Layout) (s : Snapshot)
    (texts : List String) :
    summaryCount (callEffects id v (drawCalls v rendered s ++ texts.map .showMessage)) = 0 := by
  refine summaryCount_callEffects (fun t hmem => ?_) id v
  rcases List.mem_append.1 hmem with hmem | hmem
  · rcases mem_drawCalls hmem with h | ⟨p, h⟩ <;> cases h
  · obtain ⟨text, -, h⟩ := List.mem_map.1 hmem
    cases h

theorem summaryCount_rejectionCalls (id : ClientId) (v v' : V) (message : String)
    (fieldErrors : KeyMap String) :
    summaryCount (callEffects id v (rejectionCalls v' message fieldErrors)) = 0 := by
  have complaint {v : V} {t : Summary} {entries : List (String × String)} :
      .showSummary t ∉ complaintCalls v entries := fun hmem => by
    rcases mem_complaintCalls hmem with ⟨field, text, h⟩ | ⟨text, h⟩ <;> cases h
  refine summaryCount_callEffects (fun t hmem => ?_) id v
  unfold rejectionCalls at hmem
  split at hmem
  · rcases List.mem_cons.1 hmem with h | hmem
    · cases h
    · exact complaint hmem
  · exact complaint hmem

theorem Concluded.summaries {starting previousFinal : Bool} {s : Snapshot}
    (conclusion : Concluded ch starting previousFinal s o o' effects) :
    summaryCount effects ≤ o'.phase.isTerminal.toNat := by
  cases conclusion with
  | finished => exact summaryCount_endEffects ..
  | idleStart => exact summaryCount_endEffects ..
  | continued => exact Nat.zero_le _
  | shown =>
    have hdraw := summaryCount_drawCalls o.id o.view o.rendered s []
    rw [List.map_nil, List.append_nil] at hdraw
    rw [summaryCount_append, hdraw, summaryCount_emitted]
    exact Nat.zero_le _

theorem Received.summaries {s : Snapshot} (received : Received ch s o o' effects) :
    summaryCount effects ≤ o'.phase.isTerminal.toNat := by
  cases received with
  | closed => exact Nat.zero_le _
  | cancelled => exact Nat.zero_le _
  | concluded _ _ conclusion =>
    have hopen : summaryCount (callEffects o.id o.view
        (.setBusy false :: s.children.map .openChild)) = 0 := by
      refine summaryCount_callEffects (fun t hmem => ?_) o.id o.view
      rcases List.mem_cons.1 hmem with h | hmem
      · cases h
      · obtain ⟨u, -, h⟩ := List.mem_map.1 hmem
        cases h
    rw [summaryCount_append, hopen, Nat.zero_add]
    exact conclusion.summaries

theorem Rejected.summaries {e : ServiceError} (rejected : Rejected ch o e o' effects) :
    summaryCount effects ≤ o'.phase.isTerminal.toNat := by
  cases rejected with
  | closed => exact Nat.zero_le _
  | failed =>
    rw [summaryCount_append, summaryCount_emitted]
    exact Nat.le_refl 1
  | cancelled => exact Nat.zero_le _
  | withdrawn => exact Nat.zero_le _
  | finished =>
    rw [summaryCount_append, show summaryCount (callEffects o.id o.view [.setBusy false]) = 0 from rfl,
      Nat.zero_add]
    exact summaryCount_endEffects ..
  | replaced message _ s =>
    have hdraw := summaryCount_drawCalls o.id o.relieved.view o.rendered s [message]
    rw [List.map_singleton] at hdraw
    rw [summaryCount_append, summaryCount_append, hdraw, summaryCount_emitted]
    exact Nat.zero_le _
  | rejected message fieldErrors =>
    rw [summaryCount_append, summaryCount_rejectionCalls]
    exact Nat.zero_le _

/-- A summary is shown only at the end. -/
theorem Reaction.summaries {i : Stimulus} {r : Except ClientError (Option Outcome)}
    (reaction : Reaction ch o i r o' effects) :
    summaryCount effects ≤ o'.phase.isTerminal.toNat := by
  have resumed {o o' : ClientState V} {x : Outcome} {effects : List Effect}
      (h : Resumed o x o' effects) : summaryCount effects ≤ o'.phase.isTerminal.toNat := by
    cases h <;> exact Nat.zero_le _
  cases reaction with
  | started =>
    rw [summaryCount_append, summaryCount_emitted]
    exact Nat.zero_le _
  | attached _ _ received =>
    rw [summaryCount_append, summaryCount_emitted, Nat.zero_add]
    exact received.summaries
  | declinedResumed _ _ _ h => exact resumed h
  | resumed h => exact resumed h
  | received received => exact received.summaries
  | rejected rejected => exact rejected.summaries
  | _ => exact Nat.zero_le _

end Summaries

/-! ## Runs of one client -/

variable {H : List (Moment V)} {c : Client V} {waiting : List Request}

/-- At every point of a run, what the client has told fits where it stands. -/
theorem ClientRun.tells (h : ch.dispatchOpen = true) (heard : ch.eventsOpen = true)
    (run : ClientRun ch H c waiting) : Tells c.toClientState (eventsOf (ownLog H)) := by
  refine (run.standing_and h (P := fun H o _ => Tells o (eventsOf (ownLog H))) ?_ ?_ ?_).2
  · intro id parent paused view
    have told : Tells (ClientState.fresh id parent paused view) ([] ++ [] ++ []) :=
      .told (List.forall_mem_nil _) (List.forall_mem_nil _) (.inl rfl) (fun _ => rfl) (.going rfl)
    exact told
  · intro H o o' waiting m a r own st ih shows reaction
    rw [ownLog_append, ownLog_singleton, shows.own, eventsOf_append]
    exact reaction.tells heard st (fun _ h => by cases h) ih
  · intro H o o' request m result r own w ih shows reaction
    rw [ownLog_append, ownLog_singleton, shows.own, eventsOf_append]
    exact reaction.tells heard (.waits w) (fun _ _ => w.running) ih

/-- At every point of a run at most one summary was shown, and none before the end. -/
theorem ClientRun.summaries (h : ch.dispatchOpen = true) (run : ClientRun ch H c waiting) :
    summaryCount (ownLog H) ≤ c.phase.isTerminal.toNat := by
  have moment {H : List (Moment V)} {o o' : ClientState V} {m : Moment V} {i : Stimulus}
      {r : Except ClientError (Option Outcome)} {own : List Effect}
      (ih : summaryCount (ownLog H) ≤ o.phase.isTerminal.toNat) (shows : m.Shows o i r o' own)
      (reaction : Reaction ch o i r o' own) :
      summaryCount (ownLog (H ++ [m])) ≤ o'.phase.isTerminal.toNat := by
    rw [ownLog_append, ownLog_singleton, shows.own, summaryCount_append]
    cases ended : o.phase.isTerminal with
    | false =>
      rw [ended] at ih
      have hown := reaction.summaries
      have : summaryCount (ownLog H) = 0 := Nat.le_zero.1 ih
      omega
    | true =>
      obtain ⟨rfl, stands⟩ := reaction.absorbed ended
      rw [stands.phase]
      exact ih
  refine run.invariant h (P := fun H o _ => summaryCount (ownLog H) ≤ o.phase.isTerminal.toNat)
    ?_ ?_ ?_
  · intro id parent paused view
    exact Nat.le_refl 0
  · intro H o o' waiting m a r own ih shows reaction
    exact moment ih shows reaction
  · intro H o o' older newer request m result r own ih shows reaction
    exact moment ih shows reaction

end Stepwise
