/-
# How a client takes a response

Responses are steps of a tree: a snapshot lets the clients of spawned processes take over, which
take their own snapshots. This module opens the recursion once. To the client itself a response
does one of a few things, which later proofs go through case by case; whatever else it does, it
does in the clients of new children.

* `Received`, `Rejected` : what a snapshot and an error do to the client itself;
* `births`, `spawnEffects` : the clients of new children, and what is left behind in between;
* `run_receive`, `run_fail` : what the steps do, as long as requests are taken.
-/
import Stepwise.Proofs.Client.Calls

namespace Stepwise

variable {V : Type} [ProcessView V]

/-! ## What the parts of a step do to the client itself -/

namespace ClientState

/-- The client after it has handed a request over. -/
def sent (o : ClientState V) : ClientState V :=
  { o with locked := true
           phase := if o.phase = .interacting then .running else o.phase
           view := performAll o.view [.setBusy true] }

/-- What sending a request leaves behind. -/
def sendEffects (o : ClientState V) (r : Request) : List Effect :=
  .dispatch ⟨o.id, r⟩ :: callEffects o.id o.view [.setBusy true]

/-- The client after it has sent a snapshot on. -/
def proceeded (o : ClientState V) (s : Snapshot) (mode : Mode) : ClientState V :=
  sent { o with current := some s.clearModified
                cancelSent := if mode = .cancel then true else o.cancelSent }

/-- Sending a snapshot on ends nothing. -/
@[simp] theorem isTerminal_sent (o : ClientState V) :
    o.sent.phase.isTerminal = o.phase.isTerminal := by
  show (if o.phase = .interacting then Phase.running else o.phase).isTerminal = _
  split
  · next h => rw [h]; rfl
  · rfl

@[simp] theorem isTerminal_proceeded (o : ClientState V) (s : Snapshot) (mode : Mode) :
    (o.proceeded s mode).phase.isTerminal = o.phase.isTerminal :=
  isTerminal_sent { o with
    current := some s.clearModified, cancelSent := if mode = .cancel then true else o.cancelSent }

/-- The client after the end of its process. -/
def ended (o : ClientState V) (s : Snapshot) (previousFinal : Bool) : ClientState V :=
  { o with phase := .finished, cancelled := s.cancelled, current := some s
           view := performAll o.view
             (if previousFinal then [] else [.showSummary (.ofSnapshot s)]) }

/-- What the end of the process leaves behind. -/
def endEffects (ch : Channels) (o : ClientState V) (s : Snapshot) (previousFinal : Bool) :
    List Effect :=
  callEffects o.id o.view (if previousFinal then [] else [.showSummary (.ofSnapshot s)]) ++
    emitted ch (.finished o.id o.parent s)

/-- The client after it has shown a snapshot. -/
def shown (o : ClientState V) (s : Snapshot) : ClientState V :=
  { o with phase := .interacting, rendered := some (Layout.ofSnapshot s), current := some s
           view := performAll o.view (drawCalls o.view o.rendered s) }

/-- The client once its request is answered. -/
def answered (o : ClientState V) : ClientState V :=
  { o with locked := false, awaitingStart := false }

/-- The client from which the clients of a step's children spring: its request is answered, and it
is told to unlock its panel. -/
def awake (o : ClientState V) : ClientState V :=
  { o.answered with pendingCancel := false, view := performAll o.view [.setBusy false] }

/-- The client once its request is rejected while no cancel waits. -/
def relieved (o : ClientState V) : ClientState V :=
  { o.answered with cancelSent := false, view := performAll o.view [.setBusy false] }

/-- The client after it has opened the panels of a step's children. -/
def spawned (o : ClientState V) (ss : List Snapshot) : ClientState V :=
  { o with opened := o.opened + ss.length, view := performAll o.view (ss.map .openChild) }

end ClientState

/-- How a client ends the reception of a snapshot, once the clients of the children have taken over:
`starting` if the snapshot answers the start, `previousFinal` if the user stood on the final step.
The last two arguments are the client itself afterwards, and what it leaves behind. -/
inductive Concluded (ch : Channels) (starting previousFinal : Bool) (s : Snapshot)
    (o : ClientState V) : ClientState V → List Effect → Prop where
  | finished (ended : s.finished = true) :
    Concluded ch starting previousFinal s o (o.ended s previousFinal)
      (o.endEffects ch s previousFinal)
  /-- The start has nothing to interact with. -/
  | idleStart (ended : s.finished = false) (start : starting = true)
      (work : s.hasOutstandingWork = false) :
    Concluded ch starting previousFinal s o (o.ended { s with finished := true } previousFinal)
      (o.endEffects ch { s with finished := true } previousFinal)
  /-- The step goes on by itself. -/
  | continued (ended : s.finished = false) (work : starting = true → s.hasOutstandingWork = true)
      (auto : s.autoContinue = true) (on : o.autoContinuePaused = false) :
    Concluded ch starting previousFinal s o
      (ClientState.proceeded { o with phase := .interacting } s .execute)
      (o.sendEffects (.continue (Act.outgoing s) .execute none))
  | shown (ended : s.finished = false) (work : starting = true → s.hasOutstandingWork = true)
      (rest : s.autoContinue = true → o.autoContinuePaused = true) :
    Concluded ch starting previousFinal s o (o.shown s)
      (callEffects o.id o.view (drawCalls o.view o.rendered s) ++ emitted ch (.updated o.id s))

/-- What a snapshot does to the client itself. -/
inductive Received (ch : Channels) (s : Snapshot) (o : ClientState V) :
    ClientState V → List Effect → Prop where
  /-- The process is over already. -/
  | closed (ended : o.phase.isTerminal = true) : Received ch s o o []
  /-- The cancel that waits is sent. -/
  | cancelled (going : o.phase.isTerminal = false) (waits : o.pendingCancel = true)
      (ended : s.finished = false) :
    Received ch s o (ClientState.proceeded { o.answered with pendingCancel := false } s .cancel)
      (o.sendEffects (.continue (Act.outgoing s) .cancel none))
  | concluded (going : o.phase.isTerminal = false)
      (moot : o.pendingCancel = true → s.finished = true) {o' : ClientState V}
      {effects : List Effect}
      (conclusion : Concluded ch o.awaitingStart (o.current.any (·.finalStep)) s
        (o.awake.spawned s.children) o' effects) :
    Received ch s o o'
      (callEffects o.id o.view (.setBusy false :: s.children.map .openChild) ++ effects)

/-- What an error does to the client itself. -/
inductive Rejected (ch : Channels) (o : ClientState V) :
    ServiceError → ClientState V → List Effect → Prop where
  /-- The process is over already. -/
  | closed (e : ServiceError) (ended : o.phase.isTerminal = true) : Rejected ch o e o []
  | failed (message : String) (cause : Option String) (going : o.phase.isTerminal = false) :
    Rejected ch o (.unrecoverable message cause)
      { o.answered with
        pendingCancel := false, cancelled := true, phase := .failed
        view := performAll o.view
          [.setBusy false,
            .showSummary (.failed ((o.current.map (·.processName)).getD "") message)] }
      (callEffects o.id o.view
          [.setBusy false,
            .showSummary (.failed ((o.current.map (·.processName)).getD "") message)] ++
        emitted ch (.failed o.id o.parent message))
  /-- The cancel that waits is sent. -/
  | cancelled (message : String) (fieldErrors : KeyMap String) (replacement : Option Snapshot)
      (going : o.phase.isTerminal = false) (waits : o.pendingCancel = true) (s : Snapshot)
      (subject : replacement.or o.current = some s) :
    Rejected ch o (.recoverable message fieldErrors replacement)
      (ClientState.proceeded { o.answered with pendingCancel := false, cancelSent := false } s
        .cancel)
      (o.sendEffects (.continue (Act.outgoing s) .cancel none))
  /-- There is no process yet. -/
  | withdrawn (message : String) (fieldErrors : KeyMap String)
      (going : o.phase.isTerminal = false) (none : o.current = none) :
    Rejected ch o (.recoverable message fieldErrors .none)
      { o.answered with
        pendingCancel := false, cancelSent := false, phase := .idle
        view := performAll o.view [.setBusy false, .showMessage message] }
      (callEffects o.id o.view [.setBusy false, .showMessage message])
  | finished (message : String) (fieldErrors : KeyMap String) (s : Snapshot)
      (going : o.phase.isTerminal = false) (waits : o.pendingCancel = false)
      (ended : s.finished = true) :
    Rejected ch o (.recoverable message fieldErrors (some s))
      (o.relieved.ended s (o.current.any (·.finalStep)))
      (callEffects o.id o.view [.setBusy false] ++
        o.relieved.endEffects ch s (o.current.any (·.finalStep)))
  | replaced (message : String) (fieldErrors : KeyMap String) (s : Snapshot)
      (going : o.phase.isTerminal = false) (waits : o.pendingCancel = false)
      (ended : s.finished = false) :
    Rejected ch o (.recoverable message fieldErrors (some s))
      { o.relieved.shown s with
        view := performAll o.relieved.view
          (drawCalls o.relieved.view o.rendered s ++ [.showMessage message]) }
      (callEffects o.id o.view [.setBusy false] ++
        callEffects o.id o.relieved.view
          (drawCalls o.relieved.view o.rendered s ++ [.showMessage message]) ++
        emitted ch (.updated o.id s))
  /-- The client stays on its snapshot. -/
  | rejected (message : String) (fieldErrors : KeyMap String)
      (going : o.phase.isTerminal = false) (waits : o.pendingCancel = false) (s : Snapshot)
      (current : o.current = some s) :
    Rejected ch o (.recoverable message fieldErrors none)
      { o.relieved with
        phase := .interacting
        view := performAll o.relieved.view (rejectionCalls o.relieved.view message fieldErrors) }
      (callEffects o.id o.view [.setBusy false] ++
        callEffects o.id o.relieved.view (rejectionCalls o.relieved.view message fieldErrors))

/-- A request leaves traces of its client only. -/
theorem client_of_mem_sendEffects {o : ClientState V} {r : Request} {e : Effect}
    (h : e ∈ o.sendEffects r) : e.client = o.id := by
  rcases List.mem_cons.1 h with rfl | h
  · rfl
  · exact client_of_mem_callEffects h

theorem client_of_mem_endEffects {ch : Channels} {o : ClientState V} {s : Snapshot}
    {previousFinal : Bool} {e : Effect} (h : e ∈ o.endEffects ch s previousFinal) :
    e.client = o.id := by
  rcases List.mem_append.1 h with h | h
  · exact client_of_mem_callEffects h
  · exact client_of_mem_emitted h

theorem Concluded.client_of_mem {ch : Channels} {starting previousFinal : Bool} {s : Snapshot}
    {o o' : ClientState V} {effects : List Effect}
    (h : Concluded ch starting previousFinal s o o' effects) {e : Effect} (he : e ∈ effects) :
    e.client = o.id := by
  cases h with
  | finished => exact client_of_mem_endEffects he
  | idleStart => exact client_of_mem_endEffects he
  | continued => exact client_of_mem_sendEffects he
  | shown =>
    rcases List.mem_append.1 he with he | he
    · exact client_of_mem_callEffects he
    · exact client_of_mem_emitted he

theorem Received.client_of_mem {ch : Channels} {s : Snapshot} {o o' : ClientState V}
    {effects : List Effect} (h : Received ch s o o' effects) {e : Effect} (he : e ∈ effects) :
    e.client = o.id := by
  cases h with
  | closed => cases he
  | cancelled => exact client_of_mem_sendEffects he
  | concluded _ _ conclusion =>
    rcases List.mem_append.1 he with he | he
    · exact client_of_mem_callEffects he
    · exact conclusion.client_of_mem he

theorem Rejected.client_of_mem {ch : Channels} {error : ServiceError} {o o' : ClientState V}
    {effects : List Effect} (h : Rejected ch o error o' effects) {e : Effect} (he : e ∈ effects) :
    e.client = o.id := by
  cases h with
  | closed => cases he
  | failed =>
    rcases List.mem_append.1 he with he | he
    · exact client_of_mem_callEffects he
    · exact client_of_mem_emitted he
  | cancelled => exact client_of_mem_sendEffects he
  | withdrawn => exact client_of_mem_callEffects he
  | finished =>
    rcases List.mem_append.1 he with he | he
    · exact client_of_mem_callEffects he
    · exact client_of_mem_endEffects (o := o.relieved) he
  | replaced =>
    rcases List.mem_append.1 he with he | he
    · rcases List.mem_append.1 he with he | he
      · exact client_of_mem_callEffects he
      · exact client_of_mem_callEffects he
    · exact client_of_mem_emitted he
  | rejected =>
    rcases List.mem_append.1 he with he | he
    · exact client_of_mem_callEffects he
    · exact client_of_mem_callEffects he

/-- The children whose clients take over when a snapshot comes: none, if a cancel goes out instead. -/
def ClientState.offspring (o : ClientState V) (s : Snapshot) : List Snapshot :=
  if o.phase.isTerminal || (o.pendingCancel && !s.finished) then [] else s.children

omit [ProcessView V] in
theorem ClientState.offspring_subset (o : ClientState V) (s : Snapshot) :
    o.offspring s ⊆ s.children := by
  unfold ClientState.offspring
  split
  · exact List.nil_subset _
  · exact List.Subset.refl _

/-! ## The clients of new children -/

/-- How the clients of a step's children take over, one after the other. -/
def births (ch : Channels) (o : ClientState V) : List Snapshot → List (Turn V Unit)
  | [] => []
  | s :: rest =>
    (Act.attach s).run ch (Act.newChild ⟨o, []⟩ (ProcessView.childPanel o.view s)) ::
      births ch (o.spawned [s]) rest

/-- The clients of a step's children whose processes have not ended by then. -/
def newcomers (ch : Channels) (o : ClientState V) (ss : List Snapshot) : List (Client V) :=
  ((births ch o ss).map (·.client)).filter fun c => !c.phase.isTerminal

/-- What is left behind while the clients of a step's children take over. -/
def spawnEffects (ch : Channels) (o : ClientState V) : List Snapshot → List Effect
  | [] => []
  | s :: rest =>
    callEffects o.id o.view [.openChild s] ++
      ((Act.attach s).run ch (Act.newChild ⟨o, []⟩ (ProcessView.childPanel o.view s))).effects ++
      spawnEffects ch (o.spawned [s]) rest

/-! ## What the steps do -/

namespace Act

variable {ch : Channels}

theorem run_send (h : ch.dispatchOpen = true) (r : Request) (o : ClientState V)
    (kids : List (Client V)) :
    run (send r) ch ⟨o, kids⟩ = ⟨.ok .sent, ⟨o.sent, kids⟩, o.sendEffects r⟩ := by
  have hhand : run (hand r) ch ⟨o, kids⟩ = ⟨.ok (), ⟨o, kids⟩, [.dispatch ⟨o.id, r⟩]⟩ := by
    rw [run_hand, if_pos h]
  unfold send
  rw [run_bind_of_ok hhand]
  simp [ClientState.sent, ClientState.sendEffects]

theorem run_proceed (h : ch.dispatchOpen = true) {o : ClientState V} {s : Snapshot}
    (hs : o.current = some s) (mode : Mode) (event : Option Interaction)
    (kids : List (Client V)) :
    run (proceed mode event) ch ⟨o, kids⟩ =
      ⟨.ok .sent, ⟨o.proceeded s mode, kids⟩,
        o.sendEffects (.continue (outgoing s) mode event)⟩ := by
  unfold proceed
  simp [hs, run_send h, ClientState.proceeded, ClientState.sent, ClientState.sendEffects]

/-- Sends a snapshot on that has just come. -/
theorem run_passOn (h : ch.dispatchOpen = true) (o : ClientState V) (s : Snapshot) (mode : Mode)
    (kids : List (Client V)) :
    run (proceed mode none >>= fun _ => Pure.pure ()) ch ⟨{ o with current := some s }, kids⟩ =
      ⟨.ok (), ⟨o.proceeded s mode, kids⟩,
        o.sendEffects (.continue (outgoing s) mode none)⟩ := by
  rw [run_bind_of_ok (run_proceed h rfl mode none kids), run_pure, Turn.after_mk, List.append_nil]
  rfl

theorem run_finish (s : Snapshot) (previousFinal : Bool) (o : ClientState V)
    (kids : List (Client V)) :
    run (finish s previousFinal) ch ⟨o, kids⟩ =
      ⟨.ok (), ⟨o.ended s previousFinal, kids⟩, o.endEffects ch s previousFinal⟩ := by
  unfold finish
  cases previousFinal
  · simp [ClientState.ended, ClientState.endEffects]
  · simp [ClientState.ended, ClientState.endEffects]

omit [ProcessView V] in
theorem run_emitUpdated {o : ClientState V} {s : Snapshot} (hs : o.current = some s)
    (kids : List (Client V)) :
    run emitUpdated ch ⟨o, kids⟩ = ⟨.ok (), ⟨o, kids⟩, emitted ch (.updated o.id s)⟩ := by
  unfold emitUpdated
  simp [hs, emitted]

/-- Shows a snapshot and tells so. -/
theorem run_show (o : ClientState V) (s : Snapshot) (kids : List (Client V)) :
    run (render s >>= fun _ => emitUpdated) ch ⟨{ o with phase := .interacting }, kids⟩ =
      ⟨.ok (), ⟨o.shown s, kids⟩,
        callEffects o.id o.view (drawCalls o.view o.rendered s) ++
          emitted ch (.updated o.id s)⟩ := by
  rw [run_bind_of_ok (run_render ch { o with phase := .interacting } kids s), run_emitUpdated rfl,
    Turn.after_mk]
  rfl

/-- Receiving, with the snapshot in one piece. -/
theorem receive_eq (s : Snapshot) :
    receive (V := V) s =
      get >>= fun c =>
        if c.phase.isTerminal then Pure.pure () else receiveOpen s (spawnAll s.children) := by
  obtain ⟨_, _, _, _, _, _, _, _, _, _, _, _⟩ := s
  rw [receive]

/-- Lets the client of one child take over. -/
theorem run_spawn {s : Snapshot} {o : ClientState V}
    (hok : (run (attach s) ch (newChild ⟨o, []⟩ (ProcessView.childPanel o.view s))).result =
      .ok ())
    (kids : List (Client V)) :
    run (spawn s (takeOver s.processName (receive s))) ch ⟨o, kids⟩ =
      ⟨.ok (), ⟨o.spawned [s], kids ++ newcomers ch o [s]⟩, spawnEffects ch o [s]⟩ := by
  generalize ht : run (attach s) ch (newChild ⟨o, []⟩ (ProcessView.childPanel o.view s)) = t
    at hok
  obtain ⟨result, client, effects⟩ := t
  obtain rfl : result = .ok () := hok
  -- a child does not depend on the panel that was opened for it, nor on its siblings
  have ht' : takeOver s.processName (receive s) ch
      (newChild ⟨{ o with view := (ProcessView.perform o.view (.openChild s)).2 }, kids⟩
        (ProcessView.childPanel o.view s)) = ⟨.ok (), client, effects⟩ := ht
  rw [newcomers, births, births, spawnEffects, spawnEffects, ht]
  simp only [run, spawn, Bind.bind, Act.bind, get, tell, call, Act.pure, ht']
  cases hc : client.phase.isTerminal
  · simp [ClientState.spawned, hc]
  · simp [ClientState.spawned, hc]

/-- Takes a snapshot in a process that is not over, once it is known how the clients of the children
take over. -/
theorem run_receiveOpen (h : ch.dispatchOpen = true) {s : Snapshot} {spawning : Act V Unit}
    {o : ClientState V} {kids newKids : List (Client V)} {log : List Effect}
    (moot : o.pendingCancel = true → s.finished = true)
    (hspawn : run spawning ch ⟨o.awake, kids⟩ =
      ⟨.ok (), ⟨o.awake.spawned s.children, newKids⟩, log⟩) :
    ∃ o' effects, Concluded ch o.awaitingStart (o.current.any (·.finalStep)) s
        (o.awake.spawned s.children) o' effects ∧
      run (receiveOpen s spawning) ch ⟨o, kids⟩ =
        ⟨.ok (), ⟨o', newKids⟩, callEffects o.id o.view [.setBusy false] ++ log ++ effects⟩ := by
  have hawake : (⟨o.awake, kids⟩ : Client V) =
      ⟨{ o with locked := false, awaitingStart := false, pendingCancel := false
                view := (ProcessView.perform o.view (.setBusy false)).2 }, kids⟩ := rfl
  have hfinal : run onFinalStep ch ⟨o.awake, kids⟩ =
      ⟨.ok (o.current.any (·.finalStep)), ⟨o.awake, kids⟩, []⟩ := rfl
  rw [hawake] at hfinal hspawn
  have hfinal' := run_bind_of_ok (β := Unit) hfinal
  have hspawn' := run_bind_of_ok (β := Unit) hspawn
  have hmoot : (o.pendingCancel && !s.finished) = false := by
    cases hp : o.pendingCancel
    · rfl
    · rw [moot hp]
      rfl
  unfold receiveOpen
  simp only [run_bind_get, run_bind_modify, run_bind_tell, hmoot, Bool.false_eq_true, if_false,
    hfinal', hspawn', Turn.after_after]
  by_cases ended : s.finished = true
  · refine ⟨_, _, .finished ended, ?_⟩
    rw [if_pos ended, run_finish]
    simp
  rw [Bool.not_eq_true] at ended
  by_cases start : o.awaitingStart = true ∧ s.hasOutstandingWork = false
  · refine ⟨_, _, .idleStart ended start.1 start.2, ?_⟩
    simp [ended, start, run_finish]
  have work : o.awaitingStart = true → s.hasOutstandingWork = true := fun hs => by
    cases hw : s.hasOutstandingWork
    · exact absurd ⟨hs, hw⟩ start
    · rfl
  by_cases auto : s.autoContinue = true ∧ o.autoContinuePaused = false
  · refine ⟨_, _, .continued ended work auto.1 auto.2, ?_⟩
    simp only [ended, start, auto, Bool.false_eq_true, Bool.not_false, Bool.and_self, if_false,
      if_true, Bool.and_eq_true, Bool.not_eq_true', run_bind_modify]
    exact congrArg (Turn.after _)
      (run_passOn h { o.awake.spawned s.children with phase := .interacting } s .execute newKids)
  · refine ⟨_, _, .shown ended work fun ha => ?_, ?_⟩
    · cases hp : o.autoContinuePaused
      · exact absurd ⟨ha, hp⟩ auto
      · exact hp
    · simp only [ended, start, auto, Bool.false_eq_true, if_false, Bool.and_eq_true,
        Bool.not_eq_true', run_bind_modify]
      exact congrArg (Turn.after _) (run_show (o.awake.spawned s.children) s newKids)

/-- The clients of several children take over one after the other. -/
theorem newcomers_cons (o : ClientState V) (s : Snapshot) (rest : List Snapshot) :
    newcomers ch o (s :: rest) = newcomers ch o [s] ++ newcomers ch (o.spawned [s]) rest := by
  rw [newcomers, births, List.map_cons, ← List.singleton_append, List.filter_append]
  rfl

theorem spawnEffects_cons (o : ClientState V) (s : Snapshot) (rest : List Snapshot) :
    spawnEffects ch o (s :: rest) = spawnEffects ch o [s] ++ spawnEffects ch (o.spawned [s]) rest := by
  rw [spawnEffects, spawnEffects, spawnEffects, List.append_nil]

theorem spawned_cons (o : ClientState V) (s : Snapshot) (rest : List Snapshot) :
    o.spawned (s :: rest) = (o.spawned [s]).spawned rest := by
  simp [ClientState.spawned, Nat.add_assoc, Nat.add_comm rest.length]

/-- Begins with a process that the server has started. -/
theorem run_attach (ch : Channels) (s : Snapshot) {o : ClientState V} (idle : o.phase = .idle)
    (kids : List (Client V)) :
    run (attach s) ch ⟨o, kids⟩ =
      (run (receive s) ch ⟨{ o with phase := .running }, kids⟩).after
        (emitted ch (.started o.id s.processName)) := by
  unfold attach takeOver
  simp [idle]

/-- The clients of the children take over, if none of their snapshots is refused. -/
theorem run_spawnAll {ss : List Snapshot}
    (hok : ∀ s ∈ ss, ∀ c : Client V, (run (receive s) ch c).result = .ok ())
    (o : ClientState V) (kids : List (Client V)) :
    run (spawnAll ss) ch ⟨o, kids⟩ =
      ⟨.ok (), ⟨o.spawned ss, kids ++ newcomers ch o ss⟩, spawnEffects ch o ss⟩ := by
  induction ss generalizing o kids with
  | nil =>
    rw [spawnAll, run_pure, newcomers, births, spawnEffects]
    simp [ClientState.spawned]
  | cons s rest ih =>
    have hattach : (run (attach s) ch
        (newChild ⟨o, []⟩ (ProcessView.childPanel o.view s))).result = .ok () := by
      rw [newChild, Client.idle, run_attach ch s rfl]
      exact hok s List.mem_cons_self _
    rw [spawnAll, run_bind_of_ok (run_spawn hattach kids),
      ih (fun t ht => hok t (List.mem_cons_of_mem _ ht)), Turn.after_mk, newcomers_cons o s rest,
      spawnEffects_cons o s rest, spawned_cons o s rest, List.append_assoc]

/-- What a snapshot does, if no snapshot of a child is refused. -/
theorem run_receive_of_children (h : ch.dispatchOpen = true) {s : Snapshot}
    (hok : ∀ t ∈ s.children, ∀ c : Client V, (run (receive t) ch c).result = .ok ())
    (o : ClientState V) (kids : List (Client V)) :
    ∃ o' before after,
      Received ch s o o' (before ++
        callEffects o.id o.awake.view ((o.offspring s).map .openChild) ++ after) ∧
      run (receive s) ch ⟨o, kids⟩ =
        ⟨.ok (), ⟨o', kids ++ newcomers ch o.awake (o.offspring s)⟩,
          before ++ spawnEffects ch o.awake (o.offspring s) ++ after⟩ := by
  rw [receive_eq, run_bind_get]
  by_cases going : o.phase.isTerminal = true
  · refine ⟨o, [], [], ?_, ?_⟩
    · have : o.offspring s = [] := by simp [ClientState.offspring, going]
      rw [this]
      exact .closed going
    · simp [ClientState.offspring, going, newcomers, births, spawnEffects]
  rw [if_neg going]
  rw [Bool.not_eq_true] at going
  by_cases waits : o.pendingCancel = true ∧ s.finished = false
  · have hnone : o.offspring s = [] := by simp [ClientState.offspring, waits]
    rw [hnone]
    refine ⟨_, [], _, .cancelled going waits.1 waits.2, ?_⟩
    unfold receiveOpen
    simp only [run_bind_get, run_bind_modify, waits, Bool.not_false, Bool.and_self, if_true]
    rw [newcomers, births, spawnEffects, List.map_nil, List.filter_nil, List.append_nil,
      List.append_nil, List.nil_append]
    exact run_passOn h { o.answered with pendingCancel := false } s .cancel kids
  · have moot : o.pendingCancel = true → s.finished = true := fun hp => by
      cases hs : s.finished
      · exact absurd ⟨hp, hs⟩ waits
      · rfl
    have hall : o.offspring s = s.children := by
      simpa [ClientState.offspring, going] using fun hp hs => absurd ⟨hp, hs⟩ waits
    obtain ⟨o', effects, conclusion, hrun⟩ :=
      run_receiveOpen h moot (run_spawnAll hok o.awake kids)
    rw [hall]
    exact ⟨o', callEffects o.id o.view [.setBusy false], effects,
      .concluded going moot conclusion, hrun⟩

/-- A snapshot is never refused. -/
theorem result_receive (h : ch.dispatchOpen = true) (s : Snapshot) :
    ∀ c : Client V, (run (receive s) ch c).result = .ok () := by
  induction s using Snapshot.forall_of_children with
  | h s ih =>
    rintro ⟨o, kids⟩
    obtain ⟨o', before, after, -, hrun⟩ := run_receive_of_children h ih o kids
    rw [hrun]

/-- What a snapshot does: it does something to the client itself, and lets the clients of children
take over. -/
theorem run_receive (h : ch.dispatchOpen = true) (s : Snapshot) (o : ClientState V)
    (kids : List (Client V)) :
    ∃ o' before after,
      Received ch s o o' (before ++
        callEffects o.id o.awake.view ((o.offspring s).map .openChild) ++ after) ∧
      run (receive s) ch ⟨o, kids⟩ =
        ⟨.ok (), ⟨o', kids ++ newcomers ch o.awake (o.offspring s)⟩,
          before ++ spawnEffects ch o.awake (o.offspring s) ++ after⟩ :=
  run_receive_of_children h (fun t _ => result_receive h t) o kids

/-- A recoverable error while a cancel waits for a process that is known. -/
theorem run_recoverCancelling (h : ch.dispatchOpen = true) (message : String)
    {replacement : Option Snapshot} {o : ClientState V} {s : Snapshot}
    (subject : replacement.or o.current = some s) (kids : List (Client V)) :
    run (recoverCancelling message replacement) ch ⟨o, kids⟩ =
      ⟨.ok (), ⟨ClientState.proceeded { o with pendingCancel := false } s .cancel, kids⟩,
        o.sendEffects (.continue (outgoing s) .cancel none)⟩ := by
  unfold recoverCancelling
  cases replacement with
  | none =>
    have hs : o.current = some s := subject
    simp only [run_bind_modify, run_bind_get, hs, Option.isSome_some, if_true]
    exact run_passOn h { o with pendingCancel := false } s .cancel kids
  | some t =>
    obtain rfl : t = s := Option.some.inj subject
    simp only [run_bind_modify, run_bind_get, Option.isSome_some, if_true]
    exact run_passOn h { o with pendingCancel := false } t .cancel kids

/-- A recoverable error before there is a process. -/
theorem run_withdraw (message : String) {o : ClientState V} (none : o.current = none)
    (kids : List (Client V)) :
    run (recoverCancelling message .none) ch ⟨o, kids⟩ =
      ⟨.ok (),
        ⟨{ o with pendingCancel := false, phase := .idle
                  view := performAll o.view [.setBusy false, .showMessage message] }, kids⟩,
        callEffects o.id o.view [.setBusy false, .showMessage message]⟩ := by
  unfold recoverCancelling
  simp [none]

/-- A recoverable error while no cancel waits. -/
theorem run_recover (message : String) (fieldErrors : KeyMap String)
    (replacement : Option Snapshot) {o : ClientState V} (going : o.phase.isTerminal = false)
    (waits : o.pendingCancel = false) (kids : List (Client V)) :
    ∃ o' effects, Rejected ch o (.recoverable message fieldErrors replacement) o' effects ∧
      run (recover message fieldErrors replacement) ch
          ⟨{ o.answered with cancelSent := false }, kids⟩ =
        ⟨.ok (), ⟨o', kids⟩, effects⟩ := by
  unfold recover
  rw [run_bind_tell, run_bind_get]
  cases replacement with
  | some s =>
    dsimp only
    by_cases ended : s.finished = true
    · refine ⟨_, _, .finished message fieldErrors s going waits ended, ?_⟩
      have hfinal : run onFinalStep ch ⟨o.relieved, kids⟩ =
          ⟨.ok (o.current.any (·.finalStep)), ⟨o.relieved, kids⟩, []⟩ := rfl
      have hend := run_bind_of_ok hfinal fun previousFinal => finish s previousFinal
      rw [run_finish] at hend
      rw [if_pos ended]
      exact congrArg (Turn.after _) hend
    · rw [if_neg ended, run_bind_modify]
      rw [Bool.not_eq_true] at ended
      refine ⟨_, _, .replaced message fieldErrors s going waits ended, ?_⟩
      have hrender := run_bind_of_ok (β := Unit)
        (run_render ch { o.relieved with phase := .interacting } kids s)
      refine (congrArg (Turn.after _) (hrender _)).trans ?_
      simp only [run_bind_tell, Turn.after_after, performAll_append, callEffects_append]
      rw [run_emitUpdated rfl, Turn.after_mk]
      simp [ClientState.relieved, ClientState.answered, ClientState.shown]
  | none =>
    dsimp only
    cases current : o.current with
    | none =>
      refine ⟨_, _, .withdrawn message fieldErrors going current, ?_⟩
      simp [ClientState.answered, current, waits]
    | some s =>
      refine ⟨_, _, .rejected message fieldErrors going waits s current, ?_⟩
      unfold rejectionCalls
      cases empty : fieldErrors.isEmpty
      · simp [current, ClientState.answered, ClientState.relieved, run_showFieldErrors]
      · simp [current, ClientState.answered, ClientState.relieved, run_showFieldErrors]

/-- What an error does: it concerns the client itself only. -/
theorem run_fail (h : ch.dispatchOpen = true) (e : ServiceError) (o : ClientState V)
    (kids : List (Client V)) :
    ∃ o' effects, Rejected ch o e o' effects ∧
      run (fail e) ch ⟨o, kids⟩ = ⟨.ok (), ⟨o', kids⟩, effects⟩ := by
  unfold fail
  rw [run_bind_get]
  by_cases going : o.phase.isTerminal = true
  · exact ⟨o, [], .closed e going, by rw [if_pos going, run_pure]⟩
  rw [if_neg going, run_bind_modify]
  rw [Bool.not_eq_true] at going
  cases e with
  | unrecoverable message cause =>
    refine ⟨_, _, .failed message cause going, ?_⟩
    simp [failFor, ClientState.answered, emitted]
  | recoverable message fieldErrors replacement =>
    dsimp only
    rw [run_bind_modify]
    by_cases waits : o.pendingCancel = true
    · rw [if_pos waits]
      cases subject : replacement.or o.current with
      | some s =>
        exact ⟨_, _, .cancelled message fieldErrors replacement going waits s subject,
          run_recoverCancelling h message (o := { o.answered with cancelSent := false }) subject
            kids⟩
      | none =>
        obtain ⟨rfl, current⟩ := Option.or_eq_none_iff.1 subject
        exact ⟨_, _, .withdrawn message fieldErrors going current,
          run_withdraw message (o := { o.answered with cancelSent := false }) current kids⟩
    · rw [if_neg waits]
      rw [Bool.not_eq_true] at waits
      exact run_recover message fieldErrors replacement going waits kids

end Act

end Stepwise
