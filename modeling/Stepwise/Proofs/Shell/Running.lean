/-
# Computations on the shell

How the parts of a computation on the shell follow one another, and what its elements do: some only
draw or call the server, some take the effects of clients over. None of those that make up the request
cycle ever ends in an error.

* `Shell.run_bind`, `Shell.of_run_bind` : one part after the other;
* `Shell.Same`, `Shell.Vacant` : how shells stand;
* `Shell.absorb_eq`, `Shell.Takes` : a client's step, with its effects taken over;
* `Shell.run_handleEvent`, `Shell.run_deliver` : events and responses are handled without an error;
* `Shell.Cyclic`, `Shell.run_pump` : so is the whole cycle, which keeps what its parts keep.
-/
import Stepwise.Proofs.Client.Lifecycle
import Stepwise.Proofs.Client.Tree
import Stepwise.Shell.Action

namespace Stepwise.Shell

variable {V σ α β : Type} {shell after : Shell V σ}

/-! ## One part after the other -/

theorem run_pure (shell : Shell V σ) (x : α) :
    shell.run (pure x : Run V σ α) = some (.ok x, shell) := rfl

theorem run_bind (shell : Shell V σ) (a : Run V σ α) (f : α → Run V σ β) :
    shell.run (a >>= f) =
      match shell.run a with
      | some (.ok x, after) => after.run (f x)
      | some (.error e, after) => some (.error e, after)
      | none => none := by
  cases h : shell.run a with
  | none =>
    have hrun : StateT.run (ExceptT.run a) shell = none := h
    rw [run, ExceptT.run_bind, StateT.run_bind, hrun]
    rfl
  | some p =>
    have hrun : StateT.run (ExceptT.run a) shell = some p := h
    rw [run, ExceptT.run_bind, StateT.run_bind, hrun]
    obtain ⟨r, after⟩ := p
    cases r <;> rfl

theorem run_bind_of_ok {a : Run V σ α} {x : α} (h : shell.run a = some (.ok x, after))
    (f : α → Run V σ β) : shell.run (a >>= f) = after.run (f x) := by
  rw [run_bind, h]

theorem run_bind_of_error {a : Run V σ α} {e : ShellError}
    (h : shell.run a = some (.error e, after)) (f : α → Run V σ β) :
    shell.run (a >>= f) = some (.error e, after) := by
  rw [run_bind, h]

/-- What came of two parts came of both, or the first has ended in an error. -/
theorem of_run_bind {a : Run V σ α} {f : α → Run V σ β} {r : Except ShellError β}
    (h : shell.run (a >>= f) = some (r, after)) :
    (∃ x middle, shell.run a = some (.ok x, middle) ∧ middle.run (f x) = some (r, after)) ∨
      ∃ e, shell.run a = some (.error e, after) ∧ r = .error e := by
  rw [run_bind] at h
  cases hrun : shell.run a with
  | none =>
    rw [hrun] at h
    cases h
  | some p =>
    obtain ⟨result, middle⟩ := p
    rw [hrun] at h
    cases result with
    | ok x => exact .inl ⟨x, middle, rfl, h⟩
    | error e =>
      cases h
      exact .inr ⟨e, rfl, rfl⟩

theorem run_bind_get (shell : Shell V σ) (f : Shell V σ → Run V σ β) :
    shell.run (get >>= f) = shell.run (f shell) := rfl

theorem run_bind_set (shell after : Shell V σ) (f : PUnit → Run V σ β) :
    shell.run (set after >>= f) = after.run (f ⟨⟩) := rfl

theorem run_bind_modify (shell : Shell V σ) (g : Shell V σ → Shell V σ)
    (f : PUnit → Run V σ β) : shell.run (modify g >>= f) = (g shell).run (f ⟨⟩) := rfl

/-! ## Elements -/

/-- The shells stand alike; they may differ in what was drawn and in their servers. -/
structure Same (before after : Shell V σ) : Prop where
  desk : after.desk = before.desk
  phase : after.phase = before.phase
  client : after.client = before.client
  pending : after.pending = before.pending
  events : after.events = before.events

theorem Same.refl (shell : Shell V σ) : shell.Same shell := ⟨rfl, rfl, rfl, rfl, rfl⟩

theorem run_draw (shell : Shell V σ) (calls : List PanelCall) :
    shell.run (draw calls) =
      some (.ok (), { shell with drawn := shell.drawn ++ calls.map .panel }) := rfl

theorem run_request (shell : Shell V σ) (call : Service σ α) :
    shell.run (request call) =
      some (.ok (call shell.server).1, { shell with server := (call shell.server).2 }) := rfl

theorem run_push (shell : Shell V σ) (text : String) :
    shell.run (push text) = some (.ok (), { shell with desk := shell.desk.push text }) := rfl

theorem run_act (shell : Shell V σ) (step : Act V α) (c : Client V) :
    shell.run (act step c) = some (.ok ((step.run .open c).result, (step.run .open c).client),
      shell.absorb (step.run .open c).effects) := rfl

/-- A notice that is handled changes the desk only. -/
theorem run_raise {panel : Panel} {n : Notice} (h : (panel.raise n shell.desk).1 = .ok ()) :
    shell.run (raise panel n) =
      some (.ok (), { shell with desk := (panel.raise n shell.desk).2 }) := by
  rw [raise, run_bind_get]
  dsimp only
  rw [run_bind_set, h, run_pure]

theorem run_refresh (shell : Shell V σ) :
    ∃ after, shell.run refresh = some (.ok (), after) ∧ shell.Same after := by
  unfold refresh
  rw [run_bind_get, run_bind_of_ok (run_draw _ _), run_bind_of_ok (run_draw _ _)]
  split
  · exact ⟨_, run_draw _ _, rfl, rfl, rfl, rfl, rfl⟩
  · exact ⟨_, run_pure _ _, rfl, rfl, rfl, rfl, rfl⟩

/-- Effects are taken over: requests and events wait behind those that wait already. -/
theorem absorb_eq (shell : Shell V σ) (effects : List Effect) :
    ∃ drawn, shell.absorb effects =
      { shell with
        drawn
        pending := shell.pending ++ dispatchesOf effects
        events := shell.events ++ eventsOf effects } := by
  induction effects generalizing shell with
  | nil =>
    refine ⟨shell.drawn, ?_⟩
    show shell = _
    rw [dispatchesOf, eventsOf_nil, List.filterMap_nil, List.append_nil, List.append_nil]
  | cons e rest ih =>
    cases e with
    | call id call found =>
      obtain ⟨drawn, h⟩ := ih { shell with drawn := shell.drawn ++ [.view id.place call found] }
      exact ⟨drawn, h⟩
    | dispatch d =>
      obtain ⟨drawn, h⟩ := ih { shell with pending := shell.pending ++ [d] }
      refine ⟨drawn, h.trans ?_⟩
      rw [List.append_assoc]
      rfl
    | event e =>
      obtain ⟨drawn, h⟩ := ih { shell with events := shell.events ++ [e] }
      refine ⟨drawn, h.trans ?_⟩
      rw [List.append_assoc]
      rfl

/-- The shell has no session: nothing is left of an earlier one. -/
structure Vacant (shell : Shell V σ) : Prop where
  phase : shell.phase = .loggedOut
  client : shell.client = none
  desk : shell.desk = .empty
  pending : shell.pending = []
  events : shell.events = []

theorem Vacant.same (vacant : shell.Vacant) (same : shell.Same after) : after.Vacant :=
  ⟨same.phase.trans vacant.phase, same.client.trans vacant.client, same.desk.trans vacant.desk,
    same.pending.trans vacant.pending, same.events.trans vacant.events⟩

/-- Closing the session comes down to one refresh; whether the server is told makes no difference. -/
theorem run_closeSession_eq (shell : Shell V σ) (user : Option User) :
    ∃ server, shell.run (closeSession user) = Shell.run { shell with
      server, client := none, pending := [], events := [], desk := shell.desk.clearMessages,
      phase := .loggedOut, drawn := shell.drawn ++ (loginCalls none).map .panel } refresh := by
  unfold closeSession
  rw [run_bind_get]
  split
  · rw [run_bind_of_ok (run_request _ _), run_bind_modify, run_bind_of_ok (run_draw _ _)]
    exact ⟨_, rfl⟩
  · exact ⟨shell.server, rfl⟩

/-- Once the root has closed the session, nothing is left behind. -/
theorem run_closeSession (shell : Shell V σ) (user : Option User)
    (closed : shell.desk.session = .closed) :
    ∃ after, shell.run (closeSession user) = some (.ok (), after) ∧ after.Vacant := by
  obtain ⟨server, hclose⟩ := run_closeSession_eq shell user
  rw [hclose]
  obtain ⟨after, hrun, same⟩ := run_refresh _
  refine ⟨after, hrun, Vacant.same ⟨rfl, rfl, ?_, rfl, rfl⟩ same⟩
  show (⟨shell.desk.session, []⟩ : Desk) = .empty
  rw [closed]
  rfl

/-- The server is asked, if it executes requests; nothing else happens. -/
theorem run_execute (shell : Shell V σ) (r : Request) :
    ∃ result after, shell.run (execute r) = some (.ok result, after) ∧ shell.Same after := by
  unfold execute
  rw [run_bind_get]
  split
  · exact ⟨_, _, run_request _ _, rfl, rfl, rfl, rfl, rfl⟩
  · exact ⟨_, _, run_pure _ _, .refl shell⟩

/-! ## Events -/

/-- What a session makes of an event; `main` says if it is about the main process. -/
def hear (main : Bool) (session : Session) : LifecycleEvent ClientId → Session
  | .updated _ s => session.remember s
  | .finished _ _ s => if main then .closed else session.forget s.id
  | _ => session

/-- While the main process goes on, its user stays logged in. -/
theorem user_hear {main : Bool} {e : LifecycleEvent ClientId} (goes : (main && e.isFinished) = false)
    (session : Session) : (hear main session e).user = session.user := by
  cases e with
  | finished id parent s =>
    obtain rfl : main = false := (Bool.and_true main).symm.trans goes
    rfl
  | _ => rfl

/-- What becomes of a shell that handles an event. -/
inductive Handled (shell : Shell V σ) (e : LifecycleEvent ClientId) (after : Shell V σ) : Prop where
  /-- The main process has finished, and with it the session. -/
  | closed (main : shell.isMain e = true) (done : e.isFinished = true) (vacant : after.Vacant)
  | noted (goes : (shell.isMain e && e.isFinished) = false) (client : after.client = shell.client)
      (pending : after.pending = shell.pending) (events : after.events = shell.events)
      (session : after.desk.session = hear (shell.isMain e) shell.desk.session e)
      (phase : after.phase = if shell.isMain e && e.isFailed then .failed else shell.phase)
      (server : after.server = shell.server)

/-- An event is handled without an error, whatever the shell. -/
theorem run_handleEvent (shell : Shell V σ) (e : LifecycleEvent ClientId) :
    ∃ after, shell.run (handleEvent e) = some (.ok (), after) ∧ Handled shell e after := by
  have goes (h : e.isFinished = false) : (shell.isMain e && e.isFinished) = false := by
    rw [h, Bool.and_false]
  -- only a failure of the main process changes the phase
  have calm (h : (shell.isMain e && e.isFailed) = false) :
      shell.phase = if shell.isMain e && e.isFailed then .failed else shell.phase := by
    rw [h]
    rfl
  unfold handleEvent
  rw [run_bind_get]
  cases e with
  | started id name =>
    exact ⟨shell, rfl, .noted (goes rfl) rfl rfl rfl rfl (calm (Bool.and_false _)) rfl⟩
  | updated id s =>
    dsimp only
    have noted (panel : Panel) (h : (panel.raise (.processUpdated s) shell.desk).1 = .ok ())
        (session : (panel.raise (.processUpdated s) shell.desk).2.session =
          shell.desk.session.remember s) :
        ∃ after, shell.run (raise panel (.processUpdated s)) = some (.ok (), after) ∧
          Handled shell (.updated id s) after :=
      ⟨_, run_raise h, .noted (goes rfl) rfl rfl rfl session (calm (Bool.and_false _)) rfl⟩
    split
    · exact noted (.messages .root) rfl rfl
    · exact noted .root rfl rfl
  | finished id parent s =>
    dsimp only
    cases main : shell.isMain (.finished id parent s) with
    | true =>
      rw [if_pos rfl, run_bind_of_ok (run_raise rfl)]
      obtain ⟨after, hrun, vacant⟩ := run_closeSession { shell with
        desk := (Panel.toolbar.raise (.processFinished s) shell.desk).2 } shell.user rfl
      exact ⟨after, hrun, .closed main rfl vacant⟩
    | false =>
      rw [if_neg Bool.false_ne_true, run_bind_modify, run_push]
      refine ⟨_, rfl, .noted ?_ rfl rfl rfl ?_ (calm (Bool.and_false _)) rfl⟩
      · rw [main, Bool.false_and]
      · rw [main]
        rfl
  | failed id parent error =>
    dsimp only
    cases main : shell.isMain (.failed id parent error) with
    | true =>
      rw [if_pos rfl, run_bind_modify, run_push]
      refine ⟨_, rfl, .noted (goes rfl) rfl rfl rfl rfl ?_ rfl⟩
      rw [main]
      rfl
    | false =>
      rw [if_neg Bool.false_ne_true]
      refine ⟨_, rfl, .noted (goes rfl) rfl rfl rfl rfl (calm ?_) rfl⟩
      rw [main, Bool.false_and]

/-! ## Responses -/

/-- The client of the main process has taken a turn, and its effects were taken over. -/
structure Takes {α : Type} (shell : Shell V σ) (t : Turn V α) (after : Shell V σ) : Prop where
  desk : after.desk = shell.desk
  phase : after.phase = shell.phase
  client : after.client = some t.client
  pending : after.pending = shell.pending ++ dispatchesOf t.effects
  events : after.events = shell.events ++ eventsOf t.effects

theorem Takes.of_same {α : Type} {before : Shell V σ} {t : Turn V α} (takes : shell.Takes t after)
    (same : before.Same shell) : before.Takes t after :=
  ⟨takes.desk.trans same.desk, takes.phase.trans same.phase, takes.client,
    takes.pending.trans (by rw [same.pending]), takes.events.trans (by rw [same.events])⟩

theorem takes_absorb {α : Type} (shell : Shell V σ) (t : Turn V α) :
    shell.Takes t { shell.absorb t.effects with client := some t.client } := by
  obtain ⟨drawn, h⟩ := shell.absorb_eq t.effects
  rw [h]
  exact ⟨rfl, rfl, rfl, rfl, rfl⟩

section Responses

variable [Toolkit V]

/-- A response is refused only if there is no client for it. -/
theorem result_route (id : ClientId) (result : Except ServiceError Snapshot) (c : Client V) :
    ((Act.route id result).run .open c).result = .ok () ∨
      ((Act.route id result).run .open c).result = .error (.unknownClient id) := by
  have respond (c : Client V) : ((Act.respond result).run .open c).result = .ok () := by
    cases result with
    | ok s => exact Act.result_receive rfl s c
    | error e =>
      obtain ⟨o, kids⟩ := c
      have taken : Channels.open.dispatchOpen = true := rfl
      obtain ⟨o', effects, -, hrun⟩ := Act.run_fail taken e o kids
      exact congrArg Turn.result hrun
  rcases Act.route_spec id result .open c with ⟨-, hrun⟩ | step
  · rw [hrun]
    exact .inr rfl
  · refine .inl ?_
    generalize (Act.route id result).run .open c = t at step
    induction step with
    | here => exact respond _
    | under _ _ ih => exact ih

/-- A response is delivered without an error, whatever the shell. -/
theorem run_deliver (shell : Shell V σ) (id : ClientId) (result : Except ServiceError Snapshot) :
    ∃ after, shell.run (deliver id result) = some (.ok (), after) ∧
      (shell.client = none → after = shell) ∧
      ∀ c, shell.client = some c →
        after = { shell.absorb ((Act.route id result).run .open c).effects with
          client := some ((Act.route id result).run .open c).client } := by
  unfold deliver
  rw [run_bind_get]
  cases hclient : shell.client with
  | none => exact ⟨shell, rfl, fun _ => rfl, nofun⟩
  | some c =>
    dsimp only
    rw [run_bind_of_ok (run_act _ _ _), run_bind_modify]
    refine ⟨_, ?_, nofun, fun d hd => by rw [← Option.some.inj hd]⟩
    rcases result_route id result c with h | h
    · rw [h]
      rfl
    · rw [h]
      rfl

/-! ## The cycle -/

/-- What is kept while events are handled and requests are executed. -/
structure Cyclic (P : Shell V σ → Prop) : Prop where
  same : ∀ {shell after : Shell V σ}, P shell → shell.Same after → P after
  event : ∀ {shell after : Shell V σ} {e : LifecycleEvent ClientId}
    {rest : List (LifecycleEvent ClientId)}, P shell → shell.events = e :: rest →
    Handled { shell with events := rest } e after → P after
  dropped : ∀ {shell : Shell V σ} {d : Dispatch} {rest : List Dispatch}, P shell →
    shell.pending = d :: rest → shell.client = none → P { shell with pending := rest }
  answered : ∀ {shell after : Shell V σ} {d : Dispatch} {rest : List Dispatch} {c : Client V}
    {result : Except ServiceError Snapshot}, P shell → shell.pending = d :: rest →
    shell.client = some c →
    Takes { shell with pending := rest } ((Act.route d.client result).run .open c) after → P after

variable {P : Shell V σ → Prop}

omit [Toolkit V] in
/-- Handling one event adds none. -/
theorem Handled.length_events {e : LifecycleEvent ClientId} (handled : Handled shell e after) :
    after.events.length ≤ shell.events.length := by
  cases handled with
  | closed _ _ vacant => rw [vacant.events]; exact Nat.zero_le _
  | noted _ _ _ events => exact Nat.le_of_eq (congrArg List.length events)

omit [Toolkit V] in
/-- All events are handled without an error. -/
theorem run_handleEvents (event : ∀ {shell after : Shell V σ} {e : LifecycleEvent ClientId}
      {rest : List (LifecycleEvent ClientId)}, P shell → shell.events = e :: rest →
      Handled { shell with events := rest } e after → P after) (count : Nat) :
    ∀ shell : Shell V σ, P shell → shell.events.length ≤ count →
      ∃ after, shell.run (handleEvents count) = some (.ok (), after) ∧ P after ∧
        after.events = [] := by
  -- no event is added meanwhile, so those that wait are fewer with each that is handled
  induction count with
  | zero =>
    exact fun shell h hcount =>
      ⟨shell, rfl, h, List.eq_nil_of_length_eq_zero (Nat.le_zero.1 hcount)⟩
  | succ count ih =>
    intro shell h hcount
    rw [handleEvents, run_bind_get]
    cases hevents : shell.events with
    | nil => exact ⟨shell, rfl, h, hevents⟩
    | cons e rest =>
      dsimp only
      obtain ⟨middle, hrun, handled⟩ := run_handleEvent { shell with events := rest } e
      have hlength : middle.events.length ≤ rest.length := handled.length_events
      rw [hevents, List.length_cons] at hcount
      rw [run_bind_set, run_bind_of_ok hrun]
      exact ih middle (event h hevents handled) (by omega)

/-- Nothing waits any more. -/
structure Still (shell : Shell V σ) : Prop where
  pending : shell.pending = []
  events : shell.events = []

omit [Toolkit V] in
theorem Still.same (still : shell.Still) (same : shell.Same after) : after.Still :=
  ⟨same.pending.trans still.pending, same.events.trans still.events⟩

/-- The cycle never ends in an error; when it ends, nothing waits any more. -/
theorem run_pump (cyclic : Cyclic P) (rounds : Nat) :
    ∀ {shell after : Shell V σ} {r : Except ShellError Unit}, P shell →
      shell.run (pump rounds) = some (r, after) → r = .ok () ∧ P after ∧ after.Still := by
  induction rounds with
  | zero =>
    intro shell after r _ hrun
    cases hrun
  | succ rounds ih =>
    intro shell after r h hrun
    -- all events are handled before the next request is executed
    obtain ⟨quiet, hdrain, hquiet, hevents⟩ :=
      run_handleEvents cyclic.event shell.events.length shell h (Nat.le_refl _)
    have hdrain : shell.run drain = some (.ok (), quiet) := hdrain
    rw [pump, run_bind_of_ok hdrain, run_bind_get] at hrun
    cases hpending : quiet.pending with
    | nil =>
      rw [hpending] at hrun
      obtain ⟨last, hrefresh, same⟩ := run_refresh quiet
      dsimp only at hrun
      rw [hrefresh] at hrun
      cases hrun
      exact ⟨rfl, cyclic.same hquiet same, Still.same ⟨hpending, hevents⟩ same⟩
    | cons d rest =>
      rw [hpending] at hrun
      obtain ⟨result, asked, hexecute, same⟩ := run_execute { quiet with pending := rest } d.request
      obtain ⟨answered, hdeliver, hnone, hsome⟩ := run_deliver asked d.client result
      dsimp only at hrun
      rw [run_bind_set, run_bind_of_ok hexecute, run_bind_of_ok hdeliver] at hrun
      refine ih ?_ hrun
      cases hclient : quiet.client with
      | none =>
        rw [hnone (same.client.trans hclient)]
        exact cyclic.same (cyclic.dropped hquiet hpending hclient) same
      | some c =>
        rw [hsome c (same.client.trans hclient)]
        exact cyclic.answered hquiet hpending hclient ((takes_absorb asked _).of_same same)

/-- Whatever the shell: the cycle never ends in an error, and leaves nothing waiting. -/
theorem still_of_run_pump {rounds : Nat} {r : Except ShellError Unit}
    (h : shell.run (pump rounds) = some (r, after)) : r = .ok () ∧ after.Still := by
  have cyclic : Cyclic fun _ : Shell V σ => True :=
    ⟨fun _ _ => trivial, fun _ _ _ => trivial, fun _ _ _ => trivial, fun _ _ _ _ => trivial⟩
  obtain ⟨returns, -, still⟩ := run_pump cyclic rounds trivial h
  exact ⟨returns, still⟩

end Responses

end Stepwise.Shell
