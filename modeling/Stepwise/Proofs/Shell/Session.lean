/-
# Sessions of the shell

From the login to the logout a shell holds one tree of clients, and whatever its clients tell goes
through its hands: events that it has handled and events that wait are all that the tree has told. So
what a shell says about the main process is what the client of the main process has told, and nothing
is left of it once the session is closed.

* `Shell.Occupied` : a shell in the middle of a session;
* `Shell.Occupied.takes`, `Shell.Occupied.event` : what becomes of it when a client takes a turn, and
  when an event is handled;
* `Shell.Occupied.shown`, `Shell.Occupied.rests` : what it says when nothing waits;
* `Shell.Seated`, `Shell.cyclic_seated` : what the request cycle keeps.
-/
import Stepwise.Proofs.Client.Annals
import Stepwise.Proofs.Shell.Running

namespace Stepwise

section Trees

variable {V : Type} [ProcessView V]

/-- The step is what an action of the user makes a client do, apart from an outcome of its own; the
client has no new children then. -/
structure UserAction.Makes (a : UserAction) (step : Act V Outcome) : Prop where
  alone : ∀ o : ClientState V, Stimulus.offspring o (.action a) = []
  client : ∀ c : Client V, (step.run .open c).client = (a.act.run .open c).client
  effects : ∀ c : Client V, (step.run .open c).effects = (a.act.run .open c).effects
  refused : ∀ (c : Client V) (e : ClientError), (step.run .open c).result = .error e →
    (a.act.run .open c).result = .error e

theorem UserAction.makes_of_act {a : UserAction} {step : Act V Outcome}
    (alone : ∀ o : ClientState V, Stimulus.offspring o (.action a) = [])
    (h : a.act = (step >>= fun x => pure (some x))) : a.Makes step := by
  have hrun (c : Client V) : a.act.run .open c = ⟨(step.run .open c).result.map some,
      (step.run .open c).client, (step.run .open c).effects⟩ := by
    rw [h]
    exact Act.run_some step c
  refine ⟨alone, fun c => ?_, fun c => ?_, fun c e refused => ?_⟩
  · rw [hrun]
  · rw [hrun]
  · rw [hrun, refused]
    rfl

/-- The user acts on the first client of a tree. -/
theorem TreeRun.acts {top c : Client V} {waiting : List Dispatch} {log : List Effect}
    (run : TreeRun .open top ⟨c, waiting, log⟩) {a : UserAction} {step : Act V Outcome}
    (makes : a.Makes step) :
    TreeRun .open top ⟨(step.run .open c).client,
      waiting ++ dispatchesOf (step.run .open c).effects, log ++ (step.run .open c).effects⟩ := by
  have found : c.operate? c.id a.act .open = some (a.act.run .open c) := by
    obtain ⟨o, kids⟩ := c
    exact if_pos rfl
  rw [makes.client, makes.effects]
  exact run.act c.id a found

/-- The first client of a tree has told its own end only. -/
theorem TreeRun.told {id : ClientId} {view : V} {enabled : Bool} {w : World V}
    (run : TreeRun .open ((Client.idle id view).withAutoContinue enabled) w) :
    Told w.tree.toClientState ((eventsOf w.log).filter fun e => e.client = w.tree.id) := by
  rw [← eventsOf_about]
  exact (((run.chronicle rfl).lived w.tree.mem_states_self).tells rfl rfl).ends

/-- When no request waits, every client of the tree rests. -/
theorem TreeRun.rests {id : ClientId} {view : V} {enabled : Bool} {tree : Client V}
    {log : List Effect}
    (run : TreeRun .open ((Client.idle id view).withAutoContinue enabled) ⟨tree, [], log⟩)
    {o : ClientState V} (ho : o ∈ tree.states) : Resting (about o.id log) o [] := by
  obtain ⟨H, kids, own, hlog⟩ := (run.chronicle rfl).recorded o ho
  rw [← hlog]
  cases own.standing rfl with
  | waits w =>
    have none := w.single
    cases none
  | rests r => exact r

/-- A client that has failed stays so, whatever happens to it. -/
theorem Stimulus.failed_run (i : Stimulus) {c : Client V} (failed : c.phase = .failed) :
    (i.act.run .open c).client.phase = .failed := by
  have taken : Channels.open.dispatchOpen = true := rfl
  obtain ⟨o, kids⟩ := c
  have hphase : o.phase = .failed := failed
  have ended : o.phase.isTerminal = true := by
    rw [hphase]
    rfl
  exact (Stimulus.unmoved taken i ended kids).2.phase.trans hphase

/-- A client that has failed stays so, whatever answers come. -/
theorem Act.failed_route {c : Client V} {id : ClientId} {result : Except ServiceError Snapshot}
    (failed : c.phase = .failed) : ((route id result).run .open c).client.phase = .failed := by
  refine route_top (P := fun o => o.phase = .failed) (fun d hd => ?_) failed
  rw [(Stimulus.run_response result d).1]
  exact (Stimulus.response result).failed_run hd

end Trees

namespace Shell

variable {V σ : Type} [Toolkit V] {shell after : Shell V σ} {c : Client V}
  {handled : List (LifecycleEvent ClientId)}

/-! ## In the middle of a session -/

/-- The session of a user after events, while the main process is that of a client. -/
def sessionAfter (main : ClientId) (user : User) (es : List (LifecycleEvent ClientId)) : Session :=
  es.foldl (fun session e => hear (decide (e.client = main)) session e) (.ofUser user)

theorem sessionAfter_concat (main : ClientId) (user : User) (es : List (LifecycleEvent ClientId))
    (e : LifecycleEvent ClientId) : sessionAfter main user (es ++ [e]) =
      hear (decide (e.client = main)) (sessionAfter main user es) e := by
  rw [sessionAfter, List.foldl_append]
  rfl

/-- The shell is in the middle of a session: its client is the top of a tree of clients whose requests
wait in it, and whose events it has handled so far, or they wait. Its session is what the events that it
has handled have made of it. It has not learned that the main process has finished, and shows as failed
exactly if it has learned that this has failed. -/
structure Occupied (shell : Shell V σ) (c : Client V)
    (handled : List (LifecycleEvent ClientId)) : Prop where
  client : shell.client = some c
  session : ∃ user, shell.desk.session = sessionAfter c.id user handled
  told : ∃ id view enabled log,
    TreeRun .open ((Client.idle id view).withAutoContinue enabled) ⟨c, shell.pending, log⟩ ∧
      eventsOf log = handled ++ shell.events
  going : ∀ e ∈ handled, e.client = c.id → e.isFinished = false
  phase : shell.phase =
    if handled.any fun e => e.client = c.id && e.isFailed then .failed else .active

namespace Occupied

theorem same (occupied : shell.Occupied c handled) (same : shell.Same after) :
    after.Occupied c handled := by
  obtain ⟨client, session, told, going, phase⟩ := occupied
  refine ⟨same.client.trans client, ?_, ?_, going, same.phase.trans phase⟩
  · rw [same.desk]
    exact session
  · rw [same.pending, same.events]
    exact told

/-- Somebody is logged in. -/
theorem user (occupied : shell.Occupied c handled) : shell.user.isSome = true := by
  obtain ⟨user, hsession⟩ := occupied.session
  have key (es : List (LifecycleEvent ClientId)) (session : Session)
      (going : ∀ e ∈ es, e.client = c.id → e.isFinished = false) :
      (es.foldl (fun session e => hear (decide (e.client = c.id)) session e) session).user =
        session.user := by
    induction es generalizing session with
    | nil => rfl
    | cons e es ih =>
      rw [List.foldl_cons, ih _ fun e he => going e (List.mem_cons_of_mem _ he), user_hear]
      rw [Bool.and_eq_false_imp, decide_eq_true_eq]
      exact going e List.mem_cons_self
  rw [Shell.user, hsession, sessionAfter, key handled _ occupied.going]
  rfl

theorem begun (occupied : shell.Occupied c handled) : shell.phase ≠ .loggedOut := by
  rw [occupied.phase]
  split <;> decide

/-- A main process of which the end waits to be handled has finished. -/
theorem finished_of_event (occupied : shell.Occupied c handled) {e : LifecycleEvent ClientId}
    {rest : List (LifecycleEvent ClientId)} (hevents : shell.events = e :: rest)
    (hid : e.client = c.id) (done : e.isFinished = true) : c.phase = .finished := by
  obtain ⟨id, view, enabled, log, run, hlog⟩ := occupied.told
  refine run.told.finished.2 ⟨e, List.mem_filter.2 ⟨?_, decide_eq_true hid⟩, done⟩
  rw [hlog, hevents]
  exact List.mem_append_right _ List.mem_cons_self

/-- An event is handled: the session is closed if the main process has finished, and goes on
otherwise. -/
theorem event (occupied : shell.Occupied c handled) {e : LifecycleEvent ClientId}
    {rest : List (LifecycleEvent ClientId)} (hevents : shell.events = e :: rest)
    (h : Handled { shell with events := rest } e after) :
    (after.Vacant ∧ c.phase = .finished) ∨ after.Occupied c (handled ++ [e]) := by
  have hmain : Shell.isMain { shell with events := rest } e = decide (e.client = c.id) := by
    show shell.client.any _ = _
    rw [occupied.client]
    exact decide_eq_decide.2 eq_comm
  cases h with
  | closed main done vacant =>
    rw [hmain, decide_eq_true_eq] at main
    exact .inl ⟨vacant, occupied.finished_of_event hevents main done⟩
  | noted goes client pending events session phase =>
    rw [hmain] at goes session phase
    obtain ⟨id, view, enabled, log, run, hlog⟩ := occupied.told
    refine .inr ⟨client.trans occupied.client, ?_, ⟨id, view, enabled, log, ?_, ?_⟩, ?_, ?_⟩
    · obtain ⟨user, hsession⟩ := occupied.session
      exact ⟨user, by rw [session, sessionAfter_concat, ← hsession]⟩
    · rw [pending]
      exact run
    · rw [hlog, hevents, events, List.append_assoc]
      rfl
    · intro e' he' hid
      rcases List.mem_append.1 he' with he' | he'
      · exact occupied.going e' he' hid
      · obtain rfl := List.mem_singleton.1 he'
        rwa [decide_eq_true hid, Bool.true_and] at goes
    · rw [phase, occupied.phase, List.any_append, List.any_cons, List.any_nil, Bool.or_false]
      cases handled.any fun e => e.client = c.id && e.isFailed with
      | false => rfl
      | true => exact ite_self _

/-- The client takes a turn that is a step of a run of its tree. -/
theorem takes {α : Type} {t : Turn V α} {remaining : List Dispatch}
    (occupied : shell.Occupied c handled)
    (takes : Takes { shell with pending := remaining } t after)
    (step : ∀ {top : Client V} {log : List Effect}, TreeRun .open top ⟨c, shell.pending, log⟩ →
      TreeRun .open top ⟨t.client, remaining ++ dispatchesOf t.effects, log ++ t.effects⟩) :
    after.Occupied t.client handled := by
  obtain ⟨id, view, enabled, log, run, hlog⟩ := occupied.told
  have hid : t.client.id = c.id := ((step run).named rfl).1.trans (run.named rfl).1.symm
  refine ⟨takes.client, ?_, ⟨id, view, enabled, log ++ t.effects, ?_, ?_⟩, ?_, ?_⟩
  · rw [takes.desk, hid]
    exact occupied.session
  · rw [takes.pending]
    exact step run
  · rw [takes.events, eventsOf_append, hlog, List.append_assoc]
  · rw [hid]
    exact occupied.going
  · rw [takes.phase, hid]
    exact occupied.phase

/-- A session begins with a client that starts the main process. -/
theorem of_started {id : ClientId} {view : V} {enabled : Bool} {d : Descriptor} {t : Turn V Outcome}
    {user : User} (hphase : shell.phase = .active) (hsession : shell.desk.session = .ofUser user)
    (still : shell.Still)
    (ht : (Act.start d).run .open ((Client.idle id view).withAutoContinue enabled) = t)
    (takes : shell.Takes t after) : after.Occupied t.client [] := by
  have makes : (UserAction.start d).Makes (V := V) (Act.start d) :=
    UserAction.makes_of_act (fun _ => rfl) rfl
  refine ⟨takes.client, ?_, ⟨id, view, enabled, t.effects, ?_, ?_⟩, nofun, ?_⟩
  · rw [takes.desk]
    exact ⟨user, hsession⟩
  · rw [takes.pending, still.pending, ← ht]
    exact TreeRun.start.acts makes
  · rw [takes.events, still.events]
    rfl
  · rw [takes.phase, hphase]
    rfl

/-- When nothing waits, the shell shows the main process as it is. -/
theorem shown (occupied : shell.Occupied c handled) (still : shell.Still) :
    c.phase ≠ .finished ∧ (c.phase = .failed ↔ shell.phase = .failed) := by
  obtain ⟨id, view, enabled, log, run, hlog⟩ := occupied.told
  rw [still.events, List.append_nil] at hlog
  have told : Told c.toClientState (handled.filter fun e => e.client = c.id) := by
    have := run.told
    rwa [show eventsOf (World.mk c shell.pending log).log = handled from hlog] at this
  constructor
  · intro ended
    -- it would have told so, and the session would have been closed
    obtain ⟨e, he, done⟩ := told.finished.1 ended
    obtain ⟨he, hid⟩ := List.mem_filter.1 he
    rw [occupied.going e he (of_decide_eq_true hid)] at done
    cases done
  · rw [told.failed, occupied.phase]
    constructor
    · rintro ⟨e, he, failed⟩
      obtain ⟨he, hid⟩ := List.mem_filter.1 he
      refine if_pos (List.any_eq_true.2 ⟨e, he, ?_⟩)
      rw [hid, failed]
      rfl
    · intro failed
      split at failed
      · next hany =>
        obtain ⟨e, he, h⟩ := List.any_eq_true.1 hany
        rw [Bool.and_eq_true] at h
        exact ⟨e, List.mem_filter.2 ⟨he, h.1⟩, h.2⟩
      · cases failed

/-- When nothing waits, every client of the tree rests. -/
theorem rests (occupied : shell.Occupied c handled) (still : shell.Still) {o : ClientState V}
    (ho : o ∈ c.states) : ∃ log, Resting log o [] := by
  obtain ⟨id, view, enabled, log, run, -⟩ := occupied.told
  rw [still.pending] at run
  exact ⟨_, run.rests ho⟩

end Occupied

/-! ## The cycle -/

/-- The shell has no session, or it is in the middle of one; if the main process is `lost`, its client
has failed, and the session goes on until the user logs out. -/
inductive Seated (lost : Prop) (shell : Shell V σ) : Prop where
  | vacant (free : ¬ lost) (vacant : shell.Vacant)
  | occupied {c : Client V} {handled : List (LifecycleEvent ClientId)}
      (occupied : shell.Occupied c handled) (failed : lost → c.phase = .failed)

omit [Toolkit V] in
theorem Vacant.still (vacant : shell.Vacant) : shell.Still := ⟨vacant.pending, vacant.events⟩

/-- The cycle keeps the shell seated. -/
theorem cyclic_seated (lost : Prop) : Cyclic (Seated (V := V) (σ := σ) lost) where
  same h same := by
    cases h with
    | vacant free vacant => exact .vacant free (vacant.same same)
    | occupied occupied failed => exact .occupied (occupied.same same) failed
  event h hevents handled := by
    cases h with
    | vacant _ vacant => rw [vacant.events] at hevents; cases hevents
    | occupied occupied failed =>
      -- a main process that is lost has failed, so it cannot have finished
      rcases occupied.event hevents handled with ⟨vacant, finished⟩ | occupied
      · refine .vacant (fun hlost => ?_) vacant
        rw [failed hlost] at finished
        cases finished
      · exact .occupied occupied failed
  dropped h hpending none := by
    cases h with
    | vacant _ vacant => rw [vacant.pending] at hpending; cases hpending
    | occupied occupied => rw [occupied.client] at none; cases none
  answered h hpending hclient takes := by
    cases h with
    | vacant _ vacant => rw [vacant.pending] at hpending; cases hpending
    | occupied occupied failed =>
      obtain rfl := Option.some.inj (occupied.client.symm.trans hclient)
      refine .occupied (occupied.takes takes fun run => ?_) fun hlost =>
        Act.failed_route (failed hlost)
      rw [hpending, ← List.nil_append (_ :: _)] at run
      exact run.respond _ rfl

end Shell

end Stepwise
