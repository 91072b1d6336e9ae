/-
# What still runs once the first client has finished

When the process of the first client ends on the server, all processes below it end with it. A client
also finishes without its server when the answer to its start has nothing to interact with; then the
process that was started stays, and it is the only one. Whatever a client asks for after its start is
about a process that it has, so nothing new comes up afterwards.

* `Request.Continues`, `Stimulus.continues_run` : only a client that has not begun asks for a start;
* `Joined.deserted` : with no client left, no process is left;
* `Deserted`, `Stranded`, `Stage` : how far the processes of a tree have come;
* `ServedRun.stage` : this is so at every point of a run;
* `finished_leaves_no_process` : what is left when the first client has finished;
* `idle_start_leaves_process` : the exception.
-/
import Stepwise.Proofs.Client.Survival
import Stepwise.Proofs.Joint.Run

namespace Stepwise

variable {V : Type} [ProcessView V] {ch : Channels}

/-! ## Requests after the start -/

/-- The request goes on with a process. -/
def Request.Continues (r : Request) : Prop := ∃ t mode event, r = .continue t mode event

theorem Request.continues_of_mem {r : Request} {t : Snapshot} {mode : Mode}
    {event : Option Interaction} (hr : r ∈ [Request.continue t mode event]) : r.Continues :=
  ⟨t, mode, event, List.mem_singleton.1 hr⟩

omit [ProcessView V] in
/-- What a client with a snapshot has asked for goes on with its process. -/
theorem Matches.continues {o : ClientState V} {r : Request} (matching : Matches o r) {s : Snapshot}
    (current : o.current = some s) : r.Continues := by
  cases matching with
  | start _ fresh => rw [current] at fresh; cases fresh
  | «continue» t mode event => exact ⟨t, mode, event, rfl⟩

section Continues

variable {o o' : ClientState V} {kids : List (Client V)} {i : Stimulus} {effects : List Effect}
  {r : Request}

theorem Received.continues {s : Snapshot} (received : Received ch s o o' effects)
    (hr : r ∈ requestsOf effects) : r.Continues := by
  cases received with
  | closed => cases hr
  | cancelled => exact Request.continues_of_mem hr
  | concluded _ _ conclusion =>
    rw [requestsOf_append, requestsOf_callEffects, List.nil_append] at hr
    cases conclusion with
    | finished | idleStart => rw [requestsOf_endEffects] at hr; cases hr
    | continued => exact Request.continues_of_mem hr
    | shown => rw [requestsOf_append, requestsOf_callEffects, requestsOf_emitted] at hr; cases hr

theorem Rejected.continues {e : ServiceError} (rejected : Rejected ch o e o' effects)
    (hr : r ∈ requestsOf effects) : r.Continues := by
  cases rejected with
  | closed => cases hr
  | failed => rw [requestsOf_append, requestsOf_callEffects, requestsOf_emitted] at hr; cases hr
  | cancelled => exact Request.continues_of_mem hr
  | withdrawn => rw [requestsOf_callEffects] at hr; cases hr
  | finished => rw [requestsOf_append, requestsOf_callEffects, requestsOf_endEffects] at hr; cases hr
  | replaced =>
    rw [requestsOf_append, requestsOf_append, requestsOf_callEffects, requestsOf_callEffects,
      requestsOf_emitted] at hr
    cases hr
  | rejected => rw [requestsOf_append, requestsOf_callEffects, requestsOf_callEffects] at hr; cases hr

theorem Resumed.continues {x : Outcome} (resumed : Resumed o x o' effects)
    (hr : r ∈ requestsOf effects) : r.Continues := by
  cases resumed with
  | stayed => cases hr
  | continued => exact Request.continues_of_mem hr

/-- Only its start makes a client ask for a new process. -/
theorem Reaction.continues {res : Except ClientError (Option Outcome)}
    (reaction : Reaction ch o i res o' effects) (begun : o.phase ≠ .idle ∨ ∀ d, i ≠ .action (.start d))
    (hr : r ∈ requestsOf effects) : r.Continues := by
  cases reaction with
  | started d idle =>
    rcases begun with begun | other
    · exact absurd idle begun
    · exact absurd rfl (other d)
  | attached _ _ received =>
    rw [requestsOf_append, requestsOf_emitted, List.nil_append] at hr
    exact received.continues hr
  | asked => rw [requestsOf_callEffects] at hr; cases hr
  | navigated | cancelled | accepted => exact Request.continues_of_mem hr
  | declinedResumed _ _ _ resumed => exact resumed.continues hr
  | resumed resumed => exact resumed.continues hr
  | received received => exact received.continues hr
  | rejected rejected => exact rejected.continues hr
  | refused | ignored | edited | deferred | answerLost | acceptedLocked | declined | paused => cases hr

/-- What is handed over meanwhile is what the clients of new children hand over. -/
theorem exists_birth_of_dispatch {ss : List Snapshot} {d : Dispatch}
    (hd : d ∈ dispatchesOf (spawnEffects ch o ss)) :
    ∃ t ∈ births ch o ss, d ∈ dispatchesOf t.effects := by
  induction ss generalizing o with
  | nil => cases hd
  | cons s rest ih =>
    rw [spawnEffects, dispatchesOf_append, dispatchesOf_append, dispatchesOf_callEffects,
      List.nil_append] at hd
    rcases List.mem_append.1 hd with hd | hd
    · exact ⟨_, List.mem_cons_self, hd⟩
    · obtain ⟨t, ht, hd⟩ := ih hd
      exact ⟨t, List.mem_cons_of_mem _ ht, hd⟩

/-- Everything that is handed over goes on with a process, if that is so for the clients of new
children. -/
theorem Stimulus.continues_of_follows {t : Turn V (Option Outcome)} (follows : i.Follows ch o kids t)
    (begun : o.phase ≠ .idle ∨ ∀ d, i ≠ .action (.start d))
    (hbirths : ∀ u ∈ births ch o.awake (i.offspring o), ∀ d ∈ dispatchesOf u.effects,
      d.request.Continues) {d : Dispatch} (hd : d ∈ dispatchesOf t.effects) :
    d.request.Continues := by
  obtain ⟨r, o', before, after, reaction, -, rfl⟩ := follows
  have own (hd : d ∈ dispatchesOf before ∨ d ∈ dispatchesOf after) : d.request.Continues := by
    refine reaction.continues begun ?_
    rw [requestsOf_append, requestsOf_append, requestsOf_callEffects, List.append_nil,
      List.mem_append]
    exact hd.imp (List.mem_map_of_mem ·) (List.mem_map_of_mem ·)
  rw [dispatchesOf_append, dispatchesOf_append] at hd
  rcases List.mem_append.1 hd with hd | hd
  · rcases List.mem_append.1 hd with hd | hd
    · exact own (.inl hd)
    · obtain ⟨u, hu, hd⟩ := exists_birth_of_dispatch hd
      exact hbirths u hu d hd
  · exact own (.inr hd)

/-- A client that takes over asks for no new process, nor do the clients of its children. -/
theorem continues_attach (h : ch.dispatchOpen = true) (s : Snapshot) :
    ∀ c : Client V, c.phase = .idle → ∀ d ∈ dispatchesOf ((Act.attach s).run ch c).effects,
      d.request.Continues := by
  induction s using Snapshot.forall_of_children with
  | h s ih =>
    rintro ⟨o, kids⟩ idle d hd
    have follows := Stimulus.follows_run h (.action (.attach s)) o kids
    rw [run_act_attach h s idle] at follows
    refine Stimulus.continues_of_follows follows (.inr fun _ same => by cases same) (fun u hu d hd => ?_) hd
    obtain ⟨t, ht, n, v, rfl⟩ := exists_of_mem_births hu
    exact ih t (Stimulus.offspring_attach ht) _ rfl d hd

/-- Whatever happens to a client that has begun, nobody asks for a new process. -/
theorem Stimulus.continues_run (h : ch.dispatchOpen = true) {c : Client V}
    (begun : c.phase ≠ .idle ∨ ∀ d, i ≠ .action (.start d)) {d : Dispatch}
    (hd : d ∈ dispatchesOf (i.act.run ch c).effects) : d.request.Continues := by
  obtain ⟨o, kids⟩ := c
  refine continues_of_follows (i.follows_run h o kids) begun (fun u hu d hd => ?_) hd
  obtain ⟨s, -, n, v, rfl⟩ := exists_of_mem_births hu
  exact continues_attach h s _ rfl d hd

end Continues

/-! ## Nothing is left -/

omit [ProcessView V] in
/-- With no client left, no process is left, and what still waits is about processes that have ended. -/
theorem Joined.deserted {waiting : List Dispatch} {server : Server}
    (j : Joined ([] : List (Client V)) waiting server) :
    server.instances = [] ∧ ∀ d ∈ waiting, d.request.Continues := by
  have spent : ∀ d ∈ waiting, d.request.Spent server := fun d hd =>
    j.strangers d hd fun o ho => by cases ho
  refine ⟨List.eq_nil_iff_forall_not_mem.2 fun p hp => ?_, fun d hd => ?_⟩
  · rcases j.covered p hp with known | ⟨d, hd, x, ⟨u, event, hcancel, hx⟩, below⟩
    · cases known
    · -- a cancel that covers a process is about one that has not ended
      obtain ⟨t, mode, event', hrequest, -, nobody⟩ := spent d hd
      obtain ⟨rfl, -, -⟩ := Request.continue.inj (hrequest.symm.trans hcancel)
      exact nobody p hp (hx ▸ below)
  · obtain ⟨t, mode, event, hrequest, -, -⟩ := spent d hd
    exact ⟨t, mode, event, hrequest⟩

/-- Only an answer to the top of the tree ends it. -/
theorem Joined.answered_top {tree : Client V} {waiting : List Dispatch} {server : Server}
    (j : Joined [tree] waiting server) {id : ClientId} {result : Except ServiceError Snapshot}
    {t : Turn V Unit} (ht : (Act.route id result).run ch tree = t)
    (terminal : t.client.phase.isTerminal = true) : id = tree.id := by
  subst ht
  have going := j.lively_tree tree.mem_states_self
  by_contra other
  have same : ((Act.route id result).run ch tree).client.toClientState = tree.toClientState := by
    rcases Act.route_spec id result ch tree with ⟨-, hrun⟩ | step
    · rw [hrun]
    · exact step.top_of_ne (Ne.symm other)
  rw [same, going] at terminal
  cases terminal

/-- A server without processes knows none that a request could go on with. -/
theorem Answered.nobody {before after : Server} {r : Request} {result : Except ServiceError Snapshot}
    (answered : Answered before r result after) (continues : r.Continues)
    (nobody : before.instances = []) : after.instances = [] := by
  obtain ⟨t, mode, event, rfl⟩ := continues
  have none {p : Instance} (hp : p ∈ before.instances) : False := by
    rw [nobody] at hp
    cases hp
  cases answered with
  | unknown _ _ _ _ same => exact same.trans nobody
  | invalid _ _ hp => exact (none hp).elim
  | stuck _ _ hp => exact (none hp).elim
  | ended _ _ _ hp => exact (none hp).elim
  | entered _ _ _ hp => exact (none hp).elim

/-- What the top of the tree has asked for. -/
def World.sent (w : World V) : List Request := requestsOf (about w.tree.id w.log)

/-- No process runs, and none will be started any more. The top of the tree has failed, or has not only
asked for its start. -/
structure Deserted (w : World V) (server : Server) : Prop where
  begun : w.tree.phase.isTerminal = true ∨ w.tree.current.isSome = true
  nobody : server.instances = []
  waits : ∀ d ∈ w.waiting, d.request.Continues
  moved : w.tree.phase = .failed ∨ w.sent = [] ∨ ∃ r ∈ w.sent, r.Continues

/-- The client has finished on the answer to its start, and the process that was started still runs. -/
structure Stranded (w : World V) (server : Server) : Prop where
  finished : w.tree.phase = .finished
  childless : w.tree.children = []
  answered : w.waiting = []
  sent : ∃ d, w.sent = [.start d]
  left : ∃ (p : Instance) (s : Snapshot), server.instances = [p] ∧ p.parent = none ∧ s.Agrees p ∧
    s.hasOutstandingWork = false ∧ w.tree.current = some { s with finished := true }

/-- How far the processes of a tree of clients have come. -/
inductive Stage (w : World V) (server : Server) : Prop where
  /-- Whatever the top of the tree has asked for was not answered so far. -/
  | unstarted (u : Unstarted w.tree w.waiting server)
      (sent : w.sent = waitingFor w.tree.id w.waiting)
  | joined (j : Joined [w.tree] w.waiting server)
  | deserted (d : Deserted w server)
  | stranded (s : Stranded w server)

section Stage

variable {tree : Client V} {waiting remaining : List Dispatch} {log effects : List Effect}
  {before after : Server}

omit [ProcessView V] in
theorem sent_append {c : Client V} (named : c.id = tree.id) (waiting : List Dispatch) :
    World.sent ⟨c, remaining, log ++ effects⟩ =
      World.sent ⟨tree, waiting, log⟩ ++ waitingFor tree.id (dispatchesOf effects) := by
  rw [World.sent, named, about_append, requestsOf_append, requestsOf_about tree.id effects]
  rfl

/-- Whatever happens to a client that has begun, it has begun, and failed if it had failed. -/
theorem Stimulus.begun_run (h : ch.dispatchOpen = true) (i : Stimulus) {c : Client V}
    (begun : c.phase.isTerminal = true ∨ c.current.isSome = true) :
    ((i.act.run ch c).client.phase.isTerminal = true ∨
      (i.act.run ch c).client.current.isSome = true) ∧
    (c.phase = .failed → (i.act.run ch c).client.phase = .failed) := by
  obtain ⟨o, kids⟩ := c
  refine ⟨begun.imp (i.isTerminal_run h _) fun shown => ?_, fun failed => ?_⟩
  · obtain ⟨r, o', front, back, reaction, -, hrun⟩ := i.follows_run h o kids
    rw [hrun]
    exact reaction.isSome_current shown
  · obtain ⟨-, -, stands⟩ := i.still_run h (congrArg Phase.isTerminal failed) kids
    exact stands.phase.trans failed

omit [ProcessView V] in
/-- Whoever has not only asked for its start has not only done so later. -/
theorem moved_append {c : Client V} (named : c.id = tree.id)
    (continues : ∀ e ∈ dispatchesOf effects, e.request.Continues)
    (moved : World.sent ⟨tree, waiting, log⟩ = [] ∨
      ∃ r ∈ World.sent ⟨tree, waiting, log⟩, r.Continues) :
    World.sent ⟨c, remaining, log ++ effects⟩ = [] ∨
      ∃ r ∈ World.sent ⟨c, remaining, log ++ effects⟩, r.Continues := by
  rw [sent_append named waiting]
  rcases moved with none | ⟨r, hr, hcontinues⟩
  · rw [none, List.nil_append]
    cases hnew : waitingFor tree.id (dispatchesOf effects) with
    | nil => exact .inl rfl
    | cons r rest =>
      obtain ⟨e, he, rfl⟩ := List.mem_map.1 (hnew ▸ List.mem_cons_self : r ∈ waitingFor _ _)
      exact .inr ⟨_, List.mem_cons_self, continues e (List.mem_filter.1 he).1⟩
  · exact .inr ⟨r, List.mem_append_left _ hr, hcontinues⟩

/-- Before it begins, a client waits for nothing. -/
theorem Unstarted.quiet (h : ch.dispatchOpen = true) {server : Server}
    (u : Unstarted tree waiting server) (chron : Chronicle ch tree waiting log)
    (idle : tree.phase = .idle) : waiting = [] := by
  obtain ⟨_, st, -⟩ := chron.carries h tree.mem_states_self
  refine List.eq_nil_iff_forall_not_mem.2 fun d hd => ?_
  have hwaits := mem_waitingFor hd (u.own d hd)
  cases st with
  | waits w =>
    have running : tree.phase = .running := w.running
    rw [idle] at running
    cases running
  | rests r =>
    rw [r.none] at hwaits
    cases hwaits

namespace Deserted

variable {server : Server}

omit [ProcessView V] in
/-- It stays so while nobody asks for a new process. -/
theorem onward (d : Deserted ⟨tree, waiting, log⟩ before) {c : Client V} (named : c.id = tree.id)
    (begun : (c.phase.isTerminal = true ∨ c.current.isSome = true) ∧
      (tree.phase = .failed → c.phase = .failed))
    (nobody : after.instances = []) (fewer : ∀ e ∈ remaining, e ∈ waiting)
    (continues : ∀ e ∈ dispatchesOf effects, e.request.Continues) :
    Deserted ⟨c, remaining ++ dispatchesOf effects, log ++ effects⟩ after := by
  refine ⟨begun.1, nobody, fun e he => ?_, ?_⟩
  · exact (List.mem_append.1 he).elim (fun he => d.waits e (fewer e he)) (continues e)
  · exact d.moved.imp begun.2 (moved_append named continues)

/-- Everybody has begun. -/
theorem not_idle (h : ch.dispatchOpen = true) (d : Deserted ⟨tree, waiting, log⟩ server)
    (chron : Chronicle ch tree waiting log) (peopled : Peopled tree log) {c : Client V}
    (hc : c ∈ tree.members) : c.phase ≠ .idle := by
  have hcs : c.toClientState ∈ tree.states := List.mem_map_of_mem hc
  have begun (shown : c.current.isSome = true) : c.phase ≠ .idle := by
    obtain ⟨s, current⟩ := Option.isSome_iff_exists.1 shown
    exact chron.begun h hcs current
  by_cases top : c.id = tree.id
  · obtain rfl := chron.placed.eq_of_id hc tree.mem_members_self top
    rcases d.begun with ended | shown
    · intro idle
      rw [idle] at ended
      cases ended
    · exact begun shown
  · exact begun (peopled.going _ hcs top).2

/-- What a user does. -/
theorem act (h : ch.dispatchOpen = true) (d : Deserted ⟨tree, waiting, log⟩ server)
    (chron : Chronicle ch tree waiting log) (peopled : Peopled tree log) {id : ClientId}
    {a : UserAction} {t : Turn V (Option Outcome)}
    (step : StepsAt id (fun _ => true) a.act ch tree t) (named : t.client.id = tree.id) :
    Deserted ⟨t.client, waiting ++ dispatchesOf t.effects, log ++ t.effects⟩ server := by
  refine d.onward named ?_ d.nobody (fun e he => he) fun e he => ?_
  · refine step.top (P := fun o => (o.phase.isTerminal = true ∨ o.current.isSome = true) ∧
      (tree.phase = .failed → o.phase = .failed)) (fun c hc => ?_) ⟨d.begun, fun failed => failed⟩
    obtain ⟨begun, failed⟩ := Stimulus.begun_run h (.action a) hc.1
    exact ⟨begun, fun hfailed => failed (hc.2 hfailed)⟩
  · obtain ⟨c, hc, -, -, heffects, -⟩ := step.mem_states chron.placed
    rw [heffects] at he
    exact Stimulus.continues_run h (i := .action a) (.inl (d.not_idle h chron peopled hc)) he

/-- The execution of the oldest request, with its answer. -/
theorem deliver (h : ch.dispatchOpen = true) {e : Dispatch} {newer : List Dispatch}
    (d : Deserted ⟨tree, e :: newer, log⟩ before) (chron : Chronicle ch tree (e :: newer) log)
    {result : Except ServiceError Snapshot} (answered : Answered before e.request result after)
    (named : ((Act.route e.client result).run ch tree).client.id = tree.id) :
    Deserted ⟨((Act.route e.client result).run ch tree).client,
      newer ++ dispatchesOf ((Act.route e.client result).run ch tree).effects,
      log ++ ((Act.route e.client result).run ch tree).effects⟩ after := by
  refine d.onward named ?_ (answered.nobody (d.waits e List.mem_cons_self) d.nobody)
    (fun u hu => List.mem_cons_of_mem _ hu) fun u hu => ?_
  · refine Act.route_top (P := fun o => (o.phase.isTerminal = true ∨ o.current.isSome = true) ∧
      (tree.phase = .failed → o.phase = .failed)) (fun c hc => ?_) ⟨d.begun, fun failed => failed⟩
    obtain ⟨begun, failed⟩ := Stimulus.begun_run h (.response result) hc.1
    rw [(Stimulus.run_response result c).1]
    exact ⟨begun, fun hfailed => failed (hc.2 hfailed)⟩
  · rcases Act.route_spec e.client result ch tree with ⟨-, hrun⟩ | step
    · rw [hrun] at hu
      cases hu
    · obtain ⟨c, hc, -, -, heffects, -⟩ := step.mem_states chron.placed
      rw [heffects, (Stimulus.run_response result c).2] at hu
      exact Stimulus.continues_run h (i := .response result)
        (.inr fun _ same => by cases same) hu

end Deserted

/-- Whatever a user does, a client that is stranded stays so. -/
theorem Stranded.act (h : ch.dispatchOpen = true) {server : Server}
    (s : Stranded ⟨tree, waiting, log⟩ server) {id : ClientId} {a : UserAction}
    {t : Turn V (Option Outcome)} (step : StepsAt id (fun _ => true) a.act ch tree t)
    (named : t.client.id = tree.id) :
    Stranded ⟨t.client, waiting ++ dispatchesOf t.effects, log ++ t.effects⟩ server := by
  obtain ⟨o, kids⟩ := tree
  obtain rfl : kids = [] := s.childless
  obtain rfl : waiting = [] := s.answered
  obtain ⟨-, rfl⟩ := step.alone
  obtain ⟨silent, childless, stands⟩ := Stimulus.still_run h (.action a)
    (congrArg Phase.isTerminal s.finished) ([] : List (Client V))
  have silent : (a.act.run ch ⟨o, []⟩).effects = [] := silent
  obtain ⟨p, u, left, root, agrees, work, current⟩ := s.left
  rw [silent]
  refine ⟨stands.phase.trans s.finished, childless, rfl, ?_, p, u, left, root, agrees, work,
    stands.current.trans current⟩
  have none : waitingFor (Client.mk o []).id (dispatchesOf []) = [] := rfl
  rw [sent_append named [], none, List.append_nil]
  exact s.sent

/-- A client that takes over a process of its own, which the server does not know, is with nobody there
from its beginning. -/
theorem Unstarted.deserted (h : ch.dispatchOpen = true) {server : Server}
    (u : Unstarted tree waiting server) (sent : World.sent ⟨tree, waiting, log⟩ =
      waitingFor tree.id waiting) (chron : Chronicle ch tree waiting log) (idle : tree.phase = .idle)
    (s : Snapshot) {t : Turn V (Option Outcome)}
    (step : StepsAt tree.id (fun _ => true) (UserAction.attach s).act ch tree t)
    (named : t.client.id = tree.id) :
    Deserted ⟨t.client, waiting ++ dispatchesOf t.effects, log ++ t.effects⟩ server := by
  obtain rfl := u.quiet h chron idle
  obtain ⟨o, kids⟩ := tree
  obtain rfl : kids = [] := u.childless
  obtain ⟨-, rfl⟩ := step.alone
  have continues : ∀ e ∈ dispatchesOf ((UserAction.attach s).act.run ch ⟨o, []⟩).effects,
      e.request.Continues := fun e he =>
    Stimulus.continues_run h (i := .action (.attach s)) (.inr fun _ same => by cases same) he
  refine ⟨.inr ?_, u.nobody, fun e he => continues e he, .inr ?_⟩
  · have hrun := run_act_attach h s (c := ⟨o, []⟩) idle
    have shown := isSome_current_attach h s (c := ⟨o, []⟩) idle
    rwa [← congrArg Turn.client hrun] at shown
  · exact moved_append named continues (.inl sent)

/-- If a client ends on an answer, nothing is left, and the answered request was not its start. -/
theorem Joined.deserted_of_terminal (h : ch.dispatchOpen = true) {d : Dispatch}
    {newer : List Dispatch} (j : Joined [tree] (d :: newer) before)
    (chron : Chronicle ch tree (d :: newer) log) {result : Except ServiceError Snapshot}
    {t : Turn V Unit} (ht : (Act.route d.client result).run ch tree = t)
    (left : Joined ([] : List (Client V)) (newer ++ dispatchesOf t.effects) after)
    (terminal : t.client.phase.isTerminal = true) (named : t.client.id = tree.id) :
    Deserted ⟨t.client, newer ++ dispatchesOf t.effects, log ++ t.effects⟩ after := by
  have own := j.answered_top ht terminal
  obtain ⟨_, -, current, -⟩ := j.process tree.mem_members_self
  have continues :=
    (chron.matching h tree.mem_states_self List.mem_cons_self own.symm).continues current
  refine ⟨.inl terminal, left.deserted.1, left.deserted.2, .inr (.inr ⟨d.request, ?_, continues⟩)⟩
  rw [sent_append named (d :: newer), World.sent, requestsOf_about]
  refine List.mem_append_left _ (mem_waitingFor (mem_dispatchesOf_of_mem ?_) own)
  exact chron.noted d List.mem_cons_self

namespace Stage

/-- What a user does. -/
theorem act (h : ch.dispatchOpen = true) {server : Server}
    (stage : Stage ⟨tree, waiting, log⟩ server) (chron : Chronicle ch tree waiting log)
    (peopled : Peopled tree log) (sound : server.Sound) (distinct : server.IdsDistinct)
    {id : ClientId} {a : UserAction} {t : Turn V (Option Outcome)}
    (step : StepsAt id (fun _ => true) a.act ch tree t) :
    Stage ⟨t.client, waiting ++ dispatchesOf t.effects, log ++ t.effects⟩ server := by
  have named : t.client.id = tree.id := (step.named h (i := .action a) fun _ => rfl).1
  cases stage with
  | unstarted u sent =>
    by_cases begun : tree.phase ≠ .idle ∨ ∀ s, a = .attach s → id ≠ tree.id
    · refine .unstarted (u.act h begun step) ?_
      show World.sent ⟨t.client, _, log ++ t.effects⟩ = waitingFor t.client.id _
      rw [sent_append named waiting, sent, named, waitingFor_append]
    · push Not at begun
      obtain ⟨idle, s, rfl, rfl⟩ := begun
      exact .deserted (u.deserted h sent chron idle s step named)
  | joined j => exact .joined (j.act h chron sound distinct step)
  | deserted d => exact .deserted (d.act h chron peopled step named)
  | stranded s => exact .stranded (s.act h step named)

/-- The execution of the oldest request, with its answer. -/
theorem deliver (h : ch.dispatchOpen = true) {d : Dispatch} {newer : List Dispatch}
    (stage : Stage ⟨tree, d :: newer, log⟩ before) (chron : Chronicle ch tree (d :: newer) log)
    (sound : before.Sound) (precedes : before.Precedes after) (distinct : after.IdsDistinct)
    {result : Except ServiceError Snapshot} (answered : Answered before d.request result after)
    {t : Turn V Unit} (ht : (Act.route d.client result).run ch tree = t) :
    Stage ⟨t.client, newer ++ dispatchesOf t.effects, log ++ t.effects⟩ after := by
  have named : t.client.id = tree.id := ht ▸ (Act.route_named h d.client result tree).1
  cases stage with
  | unstarted u sent =>
    obtain ⟨rfl, ⟨descriptor, hrequest⟩, opened⟩ := u.deliver h chron distinct answered ht
    cases opened with
    | unknown failed nobody silent =>
      rw [silent]
      exact .deserted ⟨.inl (congrArg Phase.isTerminal failed), nobody, List.forall_mem_nil _,
        .inl failed⟩
    | @idle s p finished left root agrees work current childless silent =>
      rw [silent]
      refine .stranded ⟨finished, childless, rfl, ⟨descriptor, ?_⟩, p, s, left, root, agrees, work,
        current⟩
      rw [sent_append named [d], sent, silent, ← hrequest]
      simp [waitingFor, u.own d List.mem_cons_self]
    | joined j => exact .joined j
  | joined j =>
    have left := j.deliver h chron sound precedes distinct answered ht
    by_cases terminal : t.client.phase.isTerminal = true
    · rw [Client.left_of_ended terminal] at left
      exact .deserted (j.deserted_of_terminal h chron ht left terminal named)
    · rw [Client.left_of_going (Bool.eq_false_iff.2 terminal)] at left
      exact .joined left
  | deserted d' =>
    subst ht
    exact .deserted (d'.deliver h chron answered named)
  | stranded s => cases s.answered

end Stage

end Stage

/-- At every point of a run the processes have come as far as that. -/
theorem ServedRun.stage {scripts : List Script}
    (complete : Server.Complete (Server.ofScripts scripts).scripts) {id : ClientId}
    {parent : Option ClientId} {paused : Bool} {view : V} {w : World V} {server : Server}
    (run : ServedRun .open scripts ⟨.fresh id parent paused view, []⟩ w server)
    (distinct : server.IdsDistinct) : Stage w server := by
  induction run with
  | start => exact .unstarted ⟨rfl, rfl, rfl, nofun⟩ rfl
  | act run focus a ht ih =>
    exact (ih distinct).act rfl (run.treeRun.chronicle rfl) (run.treeRun.peopled rfl rfl)
      (run.sound complete distinct) distinct (Client.stepsAt_of_operate? ht)
  | deliver run executed ht ih =>
    have precedes := run.precedes executed
    have distinct' := distinct.of_le precedes.issued
    exact (ih distinct').deliver rfl (run.treeRun.chronicle rfl) (run.sound complete distinct') precedes
      distinct (run.answered complete executed distinct') ht

/-! ## What it means -/

/-- What still runs when the first client has finished. The scripts have steps and spawn what is
scripted; the requests are executed the oldest first, and each is answered at once; users do to any
client what they like in between; and no identifier is given out twice. If the first client has finished
then and no request is under way, nothing runs on the server, unless the client has asked for nothing but
its start. In that case it has finished on the answer, since the step had neither parameters nor children
and does not go on by itself; and the process that was started is the only one that runs. -/
theorem finished_leaves_no_process {scripts : List Script}
    (steps : ∀ script ∈ scripts, script.steps ≠ [])
    (spawns : ∀ script ∈ scripts, ∀ step ∈ script.steps, ∀ name ∈ step.spawn,
      ∃ other ∈ scripts, other.name = name)
    {id : ClientId} {view : V} {enabled : Bool} {w : World V} {server : Server}
    (run : ServedRun .open scripts ((Client.idle id view).withAutoContinue enabled) w server)
    (distinct : server.IdsDistinct) (finished : w.tree.phase = .finished) (answered : w.waiting = []) :
    ((∀ d, requestsOf (about id w.log) ≠ [.start d]) → server.instances = []) ∧
    (∀ d, requestsOf (about id w.log) = [.start d] →
      ∃ (p : Instance) (s : Snapshot), server.instances = [p] ∧ p.parent = none ∧ s.Agrees p ∧
        s.parameters = [] ∧ s.autoContinue = false ∧ s.children = [] ∧
        w.tree.current = some { s with finished := true }) := by
  have hid : w.tree.id = id := (run.treeRun.named rfl).1
  have hsent : requestsOf (about id w.log) = w.sent := by rw [World.sent, hid]
  rw [hsent]
  cases run.stage (Server.complete_ofScripts steps spawns) distinct with
  | unstarted u sent =>
    rw [answered] at sent
    refine ⟨fun _ => u.nobody, fun d hd => ?_⟩
    rw [sent] at hd
    cases hd
  | joined j =>
    have going := j.lively_tree w.tree.mem_states_self
    rw [finished] at going
    cases going
  | deserted d =>
    refine ⟨fun _ => d.nobody, fun descriptor hd => ?_⟩
    rcases d.moved with failed | none | ⟨r, hr, t, mode, event, rfl⟩
    · rw [finished] at failed
      cases failed
    · rw [none] at hd
      cases hd
    · rw [hd] at hr
      cases List.mem_singleton.1 hr
  | stranded s =>
    obtain ⟨d, sent⟩ := s.sent
    obtain ⟨p, u, left, root, agrees, work, current⟩ := s.left
    refine ⟨fun none => absurd sent (none d), fun _ _ => ?_⟩
    simp only [Snapshot.hasOutstandingWork, Snapshot.hasInteraction, Bool.or_eq_false_iff,
      Bool.not_eq_false', List.isEmpty_iff] at work
    exact ⟨p, u, left, root, agrees, work.1.1, work.1.2, work.2, current⟩

/-- An order whose client moves on and finishes: the order has ended on the server, and its item too. -/
theorem finished_order_leaves_no_item :
    ∃ w server, ServedRun .open orderScripts
      ((Client.idle (.root 0) Recording.empty).withAutoContinue true) w server ∧
      w.tree.phase = .finished ∧ w.waiting = [] ∧ server.issued = 2 ∧ server.instances = [] := by
  have started := (@ServedRun.start Recording _ .open orderScripts
    ((Client.idle (.root 0) Recording.empty).withAutoContinue true)).act (.root 0)
    (.start ⟨"Order", none, "en-US", .none⟩) rfl
  have shown := @ServedRun.deliver Recording _ .open _ _ _ _ [] _ _ _ started _ rfl _ rfl
  have run := @ServedRun.deliver Recording _ .open _ _ _ _ [] _ _ _
    (shown.act (.root 0) .advance rfl) _ rfl _ rfl
  refine ⟨_, _, run, by decide +kernel, ?_, by decide +kernel, ?_⟩
  · exact List.isEmpty_iff.1 (by decide +kernel)
  have nothing := (finished_leaves_no_process (by decide) (by decide) run
    (Server.idsDistinct_of_le (by decide +kernel)) (by decide +kernel)
    (List.isEmpty_iff.1 (by decide +kernel))).1
  have two {sent : List Request} (hlen : sent.length = 2) (d : Descriptor) : sent ≠ [.start d] := by
    rintro rfl
    cases hlen
  exact nothing (two (by decide +kernel))

/-- A notice with nothing to fill in. -/
def noticeScripts : List Script :=
  [⟨"Notice", "A notice", [⟨"Text", none, [], false, true, false, []⟩]⟩]

/-- A client that finishes on the answer to its start leaves its process on the server. -/
theorem idle_start_leaves_process :
    (∀ script ∈ noticeScripts, script.steps ≠ []) ∧
    (∀ script ∈ noticeScripts, ∀ step ∈ script.steps, ∀ name ∈ step.spawn,
      ∃ other ∈ noticeScripts, other.name = name) ∧
    ∃ w server, ServedRun .open noticeScripts
      ((Client.idle (.root 0) Recording.empty).withAutoContinue true) w server ∧
      server.IdsDistinct ∧ w.tree.phase = .finished ∧ w.waiting = [] ∧ server.instances ≠ [] := by
  have started := (@ServedRun.start Recording _ .open noticeScripts
    ((Client.idle (.root 0) Recording.empty).withAutoContinue true)).act (.root 0)
    (.start ⟨"Notice", none, "en-US", .none⟩) rfl
  have run := @ServedRun.deliver Recording _ .open _ _ _ _ [] _ _ _ started _ rfl _ rfl
  exact ⟨by decide, by decide, _, _, run, Server.idsDistinct_of_le (by decide), rfl, rfl, nofun⟩

end Stepwise
