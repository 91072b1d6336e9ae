/-
# Steps of a tree of clients with its server

What a user does to a client leaves clients and server in agreement, and so does a request that is
executed and answered at once.

* `Joined.act` : an action of a user;
* `Joined.deliver` : the execution of the oldest request, with its answer.
-/
import Stepwise.Proofs.Client.Run
import Stepwise.Proofs.Joint.Agreement

namespace Stepwise

variable {V : Type} [ProcessView V] {ch : Channels}

/-! ## One client of the tree -/

section Focus

variable {tree : Client V} {waiting : List Dispatch} {log : List Effect} {o o' : ClientState V}
  {kids : List (Client V)}

/-- A client of the tree waits or rests, and its requests match its snapshot. -/
theorem Chronicle.carries (h : ch.dispatchOpen = true) (chron : Chronicle ch tree waiting log)
    (ho : o ∈ tree.states) :
    ∃ own, Standing own o (waitingFor o.id waiting) ∧ Carries o (waitingFor o.id waiting) := by
  obtain ⟨H, others, run, -⟩ := chron.recorded o ho
  exact ⟨ownLog H, run.standing h, run.carries h⟩

theorem Chronicle.matching (h : ch.dispatchOpen = true) (chron : Chronicle ch tree waiting log)
    (ho : o ∈ tree.states) {d : Dispatch} (hd : d ∈ waiting) (hid : o.id = d.client) :
    Matches o d.request := by
  obtain ⟨-, -, carries⟩ := chron.carries h ho
  refine carries.matching d.request (List.mem_map_of_mem (List.mem_filter.2 ⟨hd, ?_⟩))
  exact decide_eq_true hid.symm

omit [ProcessView V] in
/-- Only a client that is idle takes over a process because its user says so. -/
theorem Stimulus.offspring_act {a : UserAction} (begun : o.phase ≠ .idle ∨ ∀ s, a ≠ .attach s) :
    offspring o (.action a) = [] := by
  cases a with
  | attach s =>
    rcases begun with begun | other
    · exact if_neg begun
    · exact absurd rfl (other s)
  | _ => rfl

/-- What a client does with the outcome of its request. -/
theorem Act.follows_respond (h : ch.dispatchOpen = true) (result : Except ServiceError Snapshot)
    (o : ClientState V) (kids : List (Client V)) :
    ∃ r o' before after,
      Reaction ch o (.response result) r o' (before ++
        callEffects o.id o.awake.view
          ((Stimulus.offspring o (.response result)).map .openChild) ++ after) ∧
      ((respond result).run ch ⟨o, kids⟩).client =
        ⟨o', kids ++ newcomers ch o.awake (Stimulus.offspring o (.response result))⟩ ∧
      ((respond result).run ch ⟨o, kids⟩).effects =
        before ++ spawnEffects ch o.awake (Stimulus.offspring o (.response result)) ++ after := by
  obtain ⟨r, o', before, after, reaction, -, hrun⟩ :=
    Stimulus.follows_run h (.response result) o kids
  obtain ⟨hclient, heffects⟩ := @Stimulus.run_response V _ ch result ⟨o, kids⟩
  refine ⟨r, o', before, after, reaction, ?_, ?_⟩
  · rw [hclient, hrun]
  · rw [heffects, hrun]

/-- A request among the client's own is handed over, whatever new children do in between. -/
theorem exists_dispatch_of_requestsOf {id : ClientId} {v : V} {calls : List ViewCall}
    {before after : List Effect} {r : Request} (spawned : List Effect)
    (hr : r ∈ requestsOf (before ++ callEffects id v calls ++ after)) :
    ∃ d ∈ dispatchesOf (before ++ spawned ++ after), d.request = r := by
  rw [requestsOf_append, requestsOf_append, requestsOf_callEffects, List.append_nil,
    List.mem_append] at hr
  rw [dispatchesOf_append, dispatchesOf_append]
  rcases hr with hr | hr
  · obtain ⟨d, hd, heq⟩ := List.mem_map.1 hr
    exact ⟨d, List.mem_append_left _ (List.mem_append_left _ hd), heq⟩
  · obtain ⟨d, hd, heq⟩ := List.mem_map.1 hr
    exact ⟨d, List.mem_append_right _ hd, heq⟩

/-- A client that sends nothing and has no new children hands nothing over. -/
theorem dispatchesOf_alone {id : ClientId} {v : V} {before after : List Effect} {o : ClientState V}
    (silent : requestsOf (before ++ callEffects id v [] ++ after) = []) :
    dispatchesOf (before ++ spawnEffects ch o [] ++ after) = [] := by
  have hcalls : callEffects id v [] = ([] : List Effect) := rfl
  rw [hcalls] at silent
  rw [spawnEffects]
  exact List.map_eq_nil_iff.1 silent

/-- Without new children everything that is handed over is the client's own. -/
theorem sender_of_alone {id : ClientId} {v : V} {before after : List Effect} {o : ClientState V}
    (own : ∀ e ∈ before ++ callEffects id v [] ++ after, e.client = id) {d : Dispatch}
    (hd : d ∈ dispatchesOf (before ++ spawnEffects ch o [] ++ after)) : d.client = id := by
  rcases sender_of_mem own hd with hid | hd
  · exact hid
  · cases hd

/-- Whatever a client does with the snapshot of a process that goes on, somebody cares for the processes
inside it. -/
theorem Received.attended (h : ch.dispatchOpen = true) {s : Snapshot} {before after : List Effect}
    (received : Received ch s o o' (before ++
      callEffects o.id o.awake.view ((o.offspring s).map .openChild) ++ after))
    (going : o.phase.isTerminal = false) (unfinished : s.finished = false)
    {instances : List Instance}
    (planted : ∀ t ∈ s.children, Planted instances (some s.id) t) :
    Attended instances s.id s.children o.id (newcomers ch o.awake (o.offspring s))
      (dispatchesOf (before ++ spawnEffects ch o.awake (o.offspring s) ++ after)) := by
  have own := fun (e : Effect) he => received.client_of_mem (e := e) he
  rcases received.cancels going unfinished with all | ⟨alone, sent⟩
  · have hosted := hosted_newcomers h planted o.awake
    rw [all]
    refine ⟨hosted.mirrored, hosted.lively, .inl hosted.keys, fun d hd => ?_⟩
    rcases sender_of_mem own hd with hown | hd
    · exact .inl hown
    · exact .inr (hosted.senders d hd)
  · -- the cancel that waited is on the way
    obtain ⟨d, hd, hrequest⟩ := exists_dispatch_of_requestsOf
      (spawnEffects ch o.awake (o.offspring s)) (sent ▸ List.mem_singleton_self _)
    rw [alone] at own hd ⊢
    refine ⟨?_, ?_, .inr ⟨rfl, d, hd, Act.outgoing s, none, hrequest, rfl⟩, ?_⟩
    · intro k hk
      cases hk
    · intro q hq
      cases hq
    · intro e he
      exact .inl (sender_of_alone own he)

end Focus

/-! ## Steps -/

namespace Joined

variable {tree : Client V} {waiting : List Dispatch} {log : List Effect} {before after : Server}

omit [ProcessView V] in
/-- Every client of the tree has the snapshot of a process that runs. -/
theorem process (j : Joined [tree] waiting before) {c : Client V} (hc : c ∈ tree.members) :
    ∃ s p, c.current = some s ∧ p ∈ before.instances ∧ s.Agrees p := by
  obtain ⟨s, p, current, running, agrees, -⟩ :=
    (j.mirrored tree (List.mem_singleton_self tree)).process hc
  exact ⟨s, p, current, running, agrees⟩

omit [ProcessView V] in
theorem lively_tree (j : Joined [tree] waiting before) {o : ClientState V} (ho : o ∈ tree.states) :
    o.phase.isTerminal = false :=
  j.lively o (List.mem_flatMap.2 ⟨tree, List.mem_singleton_self tree, ho⟩)

/-- Clients and server agree after an action of a user. -/
theorem act (h : ch.dispatchOpen = true) (j : Joined [tree] waiting before)
    (chron : Chronicle ch tree waiting log) (sound : before.Sound) (distinct : before.IdsDistinct)
    {id : ClientId} {a : UserAction} {t : Turn V (Option Outcome)}
    (step : StepsAt id (fun _ => true) a.act ch tree t) :
    Joined [t.client] (waiting ++ dispatchesOf t.effects) before := by
  obtain ⟨⟨o, kids⟩, hc, hcid, heffects, ex⟩ := step.exchanged fun _ _ _ _ => rfl
  have ho : o ∈ tree.states := List.mem_map_of_mem hc
  obtain ⟨u, p, current, hp, agrees⟩ := j.process hc
  have begun := chron.begun h ho current
  obtain ⟨r, o', first, last, reaction, -, hrun⟩ := Stimulus.follows_run h (.action a) o kids
  have hrun : a.act.run ch ⟨o, kids⟩ = _ := hrun
  -- a client with a process does not take over another one, so nobody new comes in
  have alone := Stimulus.offspring_act (a := a) (.inl begun)
  rw [alone] at reaction hrun
  rw [heffects, hrun]
  have ex : Exchanged ⟨o, kids⟩ [(a.act.run ch ⟨o, kids⟩).client] [tree] [t.client] := ex
  rw [hrun] at ex
  have own := fun (e : Effect) he => reaction.client_of_mem (e := e) he
  refine j.moved (.refl before) distinct ex current hp agrees.id reaction.named.1 ?_
    (reaction.shows current begun) (.of_same hp agrees rfl sound)
    (.alone _ _ fun d hd => sender_of_alone own hd) (fun d hd => hd) fun d hd _ _ => hd
  rw [reaction.isTerminal_act (.inl begun)]
  exact j.lively_tree ho

/-! ### Answers -/

variable {d : Dispatch} {newer : List Dispatch} {o : ClientState V} {kids ks' : List (Client V)}
  {u s : Snapshot} {p : Instance}

/-- All cancels go on waiting while another request is answered. -/
theorem cancels_wait (kept : ∀ x, ¬ d.request.Cancels x) :
    ∀ e ∈ d :: newer, ∀ x, e.request.Cancels x → e ∈ newer := by
  intro e he x hcancel
  rcases List.mem_cons.1 he with rfl | he
  · exact absurd hcancel (kept x)
  · exact he

/-- The submitted values are wrong. -/
theorem deliver_invalid (h : ch.dispatchOpen = true) (j : Joined [tree] (d :: newer) before)
    (ho : o ∈ tree.states) (current : o.current = some u) (hp : p ∈ before.instances)
    (agrees : u.Agrees p) (kept : ∀ x, ¬ d.request.Cancels x)
    (same : after.instances = before.instances) (sound : after.Sound)
    (precedes : before.Precedes after) (distinct : after.IdsDistinct) {message : String}
    {fieldErrors : KeyMap String} {t : Turn V Unit}
    (ht : (Act.respond (.error (.recoverable message fieldErrors none))).run ch ⟨o, kids⟩ = t)
    (ex : Exchanged ⟨o, kids⟩ (t.client.left Client.stays) [tree] ks') :
    Joined ks' (newer ++ dispatchesOf t.effects) after := by
  obtain ⟨r, o', first, last, reaction, hclient, heffects⟩ := Act.follows_respond h
    (.error (.recoverable message fieldErrors none)) o kids
  rw [ht] at hclient heffects
  have going := j.lively_tree ho
  have own := fun (e : Effect) he => reaction.client_of_mem (e := e) he
  have hid := reaction.named.1
  cases reaction with
  | rejected rejected =>
    obtain ⟨going', shows⟩ := rejected.shows going current
    rw [hclient, Client.left_of_going going'] at ex
    rw [heffects]
    refine j.moved precedes distinct ex current hp agrees.id hid going' shows
      (.of_same hp agrees same sound) (.alone _ _ fun e he => sender_of_alone own he)
      (fun e he => List.mem_cons_of_mem _ he) ?_
    exact cancels_wait kept

/-- The process is over. -/
theorem deliver_ended (h : ch.dispatchOpen = true) (j : Joined [tree] (d :: newer) before)
    (chron : Chronicle ch tree (d :: newer) log) (ho : o ∈ tree.states)
    (current : o.current = some u) (agrees : u.Agrees p) (own : ∀ x, d.request.Cancels x → x = p.id)
    (last : s.finished = true) (alone : s.children = [])
    (left : ∀ q, q ∈ after.instances ↔
      q ∈ before.instances ∧ ¬ Descends before.instances p.id q.id)
    (sound : before.Sound) (precedes : before.Precedes after) {t : Turn V Unit}
    (ht : (Act.respond (.ok s)).run ch ⟨o, kids⟩ = t)
    (ex : Exchanged ⟨o, kids⟩ (t.client.left Client.stays) [tree] ks') :
    Joined ks' (newer ++ dispatchesOf t.effects) after := by
  obtain ⟨r, o', front, back, reaction, hclient, heffects⟩ := Act.follows_respond h (.ok s) o kids
  rw [ht] at hclient heffects
  cases reaction with
  | received received =>
    obtain ⟨terminal, silent⟩ := received.ends (j.lively_tree ho) last
    have childless : Stimulus.offspring o (.response (.ok s)) = [] := by
      show (if _ then [] else s.children) = []
      rw [alone, ite_self]
    rw [childless] at silent heffects
    have hnone : dispatchesOf t.effects = [] := by
      rw [heffects]
      exact dispatchesOf_alone silent
    rw [hclient, Client.left_of_ended terminal] at ex
    rw [hnone, List.append_nil]
    apply j.ended sound precedes ex current agrees.id left own
    intro q hq e he hid
    rw [List.flatMap_singleton] at hq
    exact chron.matching h hq (List.mem_cons_of_mem _ he) hid

/-- The process shows a step. -/
theorem deliver_entered (h : ch.dispatchOpen = true) (j : Joined [tree] (d :: newer) before)
    (chron : Chronicle ch tree (d :: newer) log) (ho : o ∈ tree.states)
    (current : o.current = some u) (hp : p ∈ before.instances) (agrees : u.Agrees p)
    (kept : ∀ x, ¬ d.request.Cancels x) (entered : Server.Entered before after p s s.children)
    (precedes : before.Precedes after) (distinct : after.IdsDistinct) {t : Turn V Unit}
    (ht : (Act.respond (.ok s)).run ch ⟨o, kids⟩ = t)
    (ex : Exchanged ⟨o, kids⟩ (t.client.left Client.stays) [tree] ks') :
    Joined ks' (newer ++ dispatchesOf t.effects) after := by
  obtain ⟨r, o', front, back, reaction, hclient, heffects⟩ := Act.follows_respond h (.ok s) o kids
  rw [ht] at hclient heffects
  obtain ⟨q, hq, hqid, hparent, shown⟩ := entered.shown
  obtain ⟨-, -, carries⟩ := chron.carries h ho
  have going := j.lively_tree ho
  have hid := reaction.named.1
  have hsid : s.id = p.id := shown.id.trans hqid
  cases reaction with
  | received received =>
    rcases received.shows going shown.unfinished with ⟨starting, -⟩ | ⟨going', shows⟩
    · rw [carries.answered current] at starting
      cases starting
    · rw [hclient, Client.left_of_going going'] at ex
      have planted := entered.planted
      rw [← hsid] at planted
      have attended := received.attended h going shown.unfinished planted
      rw [hsid] at attended
      rw [heffects]
      refine j.moved precedes distinct ex current hp agrees.id hid going' shows entered attended
        (fun e he => List.mem_cons_of_mem _ he) ?_
      exact cancels_wait kept

omit [ProcessView V] in
/-- The answer to a client that has left. -/
theorem answered_stranger (j : Joined [tree] (d :: newer) before)
    (stranger : ∀ p ∈ tree.states, p.id ≠ d.client) {result : Except ServiceError Snapshot}
    (answered : Answered before d.request result after) : after.instances = before.instances := by
  have hout : ∀ p ∈ [tree].flatMap Client.states, p.id ≠ d.client := by
    rw [List.flatMap_singleton]
    exact stranger
  obtain ⟨v, mode, event, hrequest, -, nobody⟩ := j.strangers d List.mem_cons_self hout
  rw [hrequest] at answered
  have missing {q : Instance} (hq : q ∈ before.instances) : q.id ≠ v.id := fun heq =>
    nobody q hq (heq ▸ .self)
  cases answered with
  | unknown _ _ _ _ same => exact same
  | invalid _ _ hq hid => exact absurd hid (missing hq)
  | stuck _ _ hq hid => exact absurd hid (missing hq)
  | ended _ _ _ hq hid => exact absurd hid (missing hq)
  | entered _ _ _ hq hid => exact absurd hid (missing hq)

/-- What the answer makes of the client that has asked leaves clients and server in agreement. -/
theorem exchanged (h : ch.dispatchOpen = true) (j : Joined [tree] (d :: newer) before)
    (chron : Chronicle ch tree (d :: newer) log) (sound : before.Sound)
    (precedes : before.Precedes after) (distinct : after.IdsDistinct) (ho : o ∈ tree.states)
    (hid : o.id = d.client) {result : Except ServiceError Snapshot}
    (answered : Answered before d.request result after) {t : Turn V Unit}
    (ht : (Act.respond result).run ch ⟨o, kids⟩ = t)
    (ex : Exchanged ⟨o, kids⟩ (t.client.left Client.stays) [tree] ks') :
    Joined ks' (newer ++ dispatchesOf t.effects) after := by
  obtain ⟨c, hc, rfl⟩ := List.mem_map.1 ho
  obtain ⟨u, p, current, hp, agrees⟩ := j.process hc
  have matching := chron.matching h ho List.mem_cons_self hid
  have sound' : after.Sound := sound.answered answered precedes distinct
  cases answered.fulfilled matching current hp agrees with
  | invalid fieldErrors kept same =>
    exact deliver_invalid h j ho current hp agrees kept same sound' precedes distinct ht ex
  | ended own last alone left =>
    exact deliver_ended h j chron ho current agrees own last alone left sound precedes ht ex
  | entered kept entered =>
    exact deliver_entered h j chron ho current hp agrees kept (entered distinct) precedes distinct
      ht ex

/-- The oldest request is executed and its answer goes back: clients and server agree, with nothing
left of the tree if the first process is over. -/
theorem deliver (h : ch.dispatchOpen = true) (j : Joined [tree] (d :: newer) before)
    (chron : Chronicle ch tree (d :: newer) log) (sound : before.Sound)
    (precedes : before.Precedes after) (distinct : after.IdsDistinct)
    {result : Except ServiceError Snapshot} (answered : Answered before d.request result after)
    {t : Turn V Unit} (ht : (Act.route d.client result).run ch tree = t) :
    Joined (t.client.left Client.stays) (newer ++ dispatchesOf t.effects) after := by
  subst ht
  rcases Act.route_spec d.client result ch tree with ⟨stranger, hrun⟩ | step
  · rw [hrun]
    show Joined (tree.left Client.stays) (newer ++ []) after
    rw [List.append_nil, Client.left_of_going (j.lively_tree tree.mem_states_self)]
    refine j.passed (fun p hp => stranger p ?_) precedes (j.answered_stranger stranger answered)
    rwa [List.flatMap_singleton] at hp
  · generalize (Act.route d.client result).run ch tree = t at step
    obtain ⟨⟨o, kids⟩, hc, hid, heffects, ex⟩ := step.exchanged fun p hp _ _ => by
      rw [Client.stays, j.lively_tree hp]
      rfl
    rw [heffects]
    exact exchanged h j chron sound precedes distinct (List.mem_map_of_mem hc) hid answered rfl ex

end Joined

end Stepwise
