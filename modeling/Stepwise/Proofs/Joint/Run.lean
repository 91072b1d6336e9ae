/-
# A tree of clients with the scripted server

The requests of a tree of clients are executed on a scripted server, the oldest first, and each answer
goes back at once. Users act on any client in between; only the first client of the tree is started by
its user.

* `JointRun` : everything that can happen then;
* `ServedRun` : everything that can happen if users may do even more;
* `JointRun.together` : they agree at every point of a run;
* `clients_mirror_server` : what that means once no request is under way, and what the server never
  answers.
-/
import Stepwise.Proofs.Joint.Beginning
import Stepwise.Proofs.KeyMap
import Stepwise.View.Recording

namespace Stepwise

variable {V : Type} [ProcessView V] {ch : Channels}

/-- A run of a tree of clients with a server that begins with one client and without processes. -/
inductive JointRun (ch : Channels) (scripts : List Script) (top : Client V) :
    World V → Server → Prop where
  | start : JointRun ch scripts top ⟨top, [], []⟩ (.ofScripts scripts)
  | act {w : World V} {server : Server} (run : JointRun ch scripts top w server) (id : ClientId)
      (a : UserAction) (own : ∀ s, a = .attach s → id ≠ top.id) {t : Turn V (Option Outcome)}
      (ht : w.tree.operate? id a.act ch = some t) :
    JointRun ch scripts top
      ⟨t.client, w.waiting ++ dispatchesOf t.effects, w.log ++ t.effects⟩ server
  | deliver {tree : Client V} {d : Dispatch} {newer : List Dispatch} {log : List Effect}
      {before after : Server} (run : JointRun ch scripts top ⟨tree, d :: newer, log⟩ before)
      {result : Except ServiceError Snapshot}
      (executed : before.run (Server.execute d.request) = (result, after)) {t : Turn V Unit}
      (ht : (Act.route d.client result).run ch tree = t) :
    JointRun ch scripts top ⟨t.client, newer ++ dispatchesOf t.effects, log ++ t.effects⟩ after

/-- The same where users may also let the first client take over a process, as if it had started
elsewhere. -/
inductive ServedRun (ch : Channels) (scripts : List Script) (top : Client V) :
    World V → Server → Prop where
  | start : ServedRun ch scripts top ⟨top, [], []⟩ (.ofScripts scripts)
  | act {w : World V} {server : Server} (run : ServedRun ch scripts top w server) (id : ClientId)
      (a : UserAction) {t : Turn V (Option Outcome)} (ht : w.tree.operate? id a.act ch = some t) :
    ServedRun ch scripts top
      ⟨t.client, w.waiting ++ dispatchesOf t.effects, w.log ++ t.effects⟩ server
  | deliver {tree : Client V} {d : Dispatch} {newer : List Dispatch} {log : List Effect}
      {before after : Server} (run : ServedRun ch scripts top ⟨tree, d :: newer, log⟩ before)
      {result : Except ServiceError Snapshot}
      (executed : before.run (Server.execute d.request) = (result, after)) {t : Turn V Unit}
      (ht : (Act.route d.client result).run ch tree = t) :
    ServedRun ch scripts top ⟨t.client, newer ++ dispatchesOf t.effects, log ++ t.effects⟩ after

section Runs

variable {scripts : List Script} {top : Client V} {w : World V} {server : Server}

theorem JointRun.served (run : JointRun ch scripts top w server) :
    ServedRun ch scripts top w server := by
  induction run with
  | start => exact .start
  | act _ id a _ ht ih => exact ih.act id a ht
  | deliver _ executed ht ih => exact ih.deliver executed ht

/-- With the server left aside this is a run of the tree. -/
theorem ServedRun.treeRun (run : ServedRun ch scripts top w server) : TreeRun ch top w := by
  induction run with
  | start => exact .start
  | act _ id a ht ih => exact ih.act id a ht
  | @deliver tree d newer log _ _ _ result _ t ht ih =>
    exact @TreeRun.respond V _ ch top tree [] newer d log ih result t ht

/-- Nothing is injected, and the scripts stay. -/
theorem ServedRun.calm (run : ServedRun ch scripts top w server) :
    server.injected = [] ∧ server.scripts = (Server.ofScripts scripts).scripts := by
  induction run with
  | start => exact ⟨rfl, rfl⟩
  | act _ _ _ _ ih => exact ih
  | @deliver _ d _ _ before after _ _ executed _ _ ih =>
    have precedes := Server.precedes_execute ih.1 d.request
    rw [executed] at precedes
    exact ⟨precedes.injected.trans ih.1, precedes.scripts.trans ih.2⟩

theorem JointRun.treeRun (run : JointRun ch scripts top w server) : TreeRun ch top w :=
  run.served.treeRun

end Runs

/-! ## The scripts -/

/-- A server whose scripts have steps and spawn what is scripted is complete. -/
theorem Server.complete_ofScripts {scripts : List Script}
    (steps : ∀ script ∈ scripts, script.steps ≠ [])
    (spawns : ∀ script ∈ scripts, ∀ step ∈ script.steps, ∀ name ∈ step.spawn,
      ∃ other ∈ scripts, other.name = name) : Complete (ofScripts scripts).scripts := by
  intro name script hget
  obtain ⟨found, hmem, heq⟩ := List.mem_map.1 (KeyMap.mem_of_get?_ofList hget)
  obtain ⟨rfl, rfl⟩ := Prod.mk.inj heq
  refine ⟨steps found hmem, fun step hstep n hn => ?_⟩
  obtain ⟨other, hother, rfl⟩ := spawns found hmem step hstep n hn
  exact KeyMap.exists_get?_ofList (List.mem_map_of_mem (f := fun s => (s.name, s)) hother)

section Executed

variable {scripts : List Script} {top : Client V} {w : World V} {server before after : Server}
  {r : Request} {result : Except ServiceError Snapshot}

theorem ServedRun.precedes (run : ServedRun ch scripts top w before)
    (executed : before.run (Server.execute r) = (result, after)) : before.Precedes after := by
  have precedes := Server.precedes_execute run.calm.1 r
  rw [executed] at precedes
  exact precedes

/-- At every point of a run the server is sound. -/
theorem ServedRun.sound (complete : Server.Complete (Server.ofScripts scripts).scripts)
    (run : ServedRun ch scripts top w server) (distinct : server.IdsDistinct) : server.Sound := by
  induction run with
  | start =>
    intro p hp
    cases hp
  | act _ _ _ _ ih => exact ih distinct
  | @deliver _ _ _ _ before after run _ executed _ _ ih =>
    have precedes := run.precedes executed
    -- what was given out earlier is among what has been given out now
    have distinct' := distinct.of_le precedes.issued
    have answered := Server.answered_execute run.calm.1 (ih distinct') (run.calm.2 ▸ complete)
      executed distinct'
    exact (ih distinct').answered answered precedes distinct

theorem ServedRun.answered (complete : Server.Complete (Server.ofScripts scripts).scripts)
    (run : ServedRun ch scripts top w before)
    (executed : before.run (Server.execute r) = (result, after)) (distinct : before.IdsDistinct) :
    Answered before r result after :=
  Server.answered_execute run.calm.1 (run.sound complete distinct) (run.calm.2 ▸ complete) executed
    distinct

end Executed

/-! ## Together -/

/-- How a tree of clients and its server are related: no process has started, clients and processes
agree, or the first process is over. -/
inductive Together (w : World V) (server : Server) : Prop where
  | unstarted (u : Unstarted w.tree w.waiting server)
  | joined (j : Joined [w.tree] w.waiting server)
  | ended (terminal : w.tree.phase.isTerminal = true)

/-- At every point of a run clients and server are together. -/
theorem JointRun.together (h : ch.dispatchOpen = true) {scripts : List Script}
    (complete : Server.Complete (Server.ofScripts scripts).scripts) {id : ClientId}
    {parent : Option ClientId} {paused : Bool} {view : V} {w : World V} {server : Server}
    (run : JointRun ch scripts ⟨.fresh id parent paused view, []⟩ w server)
    (distinct : server.IdsDistinct) : Together w server := by
  induction run with
  | start =>
    refine .unstarted ⟨rfl, rfl, rfl, fun d hd => ?_⟩
    cases hd
  | act run focus a own ht ih =>
    have step := Client.stepsAt_of_operate? ht
    cases ih distinct with
    | unstarted u =>
      refine .unstarted (u.act h (.inr fun s heq => ?_) step)
      rw [(run.treeRun.named h).1]
      exact own s heq
    | joined j =>
      exact .joined (j.act h (run.treeRun.chronicle h) (run.served.sound complete distinct) distinct
        step)
    | ended terminal =>
      exact .ended (step.top (P := fun o => o.phase.isTerminal = true)
        (fun c hc => Stimulus.isTerminal_run h (.action a) c hc) terminal)
  | @deliver tree d newer log before after run result executed t ht ih =>
    have precedes := run.served.precedes executed
    have distinct' := distinct.of_le precedes.issued
    have answered := run.served.answered complete executed distinct'
    have chron := run.treeRun.chronicle h
    cases ih distinct' with
    | unstarted u =>
      obtain ⟨rfl, -, opened⟩ := u.deliver h chron distinct answered ht
      cases opened with
      | unknown failed => exact .ended (congrArg Phase.isTerminal failed)
      | idle finished => exact .ended (congrArg Phase.isTerminal finished)
      | joined j => exact .joined j
    | joined j =>
      have left := j.deliver h chron (run.served.sound complete distinct') precedes distinct answered
        ht
      by_cases terminal : t.client.phase.isTerminal = true
      · exact .ended terminal
      · rw [Client.left_of_going (Bool.eq_false_iff.2 terminal)] at left
        exact .joined left
    | ended terminal =>
      subst ht
      refine .ended (Act.route_top (P := fun o => o.phase.isTerminal = true) (fun c hc => ?_) terminal)
      rw [(Stimulus.run_response result c).1]
      exact Stimulus.isTerminal_run h (.response result) c hc

/-! ## What it means -/

/-- The server knows the process that an error is about, and does not refuse the way back. -/
def ServiceError.Known (e : ServiceError) : Prop :=
  (∀ text, e.message ≠ "Unknown process instance " ++ text) ∧
    e.message ≠ "Rollback is not possible here"

/-- An error about an unknown script is about no process. -/
theorem ServiceError.known_unscripted (name : String) :
    (fault ("Unknown process '" ++ name ++ "'")).Known := by
  constructor
  · intro text heq
    have hchars := congrArg String.toList heq
    simp [fault, message] at hchars
  · intro heq
    have hchars := congrArg String.toList heq
    simp [fault, message] at hchars

/-- An error about values is neither. -/
theorem ServiceError.known_invalid (fieldErrors : KeyMap String) :
    (recoverable "Validation failed" fieldErrors none).Known := by
  constructor
  · intro text heq
    have hchars := congrArg String.toList heq
    simp [message] at hchars
  · show "Validation failed" ≠ "Rollback is not possible here"
    decide

omit [ProcessView V] in
/-- A client is found by its name. -/
theorem Client.WellPlaced.find?_of_mem {tree c : Client V} (placed : tree.WellPlaced)
    (hc : c ∈ tree.members) : tree.find? c.id = some c := by
  cases hfind : tree.find? c.id with
  | none =>
    have := List.find?_eq_none.1 hfind c hc
    simp at this
  | some d =>
    have hid : d.id = c.id := by simpa using List.find?_some hfind
    rw [placed.eq_of_id (List.mem_of_find?_eq_some hfind) hc hid]

namespace Together

variable {w : World V} {server after : Server}

/-- What a client in the tree asks for is about a process that the server knows. -/
theorem known (h : ch.dispatchOpen = true) (together : Together w server)
    (chron : Chronicle ch w.tree w.waiting w.log) (going : w.tree.phase.isTerminal = false)
    {d : Dispatch} (hd : d ∈ w.waiting) {o : ClientState V} (ho : o ∈ w.tree.states)
    (hid : o.id = d.client) {e : ServiceError}
    (answered : Answered server d.request (.error e) after) : e.Known := by
  have matching := chron.matching h ho hd hid
  cases together with
  | ended terminal => rw [going] at terminal; cases terminal
  | unstarted u =>
    obtain ⟨tree, waiting, log⟩ := w
    obtain ⟨top, kids⟩ := tree
    obtain ⟨childless, fresh, -, -⟩ := u
    obtain rfl : kids = [] := childless
    obtain rfl : o = top := by
      rcases Client.mem_states_mk.1 ho with rfl | ⟨k, hk, -⟩
      · rfl
      · cases hk
    have fresh : o.current = none := fresh
    generalize d.request = request at answered matching
    cases matching with
    | «continue» _ _ _ current => rw [fresh] at current; cases current
    | start =>
      cases answered with
      | unscripted => exact ServiceError.known_unscripted _
  | joined j =>
    obtain ⟨c, hc, rfl⟩ := List.mem_map.1 ho
    obtain ⟨u, p, current, hp, agrees⟩ := j.process hc
    cases answered.fulfilled matching current hp agrees with
    | invalid fieldErrors => exact ServiceError.known_invalid fieldErrors

/-- With no request under way, clients and processes correspond one to one. -/
theorem mirrors (h : ch.dispatchOpen = true) (together : Together w server)
    (chron : Chronicle ch w.tree w.waiting w.log) (going : w.tree.phase.isTerminal = false)
    (root : w.tree.parent = none) (answered : w.waiting = []) :
    (w.tree.members.filterMap (·.key)).Perm (server.instances.map (·.id)) ∧
      ∀ c ∈ w.tree.members, (c.phase = .idle ∧ c.current = none) ∨
        ∃ s p, c.current = some s ∧ p ∈ server.instances ∧ s.Agrees p ∧
          p.parent = (c.parent.bind w.tree.find?).bind (·.key) := by
  obtain ⟨tree, waiting, log⟩ := w
  obtain rfl : waiting = [] := answered
  cases together with
  | ended terminal => rw [going] at terminal; cases terminal
  | unstarted u =>
    obtain ⟨top, kids⟩ := tree
    obtain ⟨childless, fresh, nobody, -⟩ := u
    obtain rfl : kids = [] := childless
    have fresh : top.current = none := fresh
    refine ⟨?_, fun c hc => .inl ?_⟩
    · have hnone : (Client.members ⟨top, []⟩).filterMap (·.key) = [] := by
        apply List.filterMap_eq_nil_iff.2
        intro c hc
        obtain rfl : c = ⟨top, []⟩ := List.mem_singleton.1 hc
        exact Option.map_eq_none_iff.2 fresh
      show ((Client.members ⟨top, []⟩).filterMap (·.key)).Perm (server.instances.map (·.id))
      rw [hnone, nobody, List.map_nil]
    · obtain rfl : c = ⟨top, []⟩ := List.mem_singleton.1 hc
      refine ⟨?_, fresh⟩
      -- a client that rests without a snapshot has not begun
      obtain ⟨own, st, -⟩ := chron.carries h (List.mem_singleton_self top)
      by_contra begun
      cases st with
      | waits w => cases w.single
      | rests r =>
        have some := r.shown (r.interacting going begun)
        rw [fresh] at some
        cases some
  | joined j =>
    refine ⟨?_, fun c hc => .inr ?_⟩
    · have hperm := j.perm
      rw [List.flatMap_singleton, keysOf, Client.states, List.filterMap_map] at hperm
      exact hperm
    · obtain ⟨s, p, current, hp, agrees, hplace⟩ :=
        (j.mirrored tree (List.mem_singleton_self tree)).process hc
      refine ⟨s, p, current, hp, agrees, ?_⟩
      rcases hplace with ⟨rfl, hparent⟩ | ⟨e, he, hce, hparent⟩
      · rw [hparent, root]
        rfl
      · rw [hparent, (chron.placed e he).linked c hce, Option.bind_some,
          chron.placed.find?_of_mem he, Option.bind_some]

end Together

/-- A tree of clients and its scripted server agree. The scripts have steps and spawn what is scripted;
only the first client is started by its user; the requests are executed the oldest first, and each is
answered at once; users do to any client what they like in between; and no identifier is given out
twice. Then, until the process of the first client is over, clients and processes correspond one to one
whenever no request is under way: every client but an idle one has the snapshot of a process that
runs, which shows the step on which the process is positioned, and the process of its parent is the
parent of its process. And the server never answers a client of the tree that it does not know the
process, or that there is no way back. -/
theorem clients_mirror_server (h : ch.dispatchOpen = true) {scripts : List Script}
    (steps : ∀ script ∈ scripts, script.steps ≠ [])
    (spawns : ∀ script ∈ scripts, ∀ step ∈ script.steps, ∀ name ∈ step.spawn,
      ∃ other ∈ scripts, other.name = name)
    {id : ClientId} {view : V} {enabled : Bool} {w : World V} {server : Server}
    (run : JointRun ch scripts ((Client.idle id view).withAutoContinue enabled) w server)
    (distinct : server.IdsDistinct) (going : w.tree.phase.isTerminal = false) :
    (w.waiting = [] →
      (w.tree.members.filterMap (·.key)).Nodup ∧
      (w.tree.members.filterMap (·.key)).Perm (server.instances.map (·.id)) ∧
      ∀ c ∈ w.tree.members, (c.phase = .idle ∧ c.current = none) ∨
        ∃ s p, c.current = some s ∧ p ∈ server.instances ∧ s.Agrees p ∧
          p.parent = (c.parent.bind w.tree.find?).bind (·.key)) ∧
    (∀ d newer, w.waiting = d :: newer → w.tree.contains d.client = true →
      ∀ e, (server.run (Server.execute d.request)).1 = .error e →
        (∀ text, e.message ≠ "Unknown process instance " ++ text) ∧
          e.message ≠ "Rollback is not possible here") := by
  have complete := Server.complete_ofScripts steps spawns
  have together := run.together h complete distinct
  have chron := run.treeRun.chronicle h
  constructor
  · intro none
    obtain ⟨perm, shown⟩ := together.mirrors h chron going (run.treeRun.named h).2 none
    exact ⟨perm.nodup_iff.2 server.distinct, perm, shown⟩
  · intro d newer hwaiting there e herror
    obtain ⟨c, hc, hid⟩ := List.any_eq_true.1 there
    generalize hrun : server.run (Server.execute d.request) = out at herror
    obtain ⟨result, after⟩ := out
    obtain rfl : result = .error e := herror
    have answered := run.served.answered complete hrun distinct
    exact together.known h chron going (hwaiting ▸ List.mem_cons_self) (List.mem_map_of_mem hc)
      (of_decide_eq_true hid) answered

/-- An order whose step spawns an item. -/
def orderScripts : List Script :=
  [⟨"Order", "An order", [⟨"Items", none, [], false, true, false, ["Item"]⟩]⟩,
   ⟨"Item", "An item", [⟨"Pick", none, [], false, true, false, []⟩]⟩]

/-- A started order and its item, two clients of two processes. -/
theorem clients_mirror_server_items :
    ∃ w server, JointRun .open orderScripts
      ((Client.idle (.root 0) Recording.empty).withAutoContinue true) w server ∧
      server.IdsDistinct ∧ w.tree.phase.isTerminal = false ∧ w.waiting = [] ∧
      w.tree.members.length = 2 ∧
      (w.tree.members.filterMap (·.key)).Nodup ∧
      (w.tree.members.filterMap (·.key)).Perm (server.instances.map (·.id)) ∧
      ∀ c ∈ w.tree.members, (c.phase = .idle ∧ c.current = none) ∨
        ∃ s p, c.current = some s ∧ p ∈ server.instances ∧ s.Agrees p ∧
          p.parent = (c.parent.bind w.tree.find?).bind (·.key) := by
  have started := (@JointRun.start Recording _ .open orderScripts
    ((Client.idle (.root 0) Recording.empty).withAutoContinue true)).act (.root 0)
    (.start ⟨"Order", none, "en-US", .none⟩) nofun rfl
  have run := @JointRun.deliver Recording _ .open _ _ _ _ [] _ _ _ started _ rfl _ rfl
  refine ⟨_, _, run, Server.idsDistinct_of_le (by decide), rfl, rfl, rfl, ?_⟩
  have mirrors := clients_mirror_server rfl (by decide) (by decide) run
    (Server.idsDistinct_of_le (by decide)) rfl
  exact mirrors.1 rfl

end Stepwise
