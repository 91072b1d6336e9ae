/-
# The first process of a tree of clients

Before its first process has started there is one client, and no process that it could know. The
answer to its start brings clients and server into agreement, unless there is no such process or
nothing to do in it. Once the first process is over, it stays over.

* `Unstarted` : no process has started so far;
* `Unstarted.act` : an action of a user;
* `Opened`, `Unstarted.deliver` : the answer to the start;
* `Stimulus.isTerminal_run` : what is over stays over.
-/
import Stepwise.Proofs.Client.Lifecycle
import Stepwise.Proofs.Joint.Step

namespace Stepwise

variable {V : Type} [ProcessView V] {ch : Channels}

/-- No process has started so far, and there is only one client. -/
structure Unstarted (tree : Client V) (waiting : List Dispatch) (server : Server) : Prop where
  childless : tree.children = []
  fresh : tree.current = none
  nobody : server.instances = []
  own : ∀ d ∈ waiting, d.client = tree.id

/-- While all requests that wait are those of one client, there is one. -/
theorem Chronicle.single (h : ch.dispatchOpen = true) {tree : Client V} {d : Dispatch}
    {newer : List Dispatch} {log : List Effect} (chron : Chronicle ch tree (d :: newer) log)
    {o : ClientState V} (ho : o ∈ tree.states) (own : ∀ e ∈ d :: newer, e.client = o.id) :
    o.phase = .running ∧ newer = [] := by
  obtain ⟨_, st, -⟩ := chron.carries h ho
  have hall : (d :: newer).filter (·.client = o.id) = d :: newer :=
    List.filter_eq_self.2 fun e he => decide_eq_true (own e he)
  have hwaiting : waitingFor o.id (d :: newer) = [] ++ d.request :: newer.map (·.request) := by
    rw [waitingFor, hall]
    rfl
  rw [hwaiting] at st
  obtain ⟨w, hnone⟩ := st.waits_of_mem
  exact ⟨w.running, List.map_eq_nil_iff.1 hnone⟩

/-- A step without work has no processes inside it. -/
theorem Snapshot.children_of_idle {s : Snapshot} (work : s.hasOutstandingWork = false) :
    s.children = [] := by
  rw [hasOutstandingWork, Bool.or_eq_false_iff, Bool.not_eq_false', List.isEmpty_iff] at work
  exact work.2

/-- How the start of the first process ends: there is no such process; or there is nothing to do in it,
so that its client is done with it, and it stays where it is; or clients and server agree from now on. -/
inductive Opened (t : Turn V Unit) (after : Server) : Prop where
  | unknown (failed : t.client.phase = .failed) (nobody : after.instances = [])
      (silent : dispatchesOf t.effects = [])
  | idle {s : Snapshot} {p : Instance} (finished : t.client.phase = .finished)
      (left : after.instances = [p]) (root : p.parent = none) (agrees : s.Agrees p)
      (work : s.hasOutstandingWork = false)
      (current : t.client.current = some { s with finished := true })
      (childless : t.client.children = []) (silent : dispatchesOf t.effects = [])
  | joined (j : Joined [t.client] (dispatchesOf t.effects) after)

namespace Unstarted

variable {tree : Client V} {waiting : List Dispatch} {log : List Effect}
  {before after : Server}

/-- A user starts no process by itself. -/
theorem act (h : ch.dispatchOpen = true) (unstarted : Unstarted tree waiting before)
    {id : ClientId} {a : UserAction} (begun : tree.phase ≠ .idle ∨ ∀ s, a = .attach s → id ≠ tree.id)
    {t : Turn V (Option Outcome)} (step : StepsAt id (fun _ => true) a.act ch tree t) :
    Unstarted t.client (waiting ++ dispatchesOf t.effects) before := by
  obtain ⟨childless, fresh, nobody, senders⟩ := unstarted
  obtain ⟨o, kids⟩ := tree
  obtain rfl : kids = [] := childless
  obtain ⟨hid, rfl⟩ := step.alone
  have begun : o.phase ≠ .idle ∨ ∀ s, a ≠ .attach s :=
    begun.imp_right fun own s heq => own s heq hid.symm
  obtain ⟨r, o', front, back, reaction, -, hrun⟩ := Stimulus.follows_run h (.action a) o []
  have hrun : a.act.run ch ⟨o, []⟩ = _ := hrun
  rw [Stimulus.offspring_act begun] at reaction hrun
  have hsame : o'.id = o.id := reaction.named.1
  rw [hrun]
  refine ⟨rfl, reaction.fresh fresh begun, nobody, fun d hd => ?_⟩
  refine Eq.trans ?_ hsame.symm
  rcases List.mem_append.1 hd with hd | hd
  · exact senders d hd
  · exact sender_of_alone (fun e he => reaction.client_of_mem he) hd

/-- There is no such process. -/
theorem failed (h : ch.dispatchOpen = true) (nobody : after.instances = []) {o : ClientState V}
    (going : o.phase.isTerminal = false) {message : String} {cause : Option String}
    {t : Turn V Unit}
    (ht : (Act.respond (.error (.unrecoverable message cause))).run ch ⟨o, []⟩ = t) :
    Opened t after := by
  obtain ⟨r, o', front, back, reaction, hclient, heffects⟩ := Act.follows_respond h
    (.error (.unrecoverable message cause)) o []
  rw [ht] at hclient heffects
  cases reaction with
  | rejected rejected =>
    obtain ⟨failed, silent⟩ := rejected.fails going
    exact .unknown (hclient ▸ failed) nobody (heffects ▸ dispatchesOf_alone silent)

/-- The first process has started. -/
theorem started (h : ch.dispatchOpen = true) (nobody : before.instances = []) {s : Snapshot}
    (grown : Server.Grown none before after [s]) {o : ClientState V}
    (going : o.phase.isTerminal = false) {t : Turn V Unit}
    (ht : (Act.respond (.ok s)).run ch ⟨o, []⟩ = t) : Opened t after := by
  obtain ⟨r, o', front, back, reaction, hclient, heffects⟩ := Act.follows_respond h (.ok s) o []
  rw [ht] at hclient heffects
  have hsame : o'.id = o.id := reaction.named.1
  cases grown.planted s (List.mem_singleton_self s) with
  | @mk _ _ p running agrees hparent children =>
    cases reaction with
    | received received =>
      rcases received.shows going agrees.unfinished with
        ⟨-, work, finished, current, silent⟩ | ⟨going', shows⟩
      · have alone : s.children = [] := Snapshot.children_of_idle work
        have childless : Stimulus.offspring o (.response (.ok s)) = [] :=
          List.subset_nil.1 (alone ▸ o.offspring_subset s)
        have only : after.instances = [p] := by
          have hids := grown.ids
          rw [nobody, List.map_nil, List.append_nil, List.flatMap_singleton, s.ids_eq, alone,
            List.flatMap_nil, List.perm_singleton] at hids
          obtain ⟨q, hq, -⟩ := List.map_eq_singleton_iff.1 hids
          have hp : p ∈ [q] := hq ▸ running
          rw [hq, List.mem_singleton.1 hp]
        rw [childless] at hclient heffects silent
        exact .idle (hclient ▸ finished) only hparent agrees work (hclient ▸ current)
          (hclient ▸ rfl) (heffects ▸ dispatchesOf_alone silent)
      · have attended := received.attended h going agrees.unfinished children
        rw [← hsame] at attended
        refine .joined ?_
        rw [hclient, heffects]
        exact .begun nobody grown going' shows attended

/-- The start is answered. -/
theorem deliver (h : ch.dispatchOpen = true) {d : Dispatch} {newer : List Dispatch}
    (unstarted : Unstarted tree (d :: newer) before)
    (chron : Chronicle ch tree (d :: newer) log) (distinct : after.IdsDistinct)
    {result : Except ServiceError Snapshot} (answered : Answered before d.request result after)
    {t : Turn V Unit} (ht : (Act.route d.client result).run ch tree = t) :
    newer = [] ∧ (∃ descriptor, d.request = .start descriptor) ∧ Opened t after := by
  obtain ⟨childless, fresh, nobody, senders⟩ := unstarted
  obtain ⟨o, kids⟩ := tree
  obtain rfl : kids = [] := childless
  have ho : o ∈ Client.states ⟨o, []⟩ := Client.mem_states_mk.2 (.inl rfl)
  have hid : o.id = d.client := (senders d List.mem_cons_self).symm
  obtain ⟨running, rfl⟩ := chron.single h ho senders
  have going : o.phase.isTerminal = false := by
    rw [running]
    rfl
  have hturn : (Act.respond result).run ch ⟨o, []⟩ = t := by
    subst ht
    rcases Act.route_spec d.client result ch (⟨o, []⟩ : Client V) with ⟨stranger, -⟩ | step
    · exact absurd hid (stranger o ho)
    · exact step.alone.2
  -- a client that shows nothing has asked for nothing but its start
  have matching := chron.matching h ho List.mem_cons_self hid
  generalize d.request = request at answered matching
  cases matching with
  | «continue» t mode event current => rw [fresh] at current; cases current
  | start descriptor =>
    refine ⟨rfl, ⟨descriptor, rfl⟩, ?_⟩
    cases answered with
    | unscripted _ same => exact failed h (same.trans nobody) going hturn
    | started _ grown => exact started h nobody (grown distinct) going hturn

end Unstarted

/-! ## The end -/

/-- Whatever happens to a client whose process is over, it leaves nothing behind and stands where it
did, with the children it had. -/
theorem Stimulus.still_run (h : ch.dispatchOpen = true) (i : Stimulus) {o : ClientState V}
    (ended : o.phase.isTerminal = true) (kids : List (Client V)) :
    (i.act.run ch ⟨o, kids⟩).effects = [] ∧ (i.act.run ch ⟨o, kids⟩).client.children = kids ∧
      o.Stands (i.act.run ch ⟨o, kids⟩).client.toClientState := by
  obtain ⟨r, o', before, after, reaction, -, hrun⟩ := i.follows_run h o kids
  obtain ⟨silent, stands⟩ := reaction.absorbed ended
  simp only [List.append_eq_nil_iff] at silent
  obtain ⟨⟨rfl, hcalls⟩, rfl⟩ := silent
  -- no panel was opened, so there are no new children
  have alone : i.offspring o = [] := by
    cases hoffspring : i.offspring o with
    | nil => rfl
    | cons s rest => rw [hoffspring] at hcalls; cases hcalls
  rw [alone] at hrun
  rw [hrun]
  exact ⟨rfl, List.append_nil _, stands⟩

/-- Whatever happens to a client whose process is over, it stays over. -/
theorem Stimulus.isTerminal_run (h : ch.dispatchOpen = true) (i : Stimulus) (c : Client V)
    (ended : c.phase.isTerminal = true) : (i.act.run ch c).client.phase.isTerminal = true := by
  obtain ⟨-, -, stands⟩ := i.still_run h ended c.children
  rw [c.mk_eta] at stands
  rw [stands.phase]
  exact ended

end Stepwise
