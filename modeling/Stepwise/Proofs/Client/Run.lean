/-
# Runs of trees of clients

A tree of clients with the requests that wait and with everything that was left behind. Users act on
any client of the tree; requests are answered in any order, each once at most, by anything at all.

* `World`, `TreeRun` : everything that can happen to a tree;
* `Chronicle` : every client of the tree has a run of its own, of which the effects that are its own
  and its requests that wait are the traces;
* `TreeRun.chronicle` : this is so at every point of a run;
* `single_request_in_flight` : what it means for requests, locks and questions.
-/
import Stepwise.Proofs.Client.Standing
import Stepwise.Proofs.Client.Tree
import Stepwise.View.Recording

namespace Stepwise

/-! ## Runs -/

/-- A tree of clients and what is around it. -/
structure World (V : Type) where
  tree : Client V
  /-- The requests that were handed over and not answered, the oldest first. -/
  waiting : List Dispatch
  /-- Everything that the clients have left behind. -/
  log : List Effect

variable {V : Type} [ProcessView V] {ch : Channels}

/-- A run of a tree that begins with one client. -/
inductive TreeRun (ch : Channels) (top : Client V) : World V → Prop where
  | start : TreeRun ch top ⟨top, [], []⟩
  | act {w : World V} (run : TreeRun ch top w) (id : ClientId) (a : UserAction)
      {t : Turn V (Option Outcome)} (ht : w.tree.operate? id a.act ch = some t) :
    TreeRun ch top ⟨t.client, w.waiting ++ dispatchesOf t.effects, w.log ++ t.effects⟩
  | respond {tree : Client V} {older newer : List Dispatch} {d : Dispatch} {log : List Effect}
      (run : TreeRun ch top ⟨tree, older ++ d :: newer, log⟩)
      (result : Except ServiceError Snapshot) {t : Turn V Unit}
      (ht : (Act.route d.client result).run ch tree = t) :
    TreeRun ch top ⟨t.client, older ++ newer ++ dispatchesOf t.effects, log ++ t.effects⟩

/-! ## Chronicles -/

/-- Every client of the tree has a run of its own, of which its own effects and its requests are the
traces; and names below a client that were ever used have numbers that it has given out. -/
structure Chronicle (ch : Channels) (tree : Client V) (waiting : List Dispatch)
    (log : List Effect) : Prop where
  placed : tree.WellPlaced
  fresh : ∀ o ∈ tree.states, ∀ e ∈ log, ∀ n, (o.id.child n).Within e.client → n < o.opened
  noted : ∀ d ∈ waiting, .dispatch d ∈ log
  recorded : ∀ o ∈ tree.states, ∃ H kids,
    ClientRun ch H ⟨o, kids⟩ (waitingFor o.id waiting) ∧ ownLog H = about o.id log

/-- What happens to the client with a name, and which requests go on waiting then. -/
inductive Faces (id : ClientId) (waiting : List Dispatch) : Stimulus → List Dispatch → Prop where
  | action (a : UserAction) : Faces id waiting (.action a) waiting
  | answer {older newer : List Dispatch} {d : Dispatch} (hid : d.client = id)
      (hwaiting : waiting = older ++ d :: newer) (result : Except ServiceError Snapshot) :
    Faces id waiting (.response result) (older ++ newer)

section Faces

variable {id : ClientId} {waiting remaining : List Dispatch} {i : Stimulus}

omit [ProcessView V] in
theorem Faces.subset (faces : Faces id waiting i remaining) : ∀ d ∈ remaining, d ∈ waiting := by
  intro d hd
  cases faces with
  | action => exact hd
  | answer hid hwaiting =>
    rw [hwaiting]
    rcases List.mem_append.1 hd with hd | hd
    · exact List.mem_append_left _ hd
    · exact List.mem_append_right _ (List.mem_cons_of_mem _ hd)

/-- The requests of all other clients go on waiting. -/
theorem Faces.waitingFor_of_ne (faces : Faces id waiting i remaining) {other : ClientId}
    (h : other ≠ id) : waitingFor other remaining = waitingFor other waiting := by
  cases faces with
  | action => rfl
  | @answer older newer d hid hwaiting =>
    have hd : waitingFor other [d] = [] :=
      waitingFor_eq_nil fun e he heq => h (by rw [← heq, List.mem_singleton.1 he, hid])
    rw [hwaiting, ← List.singleton_append, waitingFor_append, waitingFor_append,
      waitingFor_append, hd, List.nil_append]

/-- The run of the client goes on. -/
theorem Faces.clientRun (faces : Faces id waiting i remaining) {H : List (Moment V)} {c : Client V}
    (hid : c.id = id) (run : ClientRun ch H c (waitingFor c.id waiting)) :
    ClientRun ch (H ++ [c.face ch i]) (c.face ch i).turn.client
      (waitingFor c.id remaining ++ (c.face ch i).requests) := by
  cases faces with
  | action a => exact run.act a
  | @answer older newer d hd hwaiting result =>
    have hself : waitingFor c.id [d] = [d.request] := by
      simp [waitingFor, hd, hid]
    rw [hwaiting, ← List.singleton_append, waitingFor_append, waitingFor_append, hself,
      List.singleton_append] at run
    rw [waitingFor_append]
    exact run.answer result

end Faces

/-! ## One step -/

section Step

variable {o : ClientState V} {kids : List (Client V)} {i : Stimulus}

/-- What a step leaves behind: the client's own, and what lies below its new children. -/
theorem Stimulus.place_of_mem_effects (h : ch.dispatchOpen = true) {e : Effect}
    (he : e ∈ (i.act.run ch ⟨o, kids⟩).effects) :
    e.client = o.id ∨ ∃ n, o.opened ≤ n ∧
      n < (i.act.run ch ⟨o, kids⟩).client.opened ∧ (o.id.child n).Within e.client := by
  obtain ⟨r, o', before, after, reaction, hopened, hrun⟩ := follows_run h i o kids
  rw [hrun] at he ⊢
  rcases List.mem_append.1 he with he | he
  · rcases List.mem_append.1 he with he | he
    · exact .inl (reaction.client_of_mem (List.mem_append_left _ (List.mem_append_left _ he)))
    · rcases place_of_mem_spawnEffects h he with hid | ⟨n, hle, hlt, hn⟩
      · exact .inl hid
      · exact .inr ⟨n, hle, hopened ▸ hlt, hn⟩
  · exact .inl (reaction.client_of_mem (List.mem_append_right _ he))

/-- What a client at or below a new child leaves behind. -/
theorem Stimulus.about_effects_of_within (h : ch.dispatchOpen = true) {t : Turn V Unit}
    (ht : t ∈ births ch o.awake (i.offspring o)) {id : ClientId} (hid : t.client.id.Within id) :
    about id (i.act.run ch ⟨o, kids⟩).effects = about id t.effects := by
  obtain ⟨r, o', before, after, reaction, -, hrun⟩ := follows_run h i o kids
  obtain ⟨n, -, -, hn⟩ := number_of_mem_births h ht
  have hne : id ≠ o.id := by
    rintro rfl
    rw [hn] at hid
    exact ClientId.not_within_of_child _ _ hid
  have hbefore : about id before = [] := about_eq_nil fun e he heq => hne (heq.symm.trans
    (reaction.client_of_mem (List.mem_append_left _ (List.mem_append_left _ he))))
  have hafter : about id after = [] := about_eq_nil fun e he heq => hne (heq.symm.trans
    (reaction.client_of_mem (List.mem_append_right _ he)))
  rw [hrun, about_append, about_append, hbefore, hafter, about_spawnEffects_of_within h ht hid,
    List.append_nil, List.nil_append]

/-- Who is there after a step of one client: the client, those below its children, and those below its
new children that are kept. -/
theorem Stimulus.mem_states_run (h : ch.dispatchOpen = true) {p : ClientState V} :
    p ∈ (i.act.run ch ⟨o, kids⟩).client.states ↔
      p = (i.act.run ch ⟨o, kids⟩).client.toClientState ∨ (∃ k ∈ kids, p ∈ k.states) ∨
      ∃ t ∈ births ch o.awake (i.offspring o),
        t.client.phase.isTerminal = false ∧ p ∈ t.client.states := by
  obtain ⟨r, o', before, after, reaction, -, hrun⟩ := follows_run h i o kids
  rw [hrun, Client.mem_states_mk]
  refine or_congr_right ⟨?_, ?_⟩
  · rintro ⟨k, hk, hp⟩
    rcases List.mem_append.1 hk with hk | hk
    · exact .inl ⟨k, hk, hp⟩
    · obtain ⟨⟨t, ht, rfl⟩, going⟩ := mem_newcomers.1 hk
      exact .inr ⟨t, ht, going, hp⟩
  · rintro (⟨k, hk, hp⟩ | ⟨t, ht, going, hp⟩)
    · exact ⟨k, List.mem_append_left _ hk, hp⟩
    · exact ⟨t.client, List.mem_append_right _ (mem_newcomers.2 ⟨⟨t, ht, rfl⟩, going⟩), hp⟩

end Step

namespace Chronicle

variable {tree tree' : Client V} {waiting remaining : List Dispatch} {log : List Effect}
  {o : ClientState V} {kids : List (Client V)} {i : Stimulus}

/-- Nothing is known of places below a client with numbers that it has not given out. -/
theorem unknown (chron : Chronicle ch tree waiting log) (ho : o ∈ tree.states) {n : Nat}
    (hn : o.opened ≤ n) {id : ClientId} (hid : (o.id.child n).Within id) :
    about id log = [] ∧ waitingFor id waiting = [] := by
  have absent : ∀ e ∈ log, e.client ≠ id := by
    rintro e he rfl
    have := chron.fresh o ho e he n hid
    omega
  exact ⟨about_eq_nil absent, waitingFor_eq_nil fun d hd => absent _ (chron.noted d hd)⟩

/-- A client with a snapshot has begun. -/
theorem begun (h : ch.dispatchOpen = true) (chron : Chronicle ch tree waiting log)
    (ho : o ∈ tree.states) {s : Snapshot} (current : o.current = some s) : o.phase ≠ .idle := by
  obtain ⟨H, others, run, -⟩ := chron.recorded o ho
  intro idle
  cases run.standing h with
  | waits w =>
    have running : o.phase = .running := w.running
    rw [idle] at running
    cases running
  | rests r =>
    have none : o.current = none := r.begun idle
    rw [current] at none
    cases none

/-- Who is in the tree after a step of one of its clients: that client, clients below its new children,
and clients that were there, with other names. -/
theorem inhabitants (h : ch.dispatchOpen = true) (chron : Chronicle ch tree waiting log)
    (hc : ⟨o, kids⟩ ∈ tree.members)
    (hstates : ∀ p ∈ tree'.states, p ∈ (i.act.run ch ⟨o, kids⟩).client.states ∨
      (p ∈ tree.states ∧ ¬ o.id.Within p.id))
    {p : ClientState V} (hp : p ∈ tree'.states) :
    p = (i.act.run ch ⟨o, kids⟩).client.toClientState ∨
      (∃ t ∈ births ch o.awake (i.offspring o), p ∈ t.client.states) ∨
      (p ∈ tree.states ∧ p.id ≠ o.id) := by
  rcases hstates p hp with hp | ⟨hp, hnot⟩
  · rcases (Stimulus.mem_states_run h).1 hp with rfl | ⟨k, hk, hp⟩ | ⟨t, ht, -, hp⟩
    · exact .inl rfl
    · -- the client's older children are where they were
      have hsub : ∀ d ∈ (Client.mk o kids).members, d ∈ tree.members :=
        fun d hd => Client.members_trans hc hd
      obtain ⟨d, hd, rfl⟩ := List.mem_map.1 hp
      have hd' : d ∈ (Client.mk o kids).members := Client.mem_members_mk.2 (.inr ⟨k, hk, hd⟩)
      refine .inr (.inr ⟨List.mem_map_of_mem (hsub d hd'), fun heq => ?_⟩)
      obtain ⟨n, -, hn⟩ := (chron.placed _ hc).numbered k hk
      have placed : k.WellPlaced := fun e he =>
        chron.placed e (hsub e (Client.mem_members_mk.2 (.inr ⟨k, hk, he⟩)))
      have hwithin := placed.within (List.mem_map_of_mem hd)
      rw [hn, heq] at hwithin
      exact ClientId.not_within_of_child _ n hwithin
    · exact .inr (.inl ⟨t, ht, hp⟩)
  · refine .inr (.inr ⟨hp, fun heq => hnot ?_⟩)
    rw [heq]
    exact .refl _

/-- What a step leaves behind tells nothing about clients that were there, with other names. -/
theorem about_effects_of_old (h : ch.dispatchOpen = true) (chron : Chronicle ch tree waiting log)
    (ho : o ∈ tree.states) {p : ClientState V} (hp : p ∈ tree.states) (hne : p.id ≠ o.id) :
    about p.id (i.act.run ch ⟨o, kids⟩).effects = [] := by
  apply about_eq_nil
  intro e he heq
  rcases Stimulus.place_of_mem_effects h he with hid | ⟨n, hle, -, hn⟩
  · exact hne (heq.symm.trans hid)
  · rw [heq] at hn
    have := chron.placed.lt_opened ho hp hn
    omega

/-- A place that a step mentions and that lies below a client which was there was given out by it. -/
theorem lt_opened_of_old (h : ch.dispatchOpen = true) (chron : Chronicle ch tree waiting log)
    (ho : o ∈ tree.states) {p : ClientState V} (hp : p ∈ tree.states) (hne : p.id ≠ o.id)
    {e : Effect} (he : e ∈ (i.act.run ch ⟨o, kids⟩).effects) {n : Nat}
    (hn : (p.id.child n).Within e.client) : n < p.opened := by
  rcases Stimulus.place_of_mem_effects h he with hid | ⟨m, hle, -, hm⟩
  · rw [hid] at hn
    exact chron.placed.lt_opened hp ho hn
  · rcases hn.total hm with hwithin | hwithin
    · rcases ClientId.eq_or_within_of_child hwithin with heq | hwithin
      · exact absurd (ClientId.eq_of_child_eq heq) hne
      · exact chron.placed.lt_opened hp ho hwithin
    · rcases ClientId.eq_or_within_of_child hwithin with heq | hwithin
      · exact absurd (ClientId.eq_of_child_eq heq).symm hne
      · have := chron.placed.lt_opened ho hp hwithin
        omega

/-- The run of the client with the step goes on. -/
theorem recorded_self (h : ch.dispatchOpen = true) (chron : Chronicle ch tree waiting log)
    (ho : o ∈ tree.states) (faces : Faces o.id waiting i remaining) {t : Turn V (Option Outcome)}
    (ht : i.act.run ch ⟨o, kids⟩ = t) :
    ∃ H others, ClientRun ch H ⟨t.client.toClientState, others⟩
        (waitingFor t.client.id (remaining ++ dispatchesOf t.effects)) ∧
      ownLog H = about t.client.id (log ++ t.effects) := by
  subst ht
  obtain ⟨hid, -⟩ := Stimulus.named_run h i (⟨o, kids⟩ : Client V)
  obtain ⟨H, others, run, hlog⟩ := chron.recorded o ho
  have hrun := faces.clientRun rfl (run.apart kids)
  refine ⟨H ++ [(⟨o, kids⟩ : Client V).face ch i], (i.act.run ch ⟨o, kids⟩).client.children, ?_, ?_⟩
  · rw [Client.mk_eta, hid, waitingFor_append, ← requestsOf_about]
    exact hrun
  · rw [hid, ownLog_append, ownLog_singleton, hlog, about_append]
    rfl

/-- The run of a new client is what it has done so far. -/
theorem recorded_born (h : ch.dispatchOpen = true) (chron : Chronicle ch tree waiting log)
    (ho : o ∈ tree.states) (faces : Faces o.id waiting i remaining) {t : Turn V (Option Outcome)}
    (ht : i.act.run ch ⟨o, kids⟩ = t) {u : Turn V Unit} (hu : u ∈ births ch o.awake (i.offspring o))
    (birth : Chronicle ch u.client (dispatchesOf u.effects) u.effects) {p : ClientState V}
    (hp : p ∈ u.client.states) :
    ∃ H others, ClientRun ch H ⟨p, others⟩
        (waitingFor p.id (remaining ++ dispatchesOf t.effects)) ∧
      ownLog H = about p.id (log ++ t.effects) := by
  subst ht
  obtain ⟨H, others, run, hlog⟩ := birth.recorded p hp
  obtain ⟨m, hle, -, hm⟩ := number_of_mem_births h hu
  have hwithin := birth.placed.within hp
  have habout : about p.id (i.act.run ch ⟨o, kids⟩).effects = about p.id u.effects :=
    Stimulus.about_effects_of_within h hu hwithin
  rw [hm] at hwithin
  -- its name is new, so nothing was written about it, and nothing of it waited
  obtain ⟨hnolog, hnone⟩ := chron.unknown ho hle hwithin
  have hne : p.id ≠ o.id := by
    intro heq
    rw [heq] at hwithin
    exact ClientId.not_within_of_child _ _ hwithin
  refine ⟨H, others, ?_, ?_⟩
  · rw [waitingFor_append, faces.waitingFor_of_ne hne, hnone, List.nil_append, ← requestsOf_about,
      habout, requestsOf_about]
    exact run
  · rw [hlog, about_append, hnolog, habout, List.nil_append]

/-- Nothing happens to a client that was there, with another name. -/
theorem recorded_old (h : ch.dispatchOpen = true) (chron : Chronicle ch tree waiting log)
    (ho : o ∈ tree.states) (faces : Faces o.id waiting i remaining) {t : Turn V (Option Outcome)}
    (ht : i.act.run ch ⟨o, kids⟩ = t) {p : ClientState V} (hp : p ∈ tree.states)
    (hne : p.id ≠ o.id) :
    ∃ H others, ClientRun ch H ⟨p, others⟩
        (waitingFor p.id (remaining ++ dispatchesOf t.effects)) ∧
      ownLog H = about p.id (log ++ t.effects) := by
  subst ht
  obtain ⟨H, others, run, hlog⟩ := chron.recorded p hp
  have hnone : about p.id (i.act.run ch ⟨o, kids⟩).effects = [] :=
    chron.about_effects_of_old h ho hp hne
  refine ⟨H, others, ?_, ?_⟩
  · rw [waitingFor_append, faces.waitingFor_of_ne hne, ← requestsOf_about, hnone, requestsOf_nil,
      List.append_nil]
    exact run
  · rw [hlog, about_append, hnone, List.append_nil]

/-- A step of one client writes the chronicle on, if that is so for the clients of new children. -/
theorem step (h : ch.dispatchOpen = true) (chron : Chronicle ch tree waiting log)
    (hc : ⟨o, kids⟩ ∈ tree.members) (placed : tree'.WellPlaced)
    (hstates : ∀ p ∈ tree'.states, p ∈ (i.act.run ch ⟨o, kids⟩).client.states ∨
      (p ∈ tree.states ∧ ¬ o.id.Within p.id))
    (faces : Faces o.id waiting i remaining)
    (hbirths : ∀ t ∈ births ch o.awake (i.offspring o),
      Chronicle ch t.client (dispatchesOf t.effects) t.effects) :
    Chronicle ch tree' (remaining ++ dispatchesOf (i.act.run ch ⟨o, kids⟩).effects)
      (log ++ (i.act.run ch ⟨o, kids⟩).effects) := by
  have ho : o ∈ tree.states := List.mem_map_of_mem hc
  obtain ⟨hid, -⟩ := Stimulus.named_run h i (⟨o, kids⟩ : Client V)
  have hopened : o.opened ≤ (i.act.run ch ⟨o, kids⟩).client.opened := by
    obtain ⟨r, o', before, after, -, hopened, hrun⟩ := i.follows_run h o kids
    rw [hrun]
    show o.opened ≤ o'.opened
    omega
  refine ⟨placed, ?_, ?_, ?_⟩
  · -- a place below a client that is mentioned has a number that this client has given out
    intro p hp e he n hn
    rcases chron.inhabitants h hc hstates hp with rfl | ⟨t, ht, hpt⟩ | ⟨hp, hne⟩
    · have hn : (o.id.child n).Within e.client := hid ▸ hn
      rcases List.mem_append.1 he with he | he
      · exact Nat.lt_of_lt_of_le (chron.fresh o ho e he n hn) hopened
      · rcases Stimulus.place_of_mem_effects h he with heq | ⟨m, -, hlt, hm⟩
        · rw [heq] at hn
          exact absurd hn (ClientId.not_within_of_child _ _)
        · rwa [ClientId.eq_of_within hn hm]
    · obtain ⟨m, hle, -, hm⟩ := number_of_mem_births h ht
      have hwithin : t.client.id.Within e.client :=
        ((hbirths t ht).placed.within hpt).trans ((ClientId.within_child _ _).trans hn)
      rcases List.mem_append.1 he with he | he
      · rw [hm] at hwithin
        have := chron.fresh o ho e he m hwithin
        have hle : o.opened ≤ m := hle
        omega
      · have hmem : e ∈ about e.client (i.act.run ch ⟨o, kids⟩).effects :=
          List.mem_filter.2 ⟨he, decide_eq_true rfl⟩
        rw [Stimulus.about_effects_of_within h ht hwithin] at hmem
        exact (hbirths t ht).fresh p hpt e (List.mem_filter.1 hmem).1 n hn
    · rcases List.mem_append.1 he with he | he
      · exact chron.fresh p hp e he n hn
      · exact chron.lt_opened_of_old h ho hp hne he hn
  · intro d hd
    rcases List.mem_append.1 hd with hd | hd
    · exact List.mem_append_left _ (chron.noted d (faces.subset d hd))
    · exact List.mem_append_right _ (mem_of_mem_dispatchesOf hd)
  · intro p hp
    rcases chron.inhabitants h hc hstates hp with rfl | ⟨t, ht, hpt⟩ | ⟨hp, hne⟩
    · exact chron.recorded_self h ho faces rfl
    · exact chron.recorded_born h ho faces rfl ht (hbirths t ht) hpt
    · exact chron.recorded_old h ho faces rfl hp hne

/-- The chronicle of a client that has done nothing. -/
theorem new (ch : Channels) (id : ClientId) (parent : Option ClientId) (paused : Bool) (view : V) :
    Chronicle ch ⟨.fresh id parent paused view, []⟩ [] [] := by
  refine ⟨Client.wellPlaced_leaf _, fun _ _ e he => ?_, fun d hd => ?_, fun o ho => ?_⟩
  · cases he
  · cases hd
  rcases Client.mem_states_mk.1 ho with rfl | ⟨k, hk, -⟩
  · exact ⟨[], [], .new id parent paused view, rfl⟩
  · cases hk

/-- The chronicle of a client that has taken over, and of those below it. -/
theorem attach (h : ch.dispatchOpen = true) (s : Snapshot) :
    ∀ (id : ClientId) (parent : Option ClientId) (paused : Bool) (view : V) {t : Turn V Unit},
      (Act.attach s).run ch ⟨.fresh id parent paused view, []⟩ = t →
      Chronicle ch t.client (dispatchesOf t.effects) t.effects := by
  induction s using Snapshot.forall_of_children with
  | h s ih =>
    rintro id parent paused view t rfl
    -- a client that takes over has done nothing before, so its chronicle is that of this one step
    have hrun := run_act_attach (c := ⟨.fresh id parent paused view, []⟩) h s rfl
    have hstep := (new ch id parent paused view).step (i := .action (.attach s)) h
      (Client.mem_members_self _)
      (Stimulus.wellPlaced_run h (.action (.attach s)) (Client.wellPlaced_leaf _))
      (fun p hp => .inl hp) (.action (.attach s)) fun u hu => ?_
    · rw [hrun, List.nil_append, List.nil_append] at hstep
      exact hstep
    · obtain ⟨v, hv, n, view', rfl⟩ := exists_of_mem_births hu
      exact ih v (Stimulus.offspring_attach hv) _ _ _ _ rfl

theorem of_mem_births (h : ch.dispatchOpen = true) {o : ClientState V} {ss : List Snapshot}
    {t : Turn V Unit} (ht : t ∈ births ch o ss) :
    Chronicle ch t.client (dispatchesOf t.effects) t.effects := by
  obtain ⟨s, -, n, v, rfl⟩ := exists_of_mem_births ht
  exact attach h s _ _ _ _ rfl

/-- A step of one client in the tree writes the chronicle on. -/
theorem stepsAt (h : ch.dispatchOpen = true) {α : Type} {keep : Client V → Bool} {act : Act V α}
    {id : ClientId} {t : Turn V α} (chron : Chronicle ch tree waiting log)
    (step : StepsAt id keep act ch tree t)
    (hact : ∀ c : Client V, (act.run ch c).client = (i.act.run ch c).client ∧
      (act.run ch c).effects = (i.act.run ch c).effects)
    (faces : Faces id waiting i remaining) :
    Chronicle ch t.client (remaining ++ dispatchesOf t.effects) (log ++ t.effects) := by
  have hplaced : t.client.WellPlaced := by
    refine (step.wellPlaced chron.placed fun c hc => ?_).1
    have hsub : c.WellPlaced := fun d hd => chron.placed d (Client.members_trans hc hd)
    rw [(hact c).1]
    exact ⟨Stimulus.wellPlaced_run h i hsub, Stimulus.named_run h i c⟩
  obtain ⟨⟨o, kids⟩, hc, rfl, -, heffects, hstates⟩ := step.mem_states chron.placed
  rw [heffects, (hact _).2]
  refine chron.step h hc hplaced (fun p hp => ?_) faces fun u hu => of_mem_births h hu
  rw [← (hact _).1]
  exact hstates p hp

end Chronicle

/-! ## Whole runs -/

/-- The outcome that a stimulus adds to a response changes nothing else. -/
theorem Stimulus.run_response (result : Except ServiceError Snapshot) (c : Client V) :
    ((Act.respond result).run ch c).client = ((response result).act.run ch c).client ∧
      ((Act.respond result).run ch c).effects = ((response result).act.run ch c).effects := by
  show _ = (Act.run (Act.respond result >>= _) ch c).client ∧
    _ = (Act.run (Act.respond result >>= _) ch c).effects
  rw [Act.run_bind]
  cases hresult : ((Act.respond result).run ch c).result with
  | error e => exact ⟨rfl, rfl⟩
  | ok => exact ⟨rfl, (List.append_nil _).symm⟩

/-- Whatever happens in a tree, its top keeps its name and its parent. -/
theorem StepsAt.named (h : ch.dispatchOpen = true) {α : Type} {id : ClientId}
    {keep : Client V → Bool} {act : Act V α} {i : Stimulus} {tree : Client V} {t : Turn V α}
    (step : StepsAt id keep act ch tree t)
    (hact : ∀ c : Client V, (act.run ch c).client = (i.act.run ch c).client) :
    t.client.id = tree.id ∧ t.client.parent = tree.parent := by
  refine step.top (P := fun o => o.id = tree.id ∧ o.parent = tree.parent) (fun c hc => ?_) ⟨rfl, rfl⟩
  rw [hact c]
  have hnamed := Stimulus.named_run h i c
  exact ⟨hnamed.1.trans hc.1, hnamed.2.trans hc.2⟩

theorem Act.route_named (h : ch.dispatchOpen = true) (id : ClientId)
    (result : Except ServiceError Snapshot) (tree : Client V) :
    ((route id result).run ch tree).client.id = tree.id ∧
      ((route id result).run ch tree).client.parent = tree.parent := by
  rcases route_spec id result ch tree with ⟨-, hrun⟩ | step
  · rw [hrun]
    exact ⟨rfl, rfl⟩
  · exact step.named h fun c => (Stimulus.run_response result c).1

/-- At every point of a run of a tree, every client of the tree has a run of its own. -/
theorem TreeRun.chronicle (h : ch.dispatchOpen = true) {id : ClientId} {parent : Option ClientId}
    {paused : Bool} {view : V} {w : World V}
    (run : TreeRun ch ⟨.fresh id parent paused view, []⟩ w) :
    Chronicle ch w.tree w.waiting w.log := by
  induction run with
  | start => exact .new ch id parent paused view
  | act _ focus a ht ih =>
    exact ih.stepsAt h (Client.stepsAt_of_operate? ht) (fun _ => ⟨rfl, rfl⟩) (.action a)
  | @respond tree older newer d log _ result t ht ih =>
    subst ht
    rcases Act.route_spec d.client result ch tree with ⟨stranger, hrun⟩ | step
    · -- the client is no longer there
      rw [hrun]
      refine ⟨ih.placed, ?_, ?_, ?_⟩
      · intro o ho e he
        exact ih.fresh o ho e (by simpa using he)
      · intro e he
        refine List.mem_append_left _ (ih.noted e ?_)
        simp [dispatchesOf] at he ⊢
        rcases he with he | he
        · exact .inl he
        · exact .inr (.inr he)
      · intro o ho
        obtain ⟨H, kids, run, hlog⟩ := ih.recorded o ho
        have hd : waitingFor o.id [d] = [] := waitingFor_eq_nil fun e he heq =>
          stranger o ho (by rw [← heq, List.mem_singleton.1 he])
        refine ⟨H, kids, ?_, ?_⟩
        · rw [← List.singleton_append, waitingFor_append, waitingFor_append, hd,
            List.nil_append] at run
          show ClientRun ch H ⟨o, kids⟩ (waitingFor o.id (older ++ newer ++ []))
          rw [List.append_nil, waitingFor_append]
          exact run
        · show ownLog H = about o.id (log ++ [])
          rw [List.append_nil]
          exact hlog
    · exact ih.stepsAt h step (Stimulus.run_response result) (.answer rfl rfl result)

/-- The first client keeps its name and its parent. -/
theorem TreeRun.named (h : ch.dispatchOpen = true) {top : Client V} {w : World V}
    (run : TreeRun ch top w) : w.tree.id = top.id ∧ w.tree.parent = top.parent := by
  induction run with
  | start => exact ⟨rfl, rfl⟩
  | act _ focus a ht ih =>
    have hnamed := (Client.stepsAt_of_operate? ht).named h (i := .action a) fun _ => rfl
    exact ⟨hnamed.1.trans ih.1, hnamed.2.trans ih.2⟩
  | respond _ result ht ih =>
    subst ht
    exact ⟨(Act.route_named h _ result _).1.trans ih.1, (Act.route_named h _ result _).2.trans ih.2⟩

/-- A client has at most one request under way. At every point of a run of a tree, for every client in
it: one of its requests waits if it is locked, and none otherwise; it is locked exactly if it runs,
which is exactly if its panel was told last to lock its input; a cancel waits only while it is locked;
a question is open only while a step is shown and nothing else is under way; a step is shown only with
a snapshot, and before the process has begun there is none. -/
theorem single_request_in_flight (h : ch.dispatchOpen = true) {id : ClientId} {view : V}
    {enabled : Bool} {w : World V}
    (run : TreeRun ch ((Client.idle id view).withAutoContinue enabled) w) {c : Client V}
    (hc : c ∈ w.tree.members) :
    (w.waiting.filter fun d => d.client = c.id).length = (if c.locked then 1 else 0) ∧
    (c.locked = true ↔ c.phase = .running) ∧
    (c.phase = .running ↔ lastBusy (about c.id w.log) = some true) ∧
    (c.pendingCancel = true → c.locked = true) ∧
    (c.awaitingConfirmation = true →
      c.phase = .interacting ∧ c.locked = false ∧ c.pendingCancel = false) ∧
    (c.phase = .interacting → c.current.isSome = true) ∧
    (c.phase = .idle → c.current = none) := by
  obtain ⟨H, kids, own, hlog⟩ := (run.chronicle h).recorded _ (List.mem_map_of_mem hc)
  rw [← hlog]
  have hlength : (w.waiting.filter fun d => d.client = c.id).length =
      (waitingFor c.id w.waiting).length := (List.length_map ..).symm
  rw [hlength]
  cases own.standing h with
  | waits s =>
    have hlocked : c.locked = true := s.locked
    have hphase : c.phase = .running := s.running
    have hunasked : c.awaitingConfirmation = false := s.unasked
    rw [s.single, s.busy, hlocked, hphase, hunasked]
    simp
  | rests s =>
    have hunlocked : c.locked = false := s.unlocked
    have hcalm : c.phase ≠ .running := s.calm
    have hundeferred : c.pendingCancel = false := s.undeferred
    rw [s.none, hunlocked, hundeferred]
    exact ⟨rfl, by simp [hcalm], by simp [hcalm, s.free], nofun,
      fun asked => ⟨s.asked asked, rfl, rfl⟩, s.shown, s.begun⟩

/-- A step of an order, with an item that goes on by itself. -/
def orderWithItem : Snapshot :=
  { Snapshot.ofStep .nil "Order" "Items" with
    parameters := [⟨"note", "Note", .null, false, false⟩]
    children := [{ Snapshot.ofStep .nil "Item" "Pick" with autoContinue := true }] }

/-- A started order whose first step comes: the item's client waits, the order's rests. -/
theorem single_request_of_item :
    ∃ w, TreeRun .open ((Client.idle (.root 0) Recording.empty).withAutoContinue true) w ∧
      w.tree.members.map (·.locked) = [false, true] ∧
      ∀ c ∈ w.tree.members,
        (w.waiting.filter fun d => d.client = c.id).length = if c.locked then 1 else 0 := by
  have started := (@TreeRun.start Recording _ .open
    ((Client.idle (.root 0) Recording.empty).withAutoContinue true)).act (.root 0)
    (.start ⟨"Order", none, "en-US", .none⟩) rfl
  have run := @TreeRun.respond Recording _ .open _ _ [] [] _ _ started (.ok orderWithItem) _ rfl
  exact ⟨_, run, rfl, fun c hc => (single_request_in_flight rfl run hc).1⟩

end Stepwise
