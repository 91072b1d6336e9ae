/-
# Requests that follow an answer

An answer may make clients send again without their users: a step goes on by itself, or a cancel that
was put off goes out. Such requests are about the processes that the answer shows, or else one cancel
less is put off than before.

* `Request.Forwards` : requests that clients send by themselves;
* `Client.deferrals` : how many clients of a tree have put a cancel off;
* `Forwarded`, `Act.forwarded_route` : what an answer makes of them.
-/
import Stepwise.Proofs.Client.History
import Stepwise.Proofs.Client.Tree
import Stepwise.Proofs.Server.Spawning

namespace Stepwise

/-- The request lets a process go on by itself, or cancels it. -/
inductive Request.Forwards (x : Uuid) : Request → Prop where
  | executes {s : Snapshot} (hid : s.id = x) : Forwards x (.continue s .execute none)
  | cancels {s : Snapshot} (hid : s.id = x) : Forwards x (.continue s .cancel none)

variable {V : Type}

/-! ## Cancels that are put off -/

namespace Client

/-- How many clients of the tree have put a cancel off. -/
def deferrals (c : Client V) : Nat := c.states.countP (·.pendingCancel)

theorem deferrals_mk (o : ClientState V) (kids : List (Client V)) :
    deferrals ⟨o, kids⟩ =
      o.pendingCancel.toNat + (kids.flatMap states).countP (·.pendingCancel) := by
  rw [deferrals, states_mk, List.countP_cons, Nat.add_comm]
  cases o.pendingCancel <;> rfl

/-- A client that puts no cancel off by itself puts off no more than before. -/
theorem deferrals_le {o o' : ClientState V} (h : o'.pendingCancel = true → o.pendingCancel = true)
    (kids : List (Client V)) : deferrals ⟨o', kids⟩ ≤ deferrals ⟨o, kids⟩ := by
  rw [deferrals_mk, deferrals_mk]
  cases hp : o'.pendingCancel with
  | false => exact Nat.add_le_add_right (Nat.zero_le _) _
  | true => exact Nat.le_of_eq (by rw [h hp])

end Client

variable [ProcessView V] {ch : Channels}

/-! ## One client -/

/-- What a client sends by itself when a snapshot comes is about that snapshot, and it puts no cancel
off. -/
theorem Received.forwards {s : Snapshot} {o o' : ClientState V} {effects : List Effect}
    (h : Received ch s o o' effects) :
    (∀ r ∈ requestsOf effects, r.Forwards s.id) ∧
      (o'.pendingCancel = true → o.pendingCancel = true) := by
  have concluded {starting previousFinal : Bool} {o o' : ClientState V} {effects : List Effect}
      (h : Concluded ch starting previousFinal s o o' effects) :
      (∀ r ∈ requestsOf effects, r.Forwards s.id) ∧ o'.pendingCancel = o.pendingCancel := by
    cases h with
    | finished => exact ⟨by simp, rfl⟩
    | idleStart => exact ⟨by simp, rfl⟩
    | continued =>
      refine ⟨fun r hr => ?_, rfl⟩
      rw [List.mem_singleton.1 hr]
      exact .executes rfl
    | shown => exact ⟨by simp, rfl⟩
  cases h with
  | closed => exact ⟨nofun, id⟩
  | cancelled =>
    refine ⟨fun r hr => ?_, fun h => by cases h⟩
    rw [List.mem_singleton.1 hr]
    exact .cancels rfl
  | concluded _ _ conclusion =>
    obtain ⟨requests, same⟩ := concluded conclusion
    rw [requestsOf_append, requestsOf_callEffects, List.nil_append]
    exact ⟨requests, fun h => by rw [same] at h; cases h⟩

/-- When an error comes a client sends nothing, or the cancel that it has put off. -/
theorem Rejected.forwards {e : ServiceError} {o o' : ClientState V} {effects : List Effect}
    (h : Rejected ch o e o' effects) :
    (requestsOf effects = [] ∧ (o'.pendingCancel = true → o.pendingCancel = true)) ∨
      (∀ r ∈ requestsOf effects, ∃ x, r.Forwards x) ∧ o.pendingCancel = true ∧
        o'.pendingCancel = false := by
  cases h with
  | closed => exact .inl ⟨rfl, id⟩
  | failed => exact .inl ⟨by simp, fun h => by cases h⟩
  | cancelled _ _ _ _ waits =>
    refine .inr ⟨fun r hr => ?_, waits, rfl⟩
    rw [List.mem_singleton.1 hr]
    exact ⟨_, .cancels rfl⟩
  | withdrawn => exact .inl ⟨by simp, fun h => by cases h⟩
  | finished => exact .inl ⟨by simp, id⟩
  | replaced => exact .inl ⟨by simp, id⟩
  | rejected => exact .inl ⟨by simp, id⟩

/-! ## With the clients of new children -/

/-- While the clients of new children take over only they send requests. -/
theorem dispatchesOf_spawnEffects (o : ClientState V) (ss : List Snapshot) :
    dispatchesOf (spawnEffects ch o ss) =
      (births ch o ss).flatMap fun t => dispatchesOf t.effects := by
  induction ss generalizing o with
  | nil => rfl
  | cons s rest ih =>
    rw [spawnEffects, dispatchesOf_append, dispatchesOf_append, dispatchesOf_callEffects,
      List.nil_append, ih, births_cons, List.flatMap_cons]

/-- What is sent is about processes that the snapshot shows, and no more cancels are put off than
before. -/
structure Forwards (s : Snapshot) (c : Client V) (t : Turn V Unit) : Prop where
  requests : ∀ d ∈ dispatchesOf t.effects, ∃ x ∈ s.ids, d.request.Forwards x
  deferred : t.client.deferrals ≤ c.deferrals

/-- A client that begins with a snapshot sends what it sends when the snapshot comes. -/
theorem forwards_attach {s : Snapshot}
    (receives : ∀ c : Client V, Forwards s c ((Act.receive s).run ch c)) {o : ClientState V}
    (idle : o.phase = .idle) (kids : List (Client V)) :
    Forwards s ⟨o, kids⟩ ((Act.attach s).run ch ⟨o, kids⟩) := by
  obtain ⟨requests, deferred⟩ := receives ⟨{ o with phase := .running }, kids⟩
  rw [Act.run_attach ch s idle kids]
  refine ⟨fun d hd => requests d ?_, Nat.le_trans deferred (Client.deferrals_le id kids)⟩
  rwa [Turn.after, dispatchesOf_append, dispatchesOf_emitted, List.nil_append] at hd

theorem forwards_receive (h : ch.dispatchOpen = true) (s : Snapshot) :
    ∀ c : Client V, Forwards s c ((Act.receive s).run ch c) := by
  induction s using Snapshot.forall_of_children with
  | h s ih =>
    rintro ⟨o, kids⟩
    obtain ⟨o', before, after, received, hrun⟩ := Act.run_receive h s o kids
    obtain ⟨requests, deferred⟩ := received.forwards
    -- the client of a new child has put no cancel off when it takes its snapshot
    have born : ∀ t ∈ births ch o.awake (o.offspring s),
        (∀ d ∈ dispatchesOf t.effects, ∃ x ∈ s.ids, d.request.Forwards x) ∧
          t.client.deferrals = 0 := by
      intro t ht
      obtain ⟨u, hu, n, v, rfl⟩ := exists_of_mem_births ht
      have hu : u ∈ s.children := o.offspring_subset s hu
      obtain ⟨requests, deferred⟩ := forwards_attach (ih u hu)
        (o := (Act.newChild ⟨{ o.awake with opened := n }, []⟩ v).toClientState) rfl []
      refine ⟨fun d hd => ?_, Nat.le_zero.1 deferred⟩
      obtain ⟨x, hx, forwards⟩ := requests d hd
      refine ⟨x, ?_, forwards⟩
      rw [s.ids_eq]
      exact List.mem_cons_of_mem _ (List.mem_flatMap.2 ⟨u, hu, hx⟩)
    have own : ∀ d ∈ dispatchesOf before ++ dispatchesOf after,
        ∃ x ∈ s.ids, d.request.Forwards x := by
      intro d hd
      refine ⟨s.id, by rw [s.ids_eq]; exact List.mem_cons_self, requests d.request ?_⟩
      rw [requestsOf_append, requestsOf_append, requestsOf_callEffects, List.append_nil,
        ← requestsOf_append, requestsOf, dispatchesOf_append]
      exact List.mem_map_of_mem hd
    rw [hrun]
    refine ⟨fun d hd => ?_, ?_⟩
    · dsimp only at hd
      rw [dispatchesOf_append, dispatchesOf_append, dispatchesOf_spawnEffects] at hd
      rcases List.mem_append.1 hd with hd | hd
      · rcases List.mem_append.1 hd with hd | hd
        · exact own d (List.mem_append_left _ hd)
        · obtain ⟨t, ht, hd⟩ := List.mem_flatMap.1 hd
          exact (born t ht).1 d hd
      · exact own d (List.mem_append_right _ hd)
    · have none : ((newcomers ch o.awake (o.offspring s)).flatMap Client.states).countP
          (·.pendingCancel) = 0 := by
        refine List.countP_eq_zero.2 fun x hx => ?_
        obtain ⟨k, hk, hx⟩ := List.mem_flatMap.1 hx
        obtain ⟨⟨t, ht, rfl⟩, -⟩ := mem_newcomers.1 hk
        exact List.countP_eq_zero.1 (born t ht).2 x hx
      have hle := Client.deferrals_le deferred kids
      rw [Client.deferrals_mk] at hle
      rw [Client.deferrals_mk, List.flatMap_append, List.countP_append, none]
      exact hle

/-! ## In a tree -/

/-- What an answer makes of a tree: what is sent is about processes that the answer shows, or else a
cancel was put off that goes out. -/
inductive Forwarded (c : Client V) (t : Turn V Unit) : Except ServiceError Snapshot → Prop where
  | answered (s : Snapshot) (forwards : Forwards s c t) : Forwarded c t (.ok s)
  | silent (result : Except ServiceError Snapshot) (none : dispatchesOf t.effects = [])
      (deferred : t.client.deferrals ≤ c.deferrals) : Forwarded c t result
  | cancelled (e : ServiceError) (requests : ∀ d ∈ dispatchesOf t.effects, ∃ x, d.request.Forwards x)
      (fewer : t.client.deferrals < c.deferrals) : Forwarded c t (.error e)

theorem Act.forwarded_respond (h : ch.dispatchOpen = true) (result : Except ServiceError Snapshot)
    (c : Client V) : Forwarded c ((Act.respond result).run ch c) result := by
  obtain ⟨o, kids⟩ := c
  cases result with
  | ok s => exact .answered s (forwards_receive h s ⟨o, kids⟩)
  | error e =>
    obtain ⟨o', effects, rejected, hrun⟩ := Act.run_fail h e o kids
    have hrun : (Act.respond (.error e)).run ch ⟨o, kids⟩ = ⟨.ok (), ⟨o', kids⟩, effects⟩ := hrun
    rw [hrun]
    rcases rejected.forwards with ⟨none, kept⟩ | ⟨requests, waits, sent⟩
    · exact .silent _ (List.map_eq_nil_iff.1 none) (Client.deferrals_le kept kids)
    · refine .cancelled e (fun d hd => requests d.request (List.mem_map_of_mem hd)) ?_
      rw [Client.deferrals_mk, Client.deferrals_mk, waits, sent]
      simp

omit [ProcessView V] in
/-- A client in a tree that lets cancels go lets the tree do so. -/
theorem StepsAt.deferrals {id : ClientId} {keep : Client V → Bool} {act : Act V Unit}
    {tree : Client V} {t : Turn V Unit} (step : StepsAt id keep act ch tree t) :
    ∃ c, t.effects = (act.run ch c).effects ∧
      t.client.deferrals + c.deferrals ≤ tree.deferrals + (act.run ch c).client.deferrals := by
  induction step with
  | @here c hid => exact ⟨c, rfl, by omega⟩
  | @under o older younger k t hid step ih =>
    obtain ⟨c, heffects, hle⟩ := ih
    refine ⟨c, heffects, ?_⟩
    rw [Client.deferrals_mk, Client.deferrals_mk]
    simp only [Client.deferrals] at hle ⊢
    split
    all_goals
      simp only [List.flatMap_append, List.flatMap_cons, List.countP_append]
      omega

/-- Whoever is to take an answer. -/
theorem Act.forwarded_route (h : ch.dispatchOpen = true) (id : ClientId)
    (result : Except ServiceError Snapshot) (tree : Client V) :
    Forwarded tree ((Act.route id result).run ch tree) result := by
  rcases Act.route_spec id result ch tree with ⟨-, hrun⟩ | step
  · rw [hrun]
    exact .silent result rfl (Nat.le_refl _)
  · obtain ⟨c, heffects, hle⟩ := step.deferrals
    have forwarded := Act.forwarded_respond h result c
    generalize (Act.respond result).run ch c = t at heffects hle forwarded
    cases forwarded with
    | answered s forwards =>
      obtain ⟨requests, deferred⟩ := forwards
      exact .answered s ⟨heffects ▸ requests, by omega⟩
    | silent _ none deferred => exact .silent result (heffects ▸ none) (by omega)
    | cancelled e requests fewer => exact .cancelled e (heffects ▸ requests) (by omega)

end Stepwise
