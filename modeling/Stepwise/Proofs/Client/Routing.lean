/-
# A response reaches the client that it is for

To find a client in a tree, to ask whether it is there, and to hand it a response are three walks through
the tree. They agree on every tree that can come about: a response reaches the client with the name if
there is one, and otherwise nothing happens. All other clients stay as they are, except that the client is
let go by the one that holds it if its process is over.

* `TreeCourse` : everything that can happen to a tree, whoever listens;
* `TreeCourse.orderly` : below the top everybody is in the middle of its process;
* `Holder`, `Client.under`, `Client.keptUnder` : the way down to a client, and the way back;
* `StepsAt.exists_path` : a step of one client in a tree, along that way;
* `route_reaches_addressed` : what a response does.
-/
import Stepwise.Proofs.Client.Branching
import Stepwise.Proofs.Client.Run

namespace Stepwise

variable {V : Type}

/-! ## The clients of a tree -/

namespace Client

/-- Different clients of a tree have different names. -/
theorem WellPlaced.nodup_ids {c : Client V} (placed : c.WellPlaced) : (c.states.map (·.id)).Nodup := by
  induction c using forall_of_children with
  | h o kids ih =>
    obtain ⟨top, below⟩ := wellPlaced_mk.1 placed
    have inside {k : Client V} (hk : k ∈ kids) {id : ClientId} (hid : id ∈ k.states.map (·.id)) :
        k.id.Within id := by
      obtain ⟨p, hp, rfl⟩ := List.mem_map.1 hid
      exact (below k hk).within hp
    rw [states_mk, List.map_cons, List.map_flatMap, List.nodup_cons, List.nodup_flatMap]
    refine ⟨fun hmem => ?_, fun k hk => ih k hk (below k hk), ?_⟩
    · obtain ⟨k, hk, hid⟩ := List.mem_flatMap.1 hmem
      obtain ⟨n, -, hn⟩ := top.numbered k hk
      have hwithin := inside hk hid
      rw [hn] at hwithin
      exact ClientId.not_within_of_child o.id n hwithin
    · have apart : kids.Pairwise fun k l => k.id ≠ l.id := List.pairwise_map.1 top.distinct
      refine apart.imp_of_mem fun hk hl hne id hkid hlid => hne ?_
      rw [top.eq_of_within hk hl (inside hk hkid) (inside hl hlid)]

/-- A tree has no client with a name exactly if nobody in it has that name. -/
theorem contains_eq_false_iff {c : Client V} {id : ClientId} :
    c.contains id = false ↔ ∀ p ∈ c.states, p.id ≠ id := by
  rw [contains, List.any_eq_false, states]
  simp

theorem find?_eq_none_iff {c : Client V} {id : ClientId} :
    c.find? id = none ↔ ∀ p ∈ c.states, p.id ≠ id := by
  rw [find?, List.find?_eq_none, states]
  simp

end Client

/-- Who takes a step in a tree is in it. -/
theorem StepsAt.exists_state {α : Type} {id : ClientId} {keep : Client V → Bool} {act : Act V α}
    {ch : Channels} {tree : Client V} {t : Turn V α} (step : StepsAt id keep act ch tree t) :
    ∃ p ∈ tree.states, p.id = id := by
  induction step with
  | @here c hid => exact ⟨_, c.mem_states_self, hid⟩
  | under _ _ ih =>
    obtain ⟨p, hp, hid⟩ := ih
    exact ⟨p, Client.mem_states_middle.2 (.inl hp), hid⟩

namespace Client

/-- A step of a client is not taken exactly if nobody has its name. -/
theorem actAt_eq_none_iff {α : Type} {c : Client V} {id : ClientId} {keep : Client V → Bool}
    {act : Act V α} {ch : Channels} :
    c.actAt id keep act ch = none ↔ ∀ p ∈ c.states, p.id ≠ id := by
  have hspec := c.actAt_spec id keep act ch
  cases hat : c.actAt id keep act ch with
  | none =>
    rw [hat] at hspec
    exact iff_of_true rfl hspec
  | some t =>
    rw [hat] at hspec
    obtain ⟨p, hp, hid⟩ := StepsAt.exists_state hspec
    exact iff_of_false nofun fun stranger => stranger p hp hid

/-- A part of an orderly tree is orderly. -/
theorem Orderly.of_mem {c d : Client V} (orderly : c.Orderly) (hd : d ∈ c.members) : d.Orderly := by
  refine ⟨fun e he => orderly.placed e (members_trans hd he), fun p hp hne => ?_⟩
  obtain ⟨e, he, rfl⟩ := List.mem_map.1 hp
  have hp' : e.toClientState ∈ c.states := List.mem_map_of_mem (members_trans hd he)
  refine orderly.alive _ hp' fun htop => hne ?_
  -- nobody is between the top and itself
  have hwithin := WellPlaced.within (fun e he => orderly.placed e (members_trans hd he)) hp
  rw [htop] at hwithin ⊢
  exact ClientId.Within.antisymm (orderly.placed.within (List.mem_map_of_mem hd)) hwithin

end Client

/-! ## Orderly trees -/

section Orderly

variable {α : Type} {id : ClientId} {keep : Client V → Bool} {act : Act V α} {ch : Channels}
  {tree : Client V} {t : Turn V α}

/-- A step of one client leaves its tree orderly, if the client grows, and is kept only while its process
goes on. -/
theorem StepsAt.orderly (step : StepsAt id keep act ch tree t) (orderly : tree.Orderly)
    (grows : ∀ c, Act.Goes Client.Grows c act)
    (stay : ∀ c : Client V, c.phase.isTerminal = false → keep c = true)
    (lives : ∀ c : Client V, c.Living → keep (act.run ch c).client = true →
      (act.run ch c).client.phase.isTerminal = false) :
    t.client.Orderly := by
  obtain ⟨placed, hid, -⟩ := step.wellPlaced orderly.placed fun c hc =>
    ⟨((grows c ch).orderly (orderly.of_mem hc)).placed, (grows c ch).named, (grows c ch).linked⟩
  obtain ⟨c, hc, rfl, -, hstates⟩ := step.mem_states_iff orderly.placed fun p hp hne _ _ =>
    stay _ (orderly.alive p hp hne).going
  have grown := (grows c ch).orderly (orderly.of_mem hc)
  refine ⟨placed, fun p hp hne => ?_⟩
  rw [hid] at hne
  rcases (hstates p).1 hp with ⟨hp, -⟩ | ⟨hp, kept⟩
  · exact orderly.alive p hp hne
  · by_cases own : p.id = (act.run ch c).client.id
    · -- the client that took the step: it is not the top, so it was kept
      have hname : p.id = c.id := own.trans (grows c ch).named
      have living := orderly.alive _ (List.mem_map_of_mem hc) (hname ▸ hne)
      have hkeep := kept.resolve_left (hname ▸ hne)
      rw [grown.placed.state_eq_of_id hp (Client.mem_states_self _) own]
      exact ⟨lives c living hkeep, (grows c ch).begun living.begun⟩
    · exact grown.alive p hp own

end Orderly

/-- Everything that can happen to a tree of clients whose responses are handed to it at the top: users act
on any client of it, and responses come, for anybody and whether or not they were asked for, while those
who listen come and go. -/
inductive TreeCourse [ProcessView V] : Client V → Prop where
  | new (id : ClientId) (parent : Option ClientId) (paused : Bool) (view : V) :
    TreeCourse ⟨.fresh id parent paused view, []⟩
  | act {tree : Client V} (course : TreeCourse tree) (ch : Channels) (id : ClientId) (a : UserAction)
      {t : Turn V (Option Outcome)} (ht : tree.operate? id a.act ch = some t) : TreeCourse t.client
  | route {tree : Client V} (course : TreeCourse tree) (ch : Channels) (id : ClientId)
      (result : Except ServiceError Snapshot) : TreeCourse ((Act.route id result).run ch tree).client

section Courses

variable [ProcessView V] {ch : Channels} {tree : Client V} {id : ClientId}
  {result : Except ServiceError Snapshot}

/-- A run of a tree is a course in which requests are answered once at most. -/
theorem TreeRun.course {id : ClientId} {parent : Option ClientId} {paused : Bool} {view : V}
    {w : World V} (run : TreeRun ch ⟨.fresh id parent paused view, []⟩ w) : TreeCourse w.tree := by
  induction run with
  | start => exact .new id parent paused view
  | act _ focus a ht ih => exact ih.act ch focus a ht
  | respond _ result ht ih =>
    subst ht
    exact ih.route ch _ result

/-- A response leaves its tree orderly. -/
theorem Client.Orderly.route (orderly : tree.Orderly) (ch : Channels) (id : ClientId)
    (result : Except ServiceError Snapshot) : ((Act.route id result).run ch tree).client.Orderly := by
  rcases Act.route_spec id result ch tree with ⟨-, hrun⟩ | step
  · rw [hrun]
    exact orderly
  · refine step.orderly orderly (fun _ => Act.grows_respond result) (fun c going => ?_)
      fun c _ kept => ?_
    · rw [Client.stays, going]
      rfl
    · exact (Bool.not_eq_eq_eq_not).1 kept

/-- At every point of its course a tree is orderly. -/
theorem TreeCourse.orderly (course : TreeCourse tree) : tree.Orderly := by
  induction course with
  | new id parent paused view => exact Client.orderly_leaf _
  | act _ ch id a ht ih =>
    refine (Client.stepsAt_of_operate? ht).orderly ih (fun _ => a.grows_act) (fun _ _ => rfl)
      fun c living _ => ?_
    -- whoever is in the middle of a process takes over no other one
    rw [(a.stays_act (.inl living.begun.1) ch).ended]
    exact living.going
  | route _ ch id result ih => exact ih.route ch id result

end Courses

/-! ## The way down to a client, and the way back -/

/-- A client that holds others, seen from one of its children: the client itself, and the children before
and after that one. -/
structure Holder (V : Type) where
  own : ClientState V
  older : List (Client V)
  younger : List (Client V)

namespace Holder

/-- The client with that child between the others. -/
def holding (h : Holder V) (c : Client V) : Client V := ⟨h.own, h.older ++ c :: h.younger⟩

/-- The client without that child. -/
def alone (h : Holder V) : Client V := ⟨h.own, h.older ++ h.younger⟩

end Holder

namespace Client

/-- The tree in which a client is found at the end of a way down from the top. -/
def under (c : Client V) : List (Holder V) → Client V
  | [] => c
  | h :: path => h.holding (c.under path)

/-- The same tree, but the client is let go by the last one on the way if its process is over. -/
def keptUnder (c : Client V) : List (Holder V) → Client V
  | [] => c
  | [h] => if c.phase.isTerminal then h.alone else h.holding c
  | h :: next :: path => h.holding (c.keptUnder (next :: path))

theorem mem_members_under (c : Client V) (path : List (Holder V)) : c ∈ (c.under path).members := by
  induction path with
  | nil => exact c.mem_members_self
  | cons h path ih => exact mem_members_mk.2 (.inr ⟨_, List.mem_append_right _ List.mem_cons_self, ih⟩)

theorem keptUnder_singleton (c : Client V) (o : ClientState V) (older younger : List (Client V)) :
    c.keptUnder [⟨o, older, younger⟩] = ⟨o, older ++ if c.stays then c :: younger else younger⟩ := by
  rw [keptUnder, stays, Holder.alone, Holder.holding]
  cases c.phase.isTerminal with
  | true => rfl
  | false => rfl

/-- Whoever holds another client is not changed. -/
theorem toClientState_keptUnder (c : Client V) (h : Holder V) (path : List (Holder V)) :
    (c.keptUnder (h :: path)).toClientState = h.own := by
  cases path with
  | nil =>
    rw [keptUnder]
    split
    · rfl
    · rfl
  | cons next path => rfl

end Client

section Path

variable {α : Type} {id : ClientId} {act : Act V α} {ch : Channels} {tree : Client V} {t : Turn V α}

/-- A step of one client in a tree goes down to that client and back, if whoever is held by another one and
does not take the step is in the middle of its process. -/
theorem StepsAt.exists_path (step : StepsAt id Client.stays act ch tree t) (placed : tree.WellPlaced)
    (alive : ∀ p ∈ tree.states, p.id ≠ tree.id → p.id ≠ id → p.phase.isTerminal = false) :
    ∃ c path, tree = c.under path ∧ c.id = id ∧ (path ≠ [] → tree.id ≠ id) ∧
      t = ⟨(act.run ch c).result, (act.run ch c).client.keptUnder path, (act.run ch c).effects⟩ := by
  induction step with
  | @here c hid => exact ⟨c, [], rfl, hid, fun h => absurd rfl h, rfl⟩
  | @under o older younger k t hid step ih =>
    obtain ⟨top, below⟩ := Client.wellPlaced_mk.1 placed
    have hk : k ∈ older ++ k :: younger := by simp
    have inside {p : ClientState V} (hp : p ∈ k.states) :
        p ∈ Client.states ⟨o, older ++ k :: younger⟩ ∧ p.id ≠ o.id := by
      refine ⟨Client.mem_states_middle.2 (.inl hp), fun heq => ?_⟩
      exact placed.apart ((below k hk).within hp) (Client.mem_states_self _) (heq ▸ .refl _)
    obtain ⟨c, path, hunder, hc, hpath, rfl⟩ := ih (below k hk) fun p hp _ =>
      alive p (inside hp).1 (inside hp).2
    refine ⟨c, ⟨o, older, younger⟩ :: path, congrArg (Holder.holding ⟨o, older, younger⟩) hunder,
      hc, fun _ => hid, ?_⟩
    cases path with
    | nil =>
      rw [Client.keptUnder_singleton]
      rfl
    | cons next path =>
      -- the child on the way did not take the step itself
      have going : k.phase.isTerminal = false :=
        alive _ (inside k.mem_states_self).1 (inside k.mem_states_self).2 (hpath nofun)
      have same := Client.toClientState_keptUnder (act.run ch c).client next path
      have hk : k.toClientState = next.own := congrArg Client.toClientState hunder
      have kept : Client.stays ((act.run ch c).client.keptUnder (next :: path)) = true := by
        rw [Client.stays, same, ← hk, going]
        rfl
      simp only [kept, if_true]
      rfl

end Path

/-! ## What a response does -/

section Routing

variable [ProcessView V] {ch : Channels} {tree : Client V} {id : ClientId}
  {result : Except ServiceError Snapshot}

/-- If nobody has the name, nothing happens. -/
theorem Act.route_of_stranger (stranger : ∀ p ∈ tree.states, p.id ≠ id) :
    (route id result).run ch tree = ⟨.error (.unknownClient id), tree, []⟩ := by
  show (tree.actAt id Client.stays (respond result) ch).getD _ = _
  rw [Client.actAt_eq_none_iff.2 stranger]
  rfl

/-- The client that has the name takes the response. -/
theorem Act.route_of_found (ch : Channels) (result : Except ServiceError Snapshot)
    (orderly : tree.Orderly) {c : Client V} (found : tree.find? id = some c) :
    ∃ path, tree = c.under path ∧ c.id = id ∧
      (route id result).run ch tree =
        ⟨((respond result).run ch c).result, ((respond result).run ch c).client.keptUnder path,
          ((respond result).run ch c).effects⟩ := by
  rw [Client.find?] at found
  have hc : c ∈ tree.members := List.mem_of_find?_eq_some found
  have hid : c.id = id := by simpa using List.find?_some found
  rcases route_spec id result ch tree with ⟨stranger, -⟩ | step
  · exact absurd hid (stranger _ (List.mem_map_of_mem hc))
  · obtain ⟨d, path, htree, hd, -, hrun⟩ :=
      step.exists_path orderly.placed fun p hp hne _ => (orderly.alive p hp hne).going
    -- names are distinct, so the client on the way is the one that was found
    have hmem : d ∈ tree.members := htree ▸ d.mem_members_under path
    obtain rfl := orderly.placed.eq_of_id hc hmem (hid.trans hd.symm)
    exact ⟨path, htree, hid, hrun⟩

/-- Everybody who does not lie at the place of the client or below stays as it is. -/
theorem Client.Orderly.mem_states_route (orderly : tree.Orderly) {p : ClientState V}
    (outside : ¬ id.Within p.id) :
    p ∈ ((Act.route id result).run ch tree).client.states ↔ p ∈ tree.states := by
  rcases Act.route_spec id result ch tree with ⟨-, hrun⟩ | step
  · rw [hrun]
  · obtain ⟨c, hc, rfl, -, hstates⟩ := step.mem_states_iff orderly.placed fun p hp hne _ kids => by
      rw [stays, (orderly.alive p hp hne).going]
      rfl
    rw [hstates p, and_iff_left outside]
    have grows := Act.grows_respond result (c := c) ch
    refine or_iff_left ?_
    rintro ⟨hp, -⟩
    rw [← grows.named] at outside
    exact outside ((grows.orderly (orderly.of_mem hc)).placed.within hp)

/-- A response reaches exactly the client that it is for. At every point of the course of a tree:

* children know who holds them, only the top can be over, and no two clients have one name;
* whether the tree contains a name, finds a client with it, and lets that client take steps, is the same
  question, and exactly if the answer is no, a response says that the client is unknown; then nothing
  happens at all;
* otherwise the response does to the client what it does to that client alone, and leaves the same behind.
  The clients on the way down to it stay as they are, with all their other children in their order; only
  the last of them lets the client go, exactly if its process is over then;
* everybody who is not at the place of the client or below stays as it is. -/
theorem route_reaches_addressed (course : TreeCourse tree) (ch : Channels) (id : ClientId)
    (result : Except ServiceError Snapshot) :
    (∀ d ∈ tree.members, ∀ k ∈ d.children, k.parent = some d.id) ∧
    (∀ k ∈ tree.children, ∀ d ∈ k.members, d.phase.isTerminal = false) ∧
    (tree.members.map (·.id)).Nodup ∧
    ((∃ other, ((Act.route id result).run ch tree).result = .error (.unknownClient other)) ↔
      tree.contains id = false) ∧
    (tree.contains id = false ↔ tree.find? id = none) ∧
    (∀ a : UserAction, tree.contains id = false ↔ tree.operate? id a.act ch = none) ∧
    (tree.find? id = none →
      (Act.route id result).run ch tree = ⟨.error (.unknownClient id), tree, []⟩) ∧
    (∀ c, tree.find? id = some c → ∃ path, tree = c.under path ∧ c.id = id ∧
      (Act.route id result).run ch tree =
        ⟨((Act.respond result).run ch c).result,
          ((Act.respond result).run ch c).client.keptUnder path,
          ((Act.respond result).run ch c).effects⟩) ∧
    (∀ p : ClientState V, ¬ id.Within p.id →
      (p ∈ ((Act.route id result).run ch tree).client.states ↔ p ∈ tree.states)) := by
  have orderly := course.orderly
  refine ⟨fun d hd => (orderly.placed d hd).linked, fun k hk d hd => ?_, ?_, ?_, ?_, fun a => ?_,
    fun none => Act.route_of_stranger (Client.find?_eq_none_iff.1 none),
    fun c found => Act.route_of_found ch result orderly found, fun p => orderly.mem_states_route⟩
  · obtain ⟨o, kids⟩ := tree
    refine (orderly.alive _ ?_ ?_).going
    · exact Client.mem_states_mk.2 (.inr ⟨k, hk, List.mem_map_of_mem hd⟩)
    · obtain ⟨top, below⟩ := Client.wellPlaced_mk.1 orderly.placed
      obtain ⟨n, -, hn⟩ := top.numbered k hk
      have hwithin := (below k hk).within (List.mem_map_of_mem hd)
      intro htop
      rw [hn, htop] at hwithin
      exact ClientId.not_within_of_child _ n hwithin
  · have nodup := orderly.placed.nodup_ids
    rwa [Client.states, List.map_map] at nodup
  · rw [Client.contains_eq_false_iff]
    constructor
    · rintro ⟨other, unknown⟩
      by_contra known
      rw [← Client.find?_eq_none_iff] at known
      obtain ⟨c, found⟩ := Option.ne_none_iff_exists'.1 known
      obtain ⟨path, -, -, hrun⟩ := Act.route_of_found ch result orderly found
      rw [hrun] at unknown
      rcases Act.result_respond result ch c with ok | closed
      · cases ok.symm.trans unknown
      · cases closed.symm.trans unknown
    · intro stranger
      rw [Act.route_of_stranger stranger]
      exact ⟨id, rfl⟩
  · rw [Client.contains_eq_false_iff, Client.find?_eq_none_iff]
  · rw [Client.contains_eq_false_iff]
    exact Client.actAt_eq_none_iff.symm

/-- An order holds an item. A response for the item is one for it alone, and nobody is the second
order. -/
theorem route_reaches_addressed_item :
    ∃ tree item : Client Recording, TreeCourse tree ∧
      tree.find? ((ClientId.root 0).child 0) = some item ∧
      (∃ path, tree = item.under path ∧
        ((Act.route ((ClientId.root 0).child 0) (.error (.unrecoverable "Gone" none))).run .open
          tree).client =
        ((Act.respond (.error (.unrecoverable "Gone" none))).run .open item).client.keptUnder path) ∧
      (Act.route (.root 1) (.error (.unrecoverable "Gone" none))).run .open tree =
        ⟨.error (.unknownClient (.root 1)), tree, []⟩ := by
  have started := (@TreeRun.start Recording _ .open
    ((Client.idle (.root 0) Recording.empty).withAutoContinue true)).act (.root 0)
    (.start ⟨"Order", none, "en-US", .none⟩) rfl
  have course : TreeCourse _ :=
    (@TreeRun.respond Recording _ .open _ _ [] [] _ _ started (.ok orderWithItem) _ rfl).course
  obtain ⟨-, -, -, -, -, -, -, found, -⟩ := route_reaches_addressed course .open
    ((ClientId.root 0).child 0) (.error (.unrecoverable "Gone" none))
  obtain ⟨path, htree, -, hrun⟩ := found _ rfl
  obtain ⟨-, -, -, -, -, -, unknown, -⟩ :=
    route_reaches_addressed course .open (.root 1) (.error (.unrecoverable "Gone" none))
  exact ⟨_, _, course, rfl, ⟨path, htree, congrArg Turn.client hrun⟩, unknown rfl⟩

end Routing

end Stepwise
