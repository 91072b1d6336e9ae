/-
# Trees of clients, and steps of one client in them

The clients of a tree are named by places: the children of a client lie at places below it, each at
its own. A step of one client in a tree changes that client, adds children to it, and lets clients
go; all other clients stay as they are.

* `Client.states` : the clients of a tree, each by itself;
* `Client.WellPlaced` : every client lies where its name says;
* `StepsAt` : a step of one client in a tree, read off `Client.actAt`;
* `StepsAt.mem_states` : who is in the tree after the step.
-/
import Stepwise.Client.Tree
import Stepwise.Proofs.Client.Descent

namespace Stepwise

variable {V : Type}

/-- Induction over a tree of clients. -/
theorem Client.forall_of_children {P : Client V → Prop}
    (h : ∀ (o : ClientState V) (kids : List (Client V)), (∀ k ∈ kids, P k) → P ⟨o, kids⟩)
    (c : Client V) : P c :=
  match c with
  | ⟨o, kids⟩ => h o kids fun k _ => forall_of_children h k
termination_by sizeOf c
decreasing_by
  have hmem : sizeOf k < sizeOf kids := List.sizeOf_lt_of_mem ‹k ∈ kids›
  simp only [Client.mk.sizeOf_spec]
  omega

/-! ## Members -/

namespace Client

theorem mk_eta (c : Client V) : (⟨c.toClientState, c.children⟩ : Client V) = c := by
  cases c
  rfl

theorem membersOfAll_eq (cs : List (Client V)) : membersOfAll cs = cs.flatMap members := by
  induction cs with
  | nil => rw [membersOfAll]; rfl
  | cons c rest ih => rw [membersOfAll, ih, List.flatMap_cons]

theorem members_mk (o : ClientState V) (kids : List (Client V)) :
    members ⟨o, kids⟩ = ⟨o, kids⟩ :: kids.flatMap members := by
  rw [members, membersOfAll_eq]

theorem mem_members_self (c : Client V) : c ∈ c.members := by
  obtain ⟨o, kids⟩ := c
  rw [members_mk]
  exact List.mem_cons_self

/-- A member is the client at the top, or a member below one of its children. -/
theorem mem_members_mk {o : ClientState V} {kids : List (Client V)} {d : Client V} :
    d ∈ members ⟨o, kids⟩ ↔ d = ⟨o, kids⟩ ∨ ∃ k ∈ kids, d ∈ k.members := by
  rw [members_mk, List.mem_cons, List.mem_flatMap]

/-- The members of a member are members. -/
theorem members_trans {c d e : Client V} (hd : d ∈ c.members) (he : e ∈ d.members) :
    e ∈ c.members := by
  induction c using forall_of_children with
  | h o kids ih =>
    rcases mem_members_mk.1 hd with rfl | ⟨k, hk, hd⟩
    · exact he
    · exact mem_members_mk.2 (.inr ⟨k, hk, ih k hk hd⟩)

/-- The clients of a tree, each by itself. -/
def states (c : Client V) : List (ClientState V) := c.members.map (·.toClientState)

theorem states_mk (o : ClientState V) (kids : List (Client V)) :
    states ⟨o, kids⟩ = o :: kids.flatMap states := by
  rw [states, members_mk, List.map_cons, List.map_flatMap]
  rfl

theorem mem_states_self (c : Client V) : c.toClientState ∈ c.states :=
  List.mem_map_of_mem c.mem_members_self

theorem mem_states_mk {o p : ClientState V} {kids : List (Client V)} :
    p ∈ states ⟨o, kids⟩ ↔ p = o ∨ ∃ k ∈ kids, p ∈ k.states := by
  rw [states_mk, List.mem_cons, List.mem_flatMap]

/-! ## Places -/

/-- The children of a client lie at places below it, each at its own, and know their parent. -/
structure Placed (c : Client V) : Prop where
  distinct : (c.children.map (·.id)).Nodup
  numbered : ∀ k ∈ c.children, ∃ n < c.opened, k.id = c.id.child n
  linked : ∀ k ∈ c.children, k.parent = some c.id

/-- Every client of the tree lies where its name says. -/
def WellPlaced (c : Client V) : Prop := ∀ d ∈ c.members, d.Placed

theorem wellPlaced_mk {o : ClientState V} {kids : List (Client V)} :
    WellPlaced ⟨o, kids⟩ ↔ Placed ⟨o, kids⟩ ∧ ∀ k ∈ kids, k.WellPlaced := by
  constructor
  · intro placed
    refine ⟨placed _ (mem_members_self _), fun k hk d hd => placed d ?_⟩
    exact mem_members_mk.2 (.inr ⟨k, hk, hd⟩)
  · rintro ⟨top, below⟩ d hd
    rcases mem_members_mk.1 hd with rfl | ⟨k, hk, hd⟩
    · exact top
    · exact below k hk d hd

/-- All clients of a tree lie at the place of the top or below. -/
theorem WellPlaced.within {c : Client V} (placed : c.WellPlaced) {p : ClientState V}
    (hp : p ∈ c.states) : c.id.Within p.id := by
  induction c using forall_of_children with
  | h o kids ih =>
    obtain ⟨top, below⟩ := wellPlaced_mk.1 placed
    rcases mem_states_mk.1 hp with rfl | ⟨k, hk, hp⟩
    · exact .refl _
    · obtain ⟨n, -, hid⟩ := top.numbered k hk
      have hwithin := ih k hk (below k hk) hp
      rw [hid] at hwithin
      exact (ClientId.within_child o.id n).trans hwithin

/-- Children below whom one place lies are the same. -/
theorem Placed.eq_of_within {c : Client V} (placed : c.Placed) {k l : Client V}
    (hk : k ∈ c.children) (hl : l ∈ c.children) {id : ClientId} (hkid : k.id.Within id)
    (hlid : l.id.Within id) : k = l := by
  obtain ⟨m, -, hm⟩ := placed.numbered k hk
  obtain ⟨n, -, hn⟩ := placed.numbered l hl
  rw [hm] at hkid
  rw [hn] at hlid
  have hid : k.id = l.id := by rw [hm, hn, ClientId.eq_of_within hkid hlid]
  have hne : c.children.Pairwise fun k l => k.id ≠ l.id := List.pairwise_map.1 placed.distinct
  have hinj : c.children.Pairwise fun k l => k.id = l.id → k = l :=
    hne.imp fun hne heq => absurd heq hne
  have hflip : c.children.Pairwise (flip fun k l => k.id = l.id → k = l) :=
    hne.imp fun hne heq => absurd heq.symm hne
  exact hinj.forall_of_forall_of_flip (fun _ _ _ => rfl) hflip hk hl hid

/-- A name belongs to one client of the tree only. -/
theorem WellPlaced.eq_of_id {c : Client V} (placed : c.WellPlaced) {d e : Client V}
    (hd : d ∈ c.members) (he : e ∈ c.members) (hid : d.id = e.id) : d = e := by
  induction c using forall_of_children with
  | h o kids ih =>
    obtain ⟨top, below⟩ := wellPlaced_mk.1 placed
    -- the top lies above all others
    have apart {k : Client V} (hk : k ∈ kids) {d : Client V} (hd : d ∈ k.members) :
        d.id ≠ o.id := by
      intro heq
      obtain ⟨n, -, hn⟩ := top.numbered k hk
      have hwithin := (below k hk).within (List.mem_map_of_mem hd)
      rw [hn, heq] at hwithin
      exact ClientId.not_within_of_child o.id n hwithin
    rcases mem_members_mk.1 hd with rfl | ⟨k, hk, hd⟩
    · rcases mem_members_mk.1 he with rfl | ⟨l, hl, he⟩
      · rfl
      · exact absurd hid.symm (apart hl he)
    · rcases mem_members_mk.1 he with rfl | ⟨l, hl, he⟩
      · exact absurd hid (apart hk hd)
      · have hkd := (below k hk).within (List.mem_map_of_mem hd)
        have hle := (below l hl).within (List.mem_map_of_mem he)
        rw [← hid] at hle
        obtain rfl := top.eq_of_within hk hl hkd hle
        exact ih k hk (below k hk) hd he

/-- So is what a client knows of its own process. -/
theorem WellPlaced.state_eq_of_id {c : Client V} (placed : c.WellPlaced) {p q : ClientState V}
    (hp : p ∈ c.states) (hq : q ∈ c.states) (hid : p.id = q.id) : p = q := by
  obtain ⟨d, hd, rfl⟩ := List.mem_map.1 hp
  obtain ⟨e, he, rfl⟩ := List.mem_map.1 hq
  rw [placed.eq_of_id hd he hid]

/-- Whoever lies at the place of a client or below it is held by it. -/
theorem WellPlaced.mem_of_within {c : Client V} (placed : c.WellPlaced) {d : Client V}
    (hd : d ∈ c.members) {p : ClientState V} (hp : p ∈ c.states) (hwithin : d.id.Within p.id) :
    p ∈ d.states := by
  induction c using forall_of_children with
  | h o kids ih =>
    obtain ⟨top, below⟩ := wellPlaced_mk.1 placed
    rcases mem_members_mk.1 hd with rfl | ⟨k, hk, hd⟩
    · exact hp
    · have hkp := ((below k hk).within (List.mem_map_of_mem hd)).trans hwithin
      rcases mem_states_mk.1 hp with rfl | ⟨l, hl, hp⟩
      · obtain ⟨n, -, hn⟩ := top.numbered k hk
        rw [hn] at hkp
        exact absurd hkp (ClientId.not_within_of_child _ n)
      · obtain rfl := top.eq_of_within hk hl hkp ((below l hl).within hp)
        exact ih k hk (below k hk) hd hp

/-- Every place between the top and a client is taken. -/
theorem WellPlaced.exists_of_within {c : Client V} (placed : c.WellPlaced) {p : ClientState V}
    (hp : p ∈ c.states) {a : ClientId} (hca : c.id.Within a) (hap : a.Within p.id) :
    ∃ q ∈ c.states, q.id = a := by
  induction c using forall_of_children with
  | h o kids ih =>
    obtain ⟨top, below⟩ := wellPlaced_mk.1 placed
    have self (hao : a.Within o.id) : ∃ q ∈ Client.states ⟨o, kids⟩, q.id = a :=
      ⟨o, mem_states_self _, ClientId.Within.antisymm hca hao⟩
    rcases mem_states_mk.1 hp with rfl | ⟨k, hk, hp⟩
    · exact self hap
    · have hkp := (below k hk).within hp
      rcases hkp.total hap with hka | hak
      · obtain ⟨q, hq, hid⟩ := ih k hk (below k hk) hp hka
        exact ⟨q, mem_states_mk.2 (.inr ⟨k, hk, hq⟩), hid⟩
      · obtain ⟨n, -, hn⟩ := top.numbered k hk
        rw [hn] at hak
        rcases ClientId.eq_or_within_of_child hak with heq | hao
        · exact ⟨k.toClientState, mem_states_mk.2 (.inr ⟨k, hk, mem_states_self k⟩), hn.trans heq.symm⟩
        · exact self hao

/-- A place below a client that is taken has a number that the client has given out. -/
theorem WellPlaced.lt_opened {c : Client V} (placed : c.WellPlaced) {o p : ClientState V}
    (ho : o ∈ c.states) (hp : p ∈ c.states) {n : Nat} (hwithin : (o.id.child n).Within p.id) :
    n < o.opened := by
  induction c using forall_of_children with
  | h r kids ih =>
    obtain ⟨top, below⟩ := wellPlaced_mk.1 placed
    rcases mem_states_mk.1 ho with rfl | ⟨k, hk, ho⟩
    · rcases mem_states_mk.1 hp with rfl | ⟨l, hl, hp⟩
      · exact absurd hwithin (ClientId.not_within_of_child _ _)
      · obtain ⟨m, hm, hid⟩ := top.numbered l hl
        have hlp := (below l hl).within hp
        rw [hid] at hlp
        rw [ClientId.eq_of_within hwithin hlp]
        exact hm
    · have hko := ((below k hk).within ho).trans ((ClientId.within_child o.id n).trans hwithin)
      rcases mem_states_mk.1 hp with rfl | ⟨l, hl, hp⟩
      · obtain ⟨m, -, hid⟩ := top.numbered k hk
        rw [hid] at hko
        exact absurd hko (ClientId.not_within_of_child _ _)
      · obtain rfl := top.eq_of_within hk hl hko ((below l hl).within hp)
        exact ih k hk (below k hk) ho hp

end Client

/-! ## Steps of one client -/

section Steps

variable {α : Type} {id : ClientId} {keep : Client V → Bool} {act : Act V α} {ch : Channels}

/-- A step of the client with a name, in a tree. On the way back up to the top, clients that are not
to be kept are let go. -/
inductive StepsAt (id : ClientId) (keep : Client V → Bool) (act : Act V α) (ch : Channels) :
    Client V → Turn V α → Prop where
  | here {c : Client V} (hid : c.id = id) : StepsAt id keep act ch c (act.run ch c)
  | under {o : ClientState V} {older younger : List (Client V)} {c : Client V} {t : Turn V α}
      (hid : o.id ≠ id) (step : StepsAt id keep act ch c t) :
    StepsAt id keep act ch ⟨o, older ++ c :: younger⟩
      ⟨t.result,
        ⟨o, older ++ (if keep t.client then t.client :: younger else younger)⟩, t.effects⟩

/-- Of several trees the first one with the name takes the step, if each by itself does. -/
theorem Client.actAtAny_spec {ks : List (Client V)}
    (ih : ∀ k ∈ ks, match k.actAt id keep act ch with
      | some t => StepsAt id keep act ch k t
      | none => ∀ p ∈ k.states, p.id ≠ id) :
    match actAtAny id keep act ch ks with
    | some (result, rest, effects) => ∃ older c younger t, ks = older ++ c :: younger ∧
        StepsAt id keep act ch c t ∧ result = t.result ∧ effects = t.effects ∧
        rest = older ++ if keep t.client then t.client :: younger else younger
    | none => ∀ k ∈ ks, ∀ p ∈ k.states, p.id ≠ id := by
  induction ks with
  | nil =>
    rw [actAtAny]
    intro k hk
    cases hk
  | cons k ks ihks =>
    have hk := ih k List.mem_cons_self
    have hks := ihks fun l hl => ih l (List.mem_cons_of_mem _ hl)
    rw [actAtAny]
    cases hstep : k.actAt id keep act ch with
    | some t =>
      rw [hstep] at hk
      exact ⟨[], k, ks, t, rfl, hk, rfl, rfl, rfl⟩
    | none =>
      rw [hstep] at hk
      cases hrest : actAtAny id keep act ch ks with
      | some found =>
        rw [hrest] at hks
        obtain ⟨older, c, younger, t, rfl, step, hresult, heffects, hothers⟩ := hks
        refine ⟨k :: older, c, younger, t, rfl, step, hresult, heffects, ?_⟩
        rw [hothers]
        rfl
      | none =>
        rw [hrest] at hks
        intro l hl
        rcases List.mem_cons.1 hl with rfl | hl
        · exact hk
        · exact hks l hl

/-- What `actAt` does is a step, and it fails only if nobody has the name. -/
theorem Client.actAt_spec (id : ClientId) (keep : Client V → Bool) (act : Act V α) (ch : Channels)
    (c : Client V) :
    match c.actAt id keep act ch with
    | some t => StepsAt id keep act ch c t
    | none => ∀ p ∈ c.states, p.id ≠ id := by
  induction c using Client.forall_of_children with
  | h o kids ih =>
    rw [Client.actAt]
    by_cases hid : o.id = id
    · rw [if_pos hid]
      exact .here hid
    · rw [if_neg hid]
      have hbelow := actAtAny_spec ih
      cases hany : Client.actAtAny id keep act ch kids with
      | some found =>
        rw [hany] at hbelow
        obtain ⟨older, c, younger, t, rfl, step, hresult, heffects, hothers⟩ := hbelow
        obtain ⟨result, rest, effects⟩ := found
        obtain rfl : result = t.result := hresult
        obtain rfl : effects = t.effects := heffects
        obtain rfl : rest = _ := hothers
        exact .under hid step
      | none =>
        rw [hany] at hbelow
        intro p hp
        rcases Client.mem_states_mk.1 hp with rfl | ⟨k, hk, hp⟩
        · exact hid
        · exact hbelow k hk p hp

/-- A step of a user is a step of the client with the name. -/
theorem Client.stepsAt_of_operate? {c : Client V} {t : Turn V α} (h : c.operate? id act ch = some t) :
    StepsAt id (fun _ => true) act ch c t := by
  have hspec := c.actAt_spec id (fun _ => true) act ch
  rw [show c.actAt id (fun _ => true) act ch = some t from h] at hspec
  exact hspec

/-- Clients stay in their tree until their processes are over. -/
def Client.stays (c : Client V) : Bool := !c.phase.isTerminal

/-- An answer goes to the client with the name; if there is none, nothing happens. -/
theorem Act.route_spec [ProcessView V] (id : ClientId) (result : Except ServiceError Snapshot)
    (ch : Channels) (c : Client V) :
    ((∀ p ∈ c.states, p.id ≠ id) ∧
        (route id result).run ch c = ⟨.error (.unknownClient id), c, []⟩) ∨
      StepsAt id Client.stays (respond result) ch c ((route id result).run ch c) := by
  have hspec := c.actAt_spec id Client.stays (respond result) ch
  have hroute : (route id result).run ch c =
    (c.actAt id Client.stays (respond result) ch).getD ⟨.error (.unknownClient id), c, []⟩ := rfl
  cases hat : c.actAt id Client.stays (respond result) ch with
  | none =>
    rw [hat] at hspec hroute
    exact .inl ⟨hspec, hroute⟩
  | some t =>
    rw [hat] at hspec hroute
    rw [hroute]
    exact .inr hspec

/-- What a step preserves of every client by itself, a step in a tree preserves of its top. -/
theorem StepsAt.top {P : ClientState V → Prop} {tree : Client V} {t : Turn V α}
    (step : StepsAt id keep act ch tree t)
    (stay : ∀ c : Client V, P c.toClientState → P (act.run ch c).client.toClientState)
    (h : P tree.toClientState) : P t.client.toClientState := by
  cases step with
  | here => exact stay _ h
  | under => exact h

/-- What an answer preserves of every client by itself, it preserves of the top of a tree. -/
theorem Act.route_top [ProcessView V] {P : ClientState V → Prop}
    {result : Except ServiceError Snapshot} {tree : Client V}
    (stay : ∀ c : Client V, P c.toClientState → P ((respond result).run ch c).client.toClientState)
    (h : P tree.toClientState) : P ((route id result).run ch tree).client.toClientState := by
  rcases route_spec id result ch tree with ⟨-, hrun⟩ | step
  · rw [hrun]
    exact h
  · exact step.top stay h

/-- The top of a tree stands where it did, if it did not take the step itself. -/
theorem StepsAt.top_of_ne {tree : Client V} {t : Turn V α} (step : StepsAt id keep act ch tree t)
    (other : tree.id ≠ id) : t.client.toClientState = tree.toClientState := by
  cases step with
  | here hid => exact absurd hid other
  | under => rfl

/-- A step in a tree of one client is a step of that client. -/
theorem StepsAt.alone {o : ClientState V} {t : Turn V α} (step : StepsAt id keep act ch ⟨o, []⟩ t) :
    o.id = id ∧ act.run ch ⟨o, []⟩ = t := by
  generalize hc : (⟨o, []⟩ : Client V) = c at step
  cases step with
  | here hid =>
    subst hc
    exact ⟨hid, rfl⟩
  | under =>
    have hnil := congrArg Client.children hc
    simp at hnil

/-- Who is in a tree, one of whose children is singled out. -/
theorem Client.mem_states_middle {o p : ClientState V} {older younger : List (Client V)}
    {k : Client V} :
    p ∈ states ⟨o, older ++ k :: younger⟩ ↔
      p ∈ k.states ∨ p ∈ states ⟨o, older ++ younger⟩ := by
  simp only [states_mk, List.flatMap_append, List.flatMap_cons, List.mem_cons, List.mem_append]
  grind

/-- What lies below one child is neither the client nor below another child. -/
theorem Client.WellPlaced.apart {o p : ClientState V} {older younger : List (Client V)} {k : Client V}
    (placed : WellPlaced ⟨o, older ++ k :: younger⟩) {id : ClientId} (hid : k.id.Within id)
    (hp : p ∈ states ⟨o, older ++ younger⟩) : ¬ id.Within p.id := by
  intro hwithin
  obtain ⟨top, below⟩ := wellPlaced_mk.1 placed
  have hk : k ∈ older ++ k :: younger := by simp
  rcases mem_states_mk.1 hp with rfl | ⟨l, hl, hp⟩
  · obtain ⟨n, -, hn⟩ := top.numbered k hk
    rw [hn] at hid
    exact ClientId.not_within_of_child _ n (hid.trans hwithin)
  · have hl' : l ∈ older ++ k :: younger := by
      rcases List.mem_append.1 hl with hl | hl
      · exact List.mem_append_left _ hl
      · exact List.mem_append_right _ (List.mem_cons_of_mem _ hl)
    have same := top.eq_of_within hk hl' (hid.trans hwithin) ((below l hl').within hp)
    have hperm : (older ++ k :: younger).Perm (k :: (older ++ younger)) := List.perm_middle
    have hnodup := (hperm.map (·.id)).nodup_iff.1 top.distinct
    rw [List.map_cons, List.nodup_cons] at hnodup
    exact hnodup.1 (same ▸ List.mem_map_of_mem hl)

/-- Who is in the tree after a step: the client that took it, with what it holds then, and clients that
do not lie at its place or below, unchanged. -/
theorem StepsAt.mem_states {tree : Client V} {t : Turn V α} (placed : tree.WellPlaced)
    (step : StepsAt id keep act ch tree t) :
    ∃ c ∈ tree.members, c.id = id ∧ t.result = (act.run ch c).result ∧
      t.effects = (act.run ch c).effects ∧
      ∀ p ∈ t.client.states, p ∈ (act.run ch c).client.states ∨
        (p ∈ tree.states ∧ ¬ id.Within p.id) := by
  induction step with
  | @here c hid => exact ⟨c, c.mem_members_self, hid, rfl, rfl, fun p hp => .inl hp⟩
  | @under o older younger k t hid step ih =>
    obtain ⟨-, below⟩ := Client.wellPlaced_mk.1 placed
    have hk : k ∈ older ++ k :: younger := by simp
    obtain ⟨c, hc, rfl, hresult, heffects, hstates⟩ := ih (below k hk)
    have hkc : k.id.Within c.id := (below k hk).within (List.mem_map_of_mem hc)
    refine ⟨c, Client.mem_members_mk.2 (.inr ⟨k, hk, hc⟩), rfl, hresult, heffects, fun p hp => ?_⟩
    have other (hp : p ∈ Client.states ⟨o, older ++ younger⟩) :
        p ∈ Client.states ⟨o, older ++ k :: younger⟩ ∧ ¬ c.id.Within p.id :=
      ⟨Client.mem_states_middle.2 (.inr hp), placed.apart hkc hp⟩
    split at hp
    · rcases Client.mem_states_middle.1 hp with hp | hp
      · rcases hstates p hp with hp | ⟨hp, hnot⟩
        · exact .inl hp
        · exact .inr ⟨Client.mem_states_middle.2 (.inl hp), hnot⟩
      · exact .inr (other hp)
    · exact .inr (other hp)

/-- Exactly who is in the tree after a step, as long as nobody is let go on the way up: everybody who does
not lie at the place of the client that took it or below, and what that client holds then, if it is the
top or is kept. -/
theorem StepsAt.mem_states_iff {tree : Client V} {t : Turn V α} (placed : tree.WellPlaced)
    (step : StepsAt id keep act ch tree t)
    (stay : ∀ p ∈ tree.states, p.id ≠ tree.id → p.id ≠ id → ∀ kids, keep ⟨p, kids⟩ = true) :
    ∃ c ∈ tree.members, c.id = id ∧ t.effects = (act.run ch c).effects ∧
      ∀ p, p ∈ t.client.states ↔ (p ∈ tree.states ∧ ¬ id.Within p.id) ∨
        (p ∈ (act.run ch c).client.states ∧
          (id = tree.id ∨ keep (act.run ch c).client = true)) := by
  induction step with
  | @here c hid =>
    refine ⟨c, c.mem_members_self, hid, rfl, fun p => ⟨fun hp => .inr ⟨hp, .inl hid.symm⟩, ?_⟩⟩
    rintro (⟨hp, hnot⟩ | ⟨hp, -⟩)
    · exact absurd (hid ▸ placed.within hp) hnot
    · exact hp
  | @under o older younger k t hid step ih =>
    obtain ⟨top, below⟩ := Client.wellPlaced_mk.1 placed
    have hk : k ∈ older ++ k :: younger := by simp
    have inside {p : ClientState V} (hp : p ∈ k.states) :
        p ∈ Client.states ⟨o, older ++ k :: younger⟩ ∧ p.id ≠ o.id := by
      refine ⟨Client.mem_states_middle.2 (.inl hp), fun heq => ?_⟩
      exact placed.apart ((below k hk).within hp) (Client.mem_states_self _) (heq ▸ .refl _)
    obtain ⟨c, hc, rfl, heffects, hstates⟩ := ih (below k hk) fun p hp _ =>
      stay p (inside hp).1 (inside hp).2
    have hkc : k.id.Within c.id := (below k hk).within (List.mem_map_of_mem hc)
    refine ⟨c, Client.mem_members_mk.2 (.inr ⟨k, hk, hc⟩), rfl, heffects, fun p => ?_⟩
    have other : p ∈ Client.states ⟨o, older ++ younger⟩ → ¬ c.id.Within p.id := placed.apart hkc
    have kept : p ∈ Client.states
          ⟨o, older ++ if keep t.client then t.client :: younger else younger⟩ ↔
        p ∈ Client.states ⟨o, older ++ younger⟩ ∨ (p ∈ t.client.states ∧ keep t.client = true) := by
      split
      · next hkeep => rw [Client.mem_states_middle, or_comm, hkeep, and_iff_left rfl]
      · next hkeep => exact iff_self_or.2 fun h => absurd h.2 hkeep
    -- a child that did not take the step itself is kept
    have child : p ∈ t.client.states ∧ keep t.client = true ↔ (p ∈ k.states ∧ ¬ c.id.Within p.id) ∨
        (p ∈ (act.run ch c).client.states ∧ keep (act.run ch c).client = true) := by
      cases step with
      | here hid' =>
        obtain rfl := (below k hk).eq_of_id hc k.mem_members_self hid'.symm
        refine ⟨.inr, ?_⟩
        rintro (⟨hp, hnot⟩ | h)
        · exact absurd ((below c hk).within hp) hnot
        · exact h
      | @under o' older' younger' _ t' hid' =>
        rw [and_iff_left (stay o' (inside (Client.mem_states_self _)).1
          (inside (Client.mem_states_self _)).2 hid' _), hstates p]
        exact or_congr_right (and_congr_right' (or_iff_right (Ne.symm hid')))
    have apart : c.id ≠ o.id := Ne.symm hid
    rw [kept, child, Client.mem_states_middle]
    grind

/-- A client may take the place of another one with the same name and parent. -/
theorem Client.Placed.replace {o : ClientState V} {older younger : List (Client V)} {c d : Client V}
    (placed : Placed ⟨o, older ++ c :: younger⟩) (hid : d.id = c.id) (hparent : d.parent = c.parent) :
    Placed ⟨o, older ++ d :: younger⟩ := by
  have mem {k : Client V} (hk : k ∈ older ++ d :: younger) :
      k = d ∨ k ∈ older ++ c :: younger := by
    rcases List.mem_append.1 hk with hk | hk
    · exact .inr (List.mem_append_left _ hk)
    · rcases List.mem_cons.1 hk with hk | hk
      · exact .inl hk
      · exact .inr (List.mem_append_right _ (List.mem_cons_of_mem _ hk))
  have hc : c ∈ older ++ c :: younger := by simp
  refine ⟨?_, ?_, ?_⟩
  · have hmap : (older ++ d :: younger).map (·.id) = (older ++ c :: younger).map (·.id) := by
      rw [List.map_append, List.map_append, List.map_cons, List.map_cons, hid]
    exact hmap ▸ placed.distinct
  · intro k hk
    rcases mem hk with rfl | hk
    · rw [hid]
      exact placed.numbered c hc
    · exact placed.numbered k hk
  · intro k hk
    rcases mem hk with rfl | hk
    · rw [hparent]
      exact placed.linked c hc
    · exact placed.linked k hk

/-- A client may let children go. -/
theorem Client.Placed.sublist {o : ClientState V} {kids kids' : List (Client V)}
    (placed : Placed ⟨o, kids⟩) (sub : kids'.Sublist kids) : Placed ⟨o, kids'⟩ :=
  ⟨placed.distinct.sublist (sub.map _), fun k hk => placed.numbered k (sub.subset hk),
    fun k hk => placed.linked k (sub.subset hk)⟩

/-- A step leaves the clients of a tree where they are, if it leaves those so which the client holds
that takes it. -/
theorem StepsAt.wellPlaced {tree : Client V} {t : Turn V α} (step : StepsAt id keep act ch tree t)
    (placed : tree.WellPlaced)
    (hact : ∀ c ∈ tree.members, (act.run ch c).client.WellPlaced ∧
      (act.run ch c).client.id = c.id ∧ (act.run ch c).client.parent = c.parent) :
    t.client.WellPlaced ∧ t.client.id = tree.id ∧ t.client.parent = tree.parent := by
  induction step with
  | @here c hid => exact hact c c.mem_members_self
  | @under o older younger k t hid step ih =>
    obtain ⟨top, below⟩ := Client.wellPlaced_mk.1 placed
    have hk : k ∈ older ++ k :: younger := by simp
    obtain ⟨ht, htid, htparent⟩ := ih (below k hk) fun c hc =>
      hact c (Client.mem_members_mk.2 (.inr ⟨k, hk, hc⟩))
    refine ⟨Client.wellPlaced_mk.2 ⟨?_, fun l hl => ?_⟩, rfl, rfl⟩
    · split
      · exact top.replace htid htparent
      · exact top.sublist (List.Sublist.append_left (List.sublist_cons_self k younger) older)
    · rcases List.mem_append.1 hl with hl | hl
      · exact below l (List.mem_append_left _ hl)
      · split at hl
        · rcases List.mem_cons.1 hl with rfl | hl
          · exact ht
          · exact below l (List.mem_append_right _ (List.mem_cons_of_mem _ hl))
        · exact below l (List.mem_append_right _ (List.mem_cons_of_mem _ hl))

end Steps

/-! ## What a step adds -/

section Births

variable [ProcessView V] {ch : Channels}

/-- The client of a new child that is kept took over as one of the step's children. -/
theorem mem_newcomers {o : ClientState V} {ss : List Snapshot} {k : Client V} :
    k ∈ newcomers ch o ss ↔
      (∃ t ∈ births ch o ss, t.client = k) ∧ k.phase.isTerminal = false := by
  rw [newcomers, List.mem_filter, List.mem_map, Bool.not_eq_true']

/-- New children lie at places of their own. -/
theorem Client.Placed.add (h : ch.dispatchOpen = true) {o o' : ClientState V}
    {kids : List (Client V)} {ss : List Snapshot} (placed : Placed ⟨o, kids⟩) (hid : o'.id = o.id)
    (hopened : o'.opened = o.opened + ss.length) :
    Placed ⟨o', kids ++ newcomers ch o.awake ss⟩ := by
  have hold : ∀ k ∈ kids, ∃ n < o.opened, k.id = o.id.child n := placed.numbered
  have hnew : ∀ k ∈ newcomers ch o.awake ss,
      ∃ n, o.opened ≤ n ∧ n < o'.opened ∧ k.id = o.id.child n := by
    intro k hk
    obtain ⟨⟨t, ht, rfl⟩, -⟩ := mem_newcomers.1 hk
    obtain ⟨n, hle, hlt, hn⟩ := number_of_mem_births h ht
    exact ⟨n, hle, hopened ▸ hlt, hn⟩
  refine ⟨?_, ?_, ?_⟩
  · rw [List.map_append, List.nodup_append]
    refine ⟨placed.distinct, ?_, ?_⟩
    · have hsub : ((newcomers ch o.awake ss).map (·.id)).Sublist
          ((births ch o.awake ss).map (·.client.id)) := by
        have := (List.filter_sublist (p := fun c : Client V => !c.phase.isTerminal)
          (l := (births ch o.awake ss).map (·.client))).map (·.id)
        rwa [List.map_map] at this
      refine List.Nodup.sublist hsub ?_
      rw [map_id_births h, List.Nodup, List.pairwise_map]
      exact (List.nodup_range' ..).imp fun hne heq => hne (o.awake.id.child_injective heq)
    · intro a ha b hb heq
      obtain ⟨k, hk, rfl⟩ := List.mem_map.1 ha
      obtain ⟨l, hl, rfl⟩ := List.mem_map.1 hb
      obtain ⟨m, hm, hkm⟩ := hold k hk
      obtain ⟨n, hn, -, hln⟩ := hnew l hl
      have := o.id.child_injective (hkm.symm.trans (heq.trans hln))
      omega
  · intro k hk
    show ∃ n < o'.opened, k.id = o'.id.child n
    rw [hid]
    rcases List.mem_append.1 hk with hk | hk
    · obtain ⟨n, hn, hkn⟩ := hold k hk
      exact ⟨n, by omega, hkn⟩
    · obtain ⟨n, -, hn, hkn⟩ := hnew k hk
      exact ⟨n, hn, hkn⟩
  · intro k hk
    show k.parent = some o'.id
    rw [hid]
    rcases List.mem_append.1 hk with hk | hk
    · exact placed.linked k hk
    · obtain ⟨⟨t, ht, rfl⟩, -⟩ := mem_newcomers.1 hk
      exact parent_of_mem_births (o := o.awake) h ht

/-- What happens to a client leaves the clients of its tree where they are, if that is so for the clients
of new children. -/
theorem Stimulus.wellPlaced_of_births (h : ch.dispatchOpen = true) (i : Stimulus) {o : ClientState V}
    {kids : List (Client V)} (placed : Client.WellPlaced ⟨o, kids⟩)
    (hbirths : ∀ t ∈ births ch o.awake (i.offspring o), t.client.WellPlaced) :
    (i.act.run ch ⟨o, kids⟩).client.WellPlaced := by
  obtain ⟨r, o', before, after, reaction, hopened, hrun⟩ := follows_run h i o kids
  obtain ⟨top, below⟩ := Client.wellPlaced_mk.1 placed
  rw [hrun]
  refine Client.wellPlaced_mk.2 ⟨top.add h reaction.named.1 hopened, fun k hk => ?_⟩
  rcases List.mem_append.1 hk with hk | hk
  · exact below k hk
  · obtain ⟨⟨t, ht, rfl⟩, -⟩ := mem_newcomers.1 hk
    exact hbirths t ht

omit [ProcessView V] in
/-- A client without children is well placed. -/
theorem Client.wellPlaced_leaf (o : ClientState V) : WellPlaced ⟨o, []⟩ :=
  wellPlaced_mk.2 ⟨⟨List.nodup_nil, nofun, nofun⟩, nofun⟩

theorem wellPlaced_attach (h : ch.dispatchOpen = true) (s : Snapshot) :
    ∀ o : ClientState V, o.phase = .idle →
      ((Act.attach s).run ch ⟨o, []⟩).client.WellPlaced := by
  induction s using Snapshot.forall_of_children with
  | h s ih =>
    intro o idle
    have hplaced := Stimulus.wellPlaced_of_births h (.action (.attach s)) (Client.wellPlaced_leaf o)
      fun t ht => ?_
    · rwa [run_act_attach h s idle] at hplaced
    · obtain ⟨u, hu, n, v, rfl⟩ := exists_of_mem_births ht
      exact ih u (Stimulus.offspring_attach hu) _ rfl

theorem wellPlaced_of_mem_births (h : ch.dispatchOpen = true) {o : ClientState V}
    {ss : List Snapshot} {t : Turn V Unit} (ht : t ∈ births ch o ss) : t.client.WellPlaced := by
  obtain ⟨s, -, n, v, rfl⟩ := exists_of_mem_births ht
  exact wellPlaced_attach h s _ rfl

/-- What happens to a client leaves the clients of its tree where they are. -/
theorem Stimulus.wellPlaced_run (h : ch.dispatchOpen = true) (i : Stimulus) {c : Client V}
    (placed : c.WellPlaced) : (i.act.run ch c).client.WellPlaced := by
  obtain ⟨o, kids⟩ := c
  exact wellPlaced_of_births h i placed fun t ht => wellPlaced_of_mem_births h ht

end Births

end Stepwise
