/-
# Clients and server agree

While requests are under way, a tree of clients need not know all processes of its server: what a
step has spawned is unknown to a client that has sent a deferred cancel instead of showing the step.
But such processes descend from one whose cancel is on the way, which will end them all. And a client
that has left the tree may have a request under way, of a process that has ended.

* `Request.Spent` : a request about a process of which nothing is left;
* `Attended` : somebody cares for new processes;
* `Joined` : how clients and server agree while requests are under way;
* `Joined.begun` : they agree once the first process has started;
* `Joined.moved` : they agree after a client has moved on to another step, or has stayed on its own;
* `Joined.ended` : they agree after the end of a process;
* `Joined.passed` : the request of a client that has left changes nothing;
* `Fulfilled`, `Answered.fulfilled` : what a server answers to a client that knows its process;
* `Joined.perm` : with no request under way, clients and processes correspond one to one.
-/
import Stepwise.Proofs.Joint.Hosting

namespace Stepwise

variable {V : Type}

/-- The request cancels a process. -/
def Request.Cancels (r : Request) (id : Uuid) : Prop :=
  ∃ t event, r = .continue t .cancel event ∧ t.id = id

/-- The request is about a process of which nothing is left on the server. -/
def Request.Spent (r : Request) (server : Server) : Prop :=
  ∃ t mode event, r = .continue t mode event ∧ (∃ n < server.issued, t.id = .issued n) ∧
    ∀ p ∈ server.instances, ¬ Descends server.instances t.id p.id

section Spent

variable {r : Request} {before after : Server} {p : Instance}

/-- What is spent stays spent while processes end. -/
theorem Request.Spent.of_subset (spent : r.Spent before) (precedes : before.Precedes after)
    (sub : ∀ p ∈ after.instances, p ∈ before.instances) : r.Spent after := by
  obtain ⟨t, mode, event, heq, ⟨n, hn, hid⟩, nobody⟩ := spent
  refine ⟨t, mode, event, heq, ⟨n, Nat.lt_of_lt_of_le hn precedes.issued, hid⟩, fun q hq hdesc => ?_⟩
  exact nobody q (sub q hq) (hdesc.mono fun w hw => ⟨w, sub w hw, rfl, rfl⟩)

/-- What is spent stays spent while a process enters a step. -/
theorem Request.Spent.entered {s : Snapshot} {ss : List Snapshot} (spent : r.Spent before)
    (entered : Server.Entered before after p s ss) (hp : p ∈ before.instances)
    (precedes : before.Precedes after) (distinct : after.IdsDistinct) : r.Spent after := by
  obtain ⟨t, mode, event, heq, ⟨n, hn, hid⟩, nobody⟩ := spent
  exact ⟨t, mode, event, heq, ⟨n, Nat.lt_of_lt_of_le hn precedes.issued, hid⟩,
    entered.childless hp distinct precedes hn hid nobody⟩

/-- When a process is over, what its client and those below it have asked for is spent. -/
theorem Mirrored.spent {parent : Option Uuid} {c : Client V} {u : Snapshot}
    (h : Mirrored before.instances parent c) (current : c.current = some u) (hu : u.id = p.id)
    (left : ∀ q, q ∈ after.instances ↔
      q ∈ before.instances ∧ ¬ Descends before.instances p.id q.id)
    (sound : before.Sound) (precedes : before.Precedes after) {w : ClientState V} (hw : w ∈ c.states)
    (matching : Matches w r) : r.Spent after := by
  cases matching with
  | start _ fresh =>
    obtain ⟨m, hm, rfl⟩ := List.mem_map.1 hw
    obtain ⟨v, q, hv, -⟩ := h.process hm
    rw [fresh] at hv
    cases hv
  | @«continue» t mode event v hv htv back =>
    have hkey : t.id ∈ c.keys := mem_keysOf.2 ⟨w, hw, v, hv, htv.symm⟩
    obtain ⟨q, hq, hqid⟩ := List.mem_map.1 (h.running hkey)
    obtain ⟨n, hn, hqn, -⟩ := (sound q hq).numbered
    refine ⟨t, mode, event, rfl, ⟨n, Nat.lt_of_lt_of_le hn precedes.issued, hqid.symm.trans hqn⟩,
      fun r hr hdesc => ((left r).1 hr).2 ?_⟩
    have hbelow : Descends before.instances p.id t.id := hu ▸ h.descends current hkey
    exact hbelow.trans (hdesc.mono fun w hw => ⟨w, ((left w).1 hw).1, rfl, rfl⟩)

end Spent

/-- Somebody cares for the processes inside the snapshots that a client has got: the clients of new
children have taken over, or a cancel of the process above them is on the way. -/
structure Attended (instances : List Instance) (x : Uuid) (ss : List Snapshot) (id : ClientId)
    (newKids : List (Client V)) (sent : List Dispatch) : Prop where
  mirrored : ∀ k ∈ newKids, Mirrored instances (some x) k
  lively : ∀ q ∈ newKids.flatMap Client.states, q.phase.isTerminal = false
  keys : keysOf (newKids.flatMap Client.states) = ss.flatMap Snapshot.ids ∨
    newKids = [] ∧ ∃ d ∈ sent, d.request.Cancels x
  senders : ∀ d ∈ sent, d.client = id ∨ ∃ q ∈ newKids.flatMap Client.states, q.id = d.client

/-- There is nobody to care for. -/
theorem Attended.alone (instances : List Instance) (x : Uuid) {id : ClientId} {sent : List Dispatch}
    (own : ∀ d ∈ sent, d.client = id) :
    Attended instances x [] id ([] : List (Client V)) sent := by
  refine ⟨?_, ?_, .inl rfl, fun d hd => .inl (own d hd)⟩
  · intro k hk
    cases hk
  · intro q hq
    cases hq

/-- Some trees of clients agree with a server while requests are under way. -/
structure Joined (ks : List (Client V)) (waiting : List Dispatch) (server : Server) : Prop where
  mirrored : ∀ k ∈ ks, Mirrored server.instances none k
  distinct : (keysOf (ks.flatMap Client.states)).Nodup
  /-- A process that no client knows descends from one that is about to be cancelled. -/
  covered : ∀ p ∈ server.instances, p.id ∈ keysOf (ks.flatMap Client.states) ∨
    ∃ d ∈ waiting, ∃ x, d.request.Cancels x ∧ Descends server.instances x p.id
  /-- The request of a client that has left is about a process of which nothing is left. -/
  strangers : ∀ d ∈ waiting, (∀ o ∈ ks.flatMap Client.states, o.id ≠ d.client) →
    d.request.Spent server
  lively : ∀ o ∈ ks.flatMap Client.states, o.phase.isTerminal = false

namespace Joined

variable {ks ks' : List (Client V)} {waiting remaining sent : List Dispatch} {before after : Server}

theorem running (j : Joined ks waiting before) {x : Uuid}
    (hx : x ∈ keysOf (ks.flatMap Client.states)) : x ∈ before.instances.map (·.id) := by
  obtain ⟨o, ho, hkey⟩ := mem_keysOf.1 hx
  obtain ⟨k, hk, ho⟩ := List.mem_flatMap.1 ho
  exact (j.mirrored k hk).running (mem_keysOf.2 ⟨o, ho, hkey⟩)

/-- With no request under way, the processes that clients know are the processes that run. -/
theorem perm (j : Joined ks [] before) :
    (keysOf (ks.flatMap Client.states)).Perm (before.instances.map (·.id)) := by
  refine (List.perm_ext_iff_of_nodup j.distinct before.distinct).2 fun x => ⟨j.running, fun hx => ?_⟩
  obtain ⟨p, hp, rfl⟩ := List.mem_map.1 hx
  rcases j.covered p hp with h | ⟨d, hd, -⟩
  · exact h
  · cases hd

/-- The first process has started, and its client has taken its snapshot. -/
theorem begun {o : ClientState V} {newKids : List (Client V)} {s : Snapshot}
    (empty : before.instances = []) (grown : Server.Grown none before after [s])
    (going : o.phase.isTerminal = false) (shows : o.Shows s)
    (attended : Attended after.instances s.id s.children o.id newKids waiting) :
    Joined [⟨o, newKids⟩] waiting after := by
  have hall : (after.instances.map (·.id)).Perm (s.id :: s.children.flatMap Snapshot.ids) := by
    have hids := grown.ids
    rw [empty, List.map_nil, List.append_nil, List.flatMap_singleton, s.ids_eq] at hids
    exact hids
  have hnodup := hall.nodup_iff.1 after.distinct
  obtain ⟨t, current, passes⟩ := shows
  have planted := grown.planted s (List.mem_singleton_self s)
  have hdesc : ∀ x ∈ s.children.flatMap Snapshot.ids, Descends after.instances s.id x :=
    fun x hx => planted.descends (by rw [s.ids_eq]; exact List.mem_cons_of_mem _ hx)
  cases planted with
  | @mk _ _ p running agrees hparent children =>
    have hid : t.id = s.id := (passes p agrees).id.trans agrees.id.symm
    have hkeysAll : keysOf ([(⟨o, newKids⟩ : Client V)].flatMap Client.states) =
        s.id :: keysOf (newKids.flatMap Client.states) := by
      rw [List.flatMap_singleton, Client.states_mk, keysOf_cons current, hid]
    have hmem : ∀ q, q ∈ [(⟨o, newKids⟩ : Client V)].flatMap Client.states ↔
        q = o ∨ q ∈ newKids.flatMap Client.states := by
      intro q
      rw [List.flatMap_singleton, Client.states_mk, List.mem_cons]
    refine ⟨?_, ?_, ?_, ?_, ?_⟩
    · intro k hk
      obtain rfl := List.mem_singleton.1 hk
      refine .mk current running (passes p agrees) hparent fun k hk => ?_
      rw [hid]
      exact attended.mirrored k hk
    · -- all processes of the server come from the start, so their identifiers are distinct
      rw [hkeysAll]
      rcases attended.keys with heq | ⟨rfl, -⟩
      · rw [heq]
        exact hnodup
      · exact List.nodup_cons.2 ⟨List.not_mem_nil, List.nodup_nil⟩
    · intro r hr
      rw [hkeysAll]
      rcases List.mem_cons.1 (hall.mem_iff.1 (List.mem_map_of_mem hr)) with heq | hmemId
      · exact .inl (heq ▸ List.mem_cons_self)
      · rcases attended.keys with heq | ⟨-, d, hd, hcancel⟩
        · exact .inl (List.mem_cons_of_mem _ (heq ▸ hmemId))
        · exact .inr ⟨d, hd, s.id, hcancel, hdesc r.id hmemId⟩
    · intro d hd hout
      rcases attended.senders d hd with hown | ⟨q, hq, hqid⟩
      · exact absurd hown.symm (hout o ((hmem o).2 (.inl rfl)))
      · exact absurd hqid (hout q ((hmem q).2 (.inr hq)))
    · intro q hq
      rcases (hmem q).1 hq with rfl | hq
      · exact going
      · exact attended.lively q hq

/-- The request of a client that has left finds nobody and changes nothing. -/
theorem passed {d : Dispatch} (j : Joined ks (d :: waiting) before)
    (stranger : ∀ o ∈ ks.flatMap Client.states, o.id ≠ d.client) (precedes : before.Precedes after)
    (same : after.instances = before.instances) : Joined ks waiting after := by
  obtain ⟨t, mode, event, hrequest, -, nobody⟩ := j.strangers d List.mem_cons_self stranger
  refine ⟨?_, j.distinct, ?_, ?_, j.lively⟩
  · intro k hk
    rw [same]
    exact j.mirrored k hk
  · intro p hp
    rw [same] at hp ⊢
    rcases j.covered p hp with h | ⟨e, he, x, ⟨u, event', hcancel, hx⟩, hdesc⟩
    · exact .inl h
    · -- the request itself covered nobody, as nobody descends from its process
      rcases List.mem_cons.1 he with rfl | he
      · obtain ⟨rfl, -, -⟩ := Request.continue.inj (hrequest.symm.trans hcancel)
        exact absurd (hx ▸ hdesc) (nobody p hp)
      · exact .inr ⟨e, he, x, ⟨u, event', hcancel, hx⟩, hdesc⟩
  · intro e he hout
    exact (j.strangers e (List.mem_cons_of_mem _ he) hout).of_subset precedes fun p hp => same ▸ hp

section Moved

variable {o o' : ClientState V} {kids newKids : List (Client V)} {s u : Snapshot} {ss : List Snapshot}
  {p : Instance} {rest : List (ClientState V)}

/-- The processes that clients know, with that of one client in front. -/
theorem keysOf_focus {ps : List (ClientState V)}
    (hps : ps.Perm (Client.states ⟨o, kids⟩ ++ rest)) (current : o.current = some u) :
    (keysOf ps).Perm (u.id :: (keysOf (kids.flatMap Client.states) ++ keysOf rest)) := by
  have hperm := hps.filterMap ClientState.key
  rw [Client.states_mk, List.cons_append] at hperm
  refine hperm.trans ?_
  show (keysOf (o :: (kids.flatMap Client.states ++ rest))).Perm _
  rw [keysOf_cons current, keysOf_append]

/-- A client that keeps its process and gets new children knows those of its children in addition. -/
theorem keysOf_moved {ps ps' : List (ClientState V)}
    (hps : ps.Perm (Client.states ⟨o, kids⟩ ++ rest))
    (hps' : ps'.Perm (Client.states ⟨o', kids ++ newKids⟩ ++ rest)) (current : o.current = some u)
    {t : Snapshot} (current' : o'.current = some t) (hid : t.id = u.id) :
    (keysOf ps').Perm (keysOf (newKids.flatMap Client.states) ++ keysOf ps) := by
  refine (keysOf_focus hps' current').trans (List.Perm.trans ?_
    ((keysOf_focus hps current).append_left _).symm)
  rw [hid, List.flatMap_append, keysOf_append, List.perm_iff_count]
  intro x
  simp only [List.count_cons, List.count_append]
  omega

/-- A client that has moved mirrors its process on the new step. -/
theorem mirrored_moved {instances : List Instance} {parent : Option Uuid}
    (h : Mirrored before.instances parent ⟨o, kids⟩) (current : o.current = some u)
    (hp : p ∈ before.instances) (hu : u.id = p.id) (shows : o'.Shows s)
    {q : Instance} (hq : q ∈ instances) (hqid : q.id = p.id) (hparent : q.parent = p.parent)
    (agrees : s.Agrees q) (kept : ∀ r ∈ before.instances, r.id ≠ p.id → r ∈ instances)
    (apart : p.id ∉ keysOf (kids.flatMap Client.states))
    (hnew : ∀ k ∈ newKids, Mirrored instances (some p.id) k) :
    Mirrored instances parent ⟨o', kids ++ newKids⟩ := by
  obtain ⟨t, ht, passes⟩ := shows
  cases h with
  | @mk _ _ _ v r hv running agreesV hparentV children =>
    obtain rfl : v = u := Option.some.inj (hv.symm.trans current)
    obtain rfl := before.eq_of_id running hp (agreesV.id.symm.trans hu)
    have htid : t.id = r.id := (passes q agrees).id.trans hqid
    refine .mk ht hq (passes q agrees) (hparent.trans hparentV) fun k hk => ?_
    rcases List.mem_append.1 hk with hk | hk
    · rw [htid, ← hu]
      refine (children k hk).mono fun w hw hwid => kept w hw fun heq => apart ?_
      obtain ⟨x, hx, hkey⟩ := mem_keysOf.1 hwid
      rw [← heq]
      exact mem_keysOf.2 ⟨x, List.mem_flatMap.2 ⟨k, hk, hx⟩, hkey⟩
    · rw [htid]
      exact hnew k hk

/-- A client has got a snapshot of its process, and the clients of new children have taken over; or a
cancel is on the way instead. -/
theorem moved (j : Joined ks waiting before) (precedes : before.Precedes after)
    (distinct : after.IdsDistinct) (ex : Exchanged ⟨o, kids⟩ [⟨o', kids ++ newKids⟩] ks ks')
    (current : o.current = some u) (hp : p ∈ before.instances) (hu : u.id = p.id)
    (hid : o'.id = o.id) (going : o'.phase.isTerminal = false) (shows : o'.Shows s)
    (entered : Server.Entered before after p s ss)
    (attended : Attended after.instances p.id ss o.id newKids sent)
    (fewer : ∀ d ∈ remaining, d ∈ waiting)
    (cancels : ∀ d ∈ waiting, ∀ x, d.request.Cancels x → d ∈ remaining) :
    Joined ks' (remaining ++ sent) after := by
  obtain ⟨rest, hks, hks', hmirror⟩ := ex.split
  rw [List.flatMap_singleton] at hks'
  obtain ⟨q, hq, hqid, hparent, agrees⟩ := entered.shown
  obtain ⟨t, ht, passes⟩ := shows
  have htu : t.id = u.id := (passes q agrees).id.trans (hqid.trans hu.symm)
  have hkeys' := keysOf_moved hks hks' current ht htu
  have hfocus := keysOf_focus hks current
  have apart : p.id ∉ keysOf (kids.flatMap Client.states) ++ keysOf rest := by
    have := hfocus.nodup_iff.1 j.distinct
    rw [List.nodup_cons, hu] at this
    exact this.1
  have hmem : ∀ q, q ∈ ks'.flatMap Client.states ↔ q = o' ∨ q ∈ kids.flatMap Client.states ∨
      q ∈ newKids.flatMap Client.states ∨ q ∈ rest := by
    intro q
    rw [hks'.mem_iff, Client.states_mk, List.flatMap_append]
    simp only [List.cons_append, List.mem_cons, List.mem_append, or_assoc]
  refine ⟨?_, ?_, ?_, ?_, ?_⟩
  · -- the client has moved, and the processes of all others are as they were
    obtain ⟨par, hc, hback⟩ := hmirror after.instances j.mirrored
    refine hback (fun k hk => ?_) fun r hr hrid => entered.kept r hr fun heq => apart ?_
    · obtain rfl := List.mem_singleton.1 hk
      exact mirrored_moved hc current hp hu ⟨t, ht, passes⟩ hq hqid hparent agrees entered.kept
        (fun h => apart (List.mem_append_left _ h)) attended.mirrored
    · exact List.mem_append_right _ (heq ▸ hrid)
  · -- what was added has new identifiers
    refine hkeys'.nodup_iff.2 ?_
    rcases attended.keys with heq | ⟨rfl, -⟩
    · have hall := entered.ids.nodup_iff.1 after.distinct
      rw [List.nodup_append] at hall
      rw [heq, List.nodup_append]
      exact ⟨hall.1, j.distinct, fun x hx y hy => hall.2.2 x hx y (j.running hy)⟩
    · exact j.distinct
  · -- a process is new, or it was there; then a cancel above it is still on the way
    intro r hr
    rcases List.mem_append.1 (entered.ids.mem_iff.1 (List.mem_map_of_mem hr)) with hnewid | hold
    · rcases attended.keys with heq | ⟨-, d, hd, hcancel⟩
      · exact .inl (hkeys'.mem_iff.2 (List.mem_append_left _ (heq ▸ hnewid)))
      · exact .inr ⟨d, List.mem_append_right _ hd, p.id, hcancel, entered.descends hnewid⟩
    · obtain ⟨r', hr', hrid⟩ := List.mem_map.1 hold
      rw [← hrid]
      rcases j.covered r' hr' with h | ⟨d, hd, x, hcancel, hdesc⟩
      · exact .inl (hkeys'.mem_iff.2 (List.mem_append_right _ h))
      · exact .inr ⟨d, List.mem_append_left _ (cancels d hd x hcancel), x, hcancel,
          hdesc.mono fun w hw => entered.exists_after hp hw⟩
  · -- whoever has left before is still away, and what is handed over now has a sender
    intro d hd hout
    rcases List.mem_append.1 hd with hd | hd
    · have hout' : ∀ w ∈ ks.flatMap Client.states, w.id ≠ d.client := by
        intro w hw
        rw [hks.mem_iff, Client.states_mk, List.cons_append, List.mem_cons, List.mem_append] at hw
        rcases hw with rfl | hw | hw
        · rw [← hid]
          exact hout o' ((hmem o').2 (.inl rfl))
        · exact hout w ((hmem w).2 (.inr (.inl hw)))
        · exact hout w ((hmem w).2 (.inr (.inr (.inr hw))))
      exact (j.strangers d (fewer d hd) hout').entered entered hp precedes distinct
    · rcases attended.senders d hd with hown | ⟨w, hw, hwid⟩
      · exact absurd (hid.trans hown.symm) (hout o' ((hmem o').2 (.inl rfl)))
      · exact absurd hwid (hout w ((hmem w).2 (.inr (.inr (.inl hw)))))
  · intro r hr
    rcases (hmem r).1 hr with rfl | hr | hr | hr
    · exact going
    · exact j.lively r (hks.mem_iff.2 (by
        rw [Client.states_mk]
        exact List.mem_append_left _ (List.mem_cons_of_mem _ hr)))
    · exact attended.lively r hr
    · exact j.lively r (hks.mem_iff.2 (List.mem_append_right _ hr))

end Moved

/-- Clients that are not below a client know no process below its process. -/
theorem not_descends {o : ClientState V} {kids : List (Client V)} {u : Snapshot} {p : Instance}
    {rest : List (ClientState V)} (j : Joined ks waiting before)
    (hc : (⟨o, kids⟩ : Client V) ∈ ks.flatMap Client.members)
    (hks : (ks.flatMap Client.states).Perm (Client.states ⟨o, kids⟩ ++ rest))
    (current : o.current = some u) (hu : u.id = p.id) {x : Uuid} (hx : x ∈ keysOf rest) :
    ¬ Descends before.instances p.id x := by
  intro hbelow
  have hfocus : (keysOf (ks.flatMap Client.states)).Perm
      (Client.keys ⟨o, kids⟩ ++ keysOf rest) := by
    rw [Client.keys_mk current]
    exact keysOf_focus hks current
  have hxks : x ∈ keysOf (ks.flatMap Client.states) := hfocus.mem_iff.2 (List.mem_append_right _ hx)
  obtain ⟨w, hw, hkey⟩ := mem_keysOf.1 hxks
  obtain ⟨k, hk, hw⟩ := List.mem_flatMap.1 hw
  rcases (j.mirrored k hk).above (mem_keysOf.2 ⟨w, hw, hkey⟩) hbelow with
    ⟨e, he, hekey, hxe⟩ | ⟨y, hy, -⟩
  · have hokey : (⟨o, kids⟩ : Client V).key = some p.id := by
      show o.current.map (·.id) = _
      rw [current, Option.map_some, hu]
    obtain rfl := eq_of_key j.distinct (List.mem_flatMap.2 ⟨k, hk, he⟩) hc hekey hokey
    have hnodup := hfocus.nodup_iff.1 j.distinct
    rw [List.nodup_append] at hnodup
    exact hnodup.2.2 x hxe x hx rfl
  · cases hy

/-- A process is over, with all that it has spawned, and its client has left with all below it. -/
theorem ended {d : Dispatch} {o : ClientState V} {kids : List (Client V)} {u : Snapshot}
    {p : Instance} (j : Joined ks (d :: waiting) before) (sound : before.Sound)
    (precedes : before.Precedes after) (ex : Exchanged ⟨o, kids⟩ [] ks ks')
    (current : o.current = some u) (hu : u.id = p.id)
    (left : ∀ q, q ∈ after.instances ↔
      q ∈ before.instances ∧ ¬ Descends before.instances p.id q.id)
    (own : ∀ x, d.request.Cancels x → x = p.id)
    (matching : ∀ q ∈ ks.flatMap Client.states, ∀ e ∈ waiting, q.id = e.client →
      Matches q e.request) : Joined ks' waiting after := by
  obtain ⟨rest, hks, hks', hmirror⟩ := ex.split
  rw [List.flatMap_nil, List.nil_append] at hks'
  obtain ⟨par, hc, hback⟩ := hmirror after.instances j.mirrored
  have hkeys' : (keysOf (ks'.flatMap Client.states)).Perm (keysOf rest) := hks'.filterMap _
  have hfocus := keysOf_focus hks current
  have hstay : ∀ x ∈ keysOf rest, ¬ Descends before.instances p.id x :=
    fun x hx => j.not_descends ex.mem hks current hu hx
  refine ⟨hback ?_ ?_, ?_, ?_, ?_, ?_⟩
  · intro k hk
    cases hk
  · exact fun r hr hrid => (left r).2 ⟨hr, hstay r.id hrid⟩
  · have hnodup := hfocus.nodup_iff.1 j.distinct
    rw [List.nodup_cons, List.nodup_append] at hnodup
    exact hkeys'.nodup_iff.2 hnodup.2.2.1
  · -- nobody that stays was known to the client or below it, or was to end with its process
    intro r hr
    obtain ⟨hr, hnot⟩ := (left r).1 hr
    rcases j.covered r hr with h | ⟨e, he, x, hcancel, hbelow⟩
    · have hall := hfocus.mem_iff.1 h
      rw [← List.cons_append, ← Client.keys_mk current] at hall
      rcases List.mem_append.1 hall with h | h
      · exact absurd (hu ▸ hc.descends current h) hnot
      · exact .inl (hkeys'.mem_iff.2 h)
    · rcases List.mem_cons.1 he with rfl | he
      · rw [own x hcancel] at hbelow
        exact absurd hbelow hnot
      · exact .inr ⟨e, he, x, hcancel,
          hbelow.survives (fun w hw hwnot => (left w).2 ⟨hw, hwnot⟩) hnot⟩
  · intro e he hout
    by_cases hthere : ∀ w ∈ ks.flatMap Client.states, w.id ≠ e.client
    · exact (j.strangers e (List.mem_cons_of_mem _ he) hthere).of_subset precedes
        fun r hr => ((left r).1 hr).1
    · -- the client has just left
      push Not at hthere
      obtain ⟨w, hw, hwid⟩ := hthere
      have hwc : w ∈ Client.states ⟨o, kids⟩ := by
        rcases List.mem_append.1 (hks.mem_iff.1 hw) with h | h
        · exact h
        · exact absurd hwid (hout w (hks'.mem_iff.2 h))
      exact hc.spent current hu left sound precedes hwc (matching w hw e he hwid)
  · intro r hr
    exact j.lively r (hks.mem_iff.2 (List.mem_append_right _ (hks'.mem_iff.1 hr)))

end Joined

/-- What a server answers to a request that was sent from the snapshot of a running process: it does as
it is asked, unless the submitted values are wrong. -/
inductive Fulfilled (before : Server) (p : Instance) (r : Request) :
    Except ServiceError Snapshot → Server → Prop where
  | invalid (fieldErrors : KeyMap String) {after : Server} (kept : ∀ x, ¬ r.Cancels x)
      (same : after.instances = before.instances) :
    Fulfilled before p r (.error (.recoverable "Validation failed" fieldErrors none)) after
  | ended {s : Snapshot} {after : Server} (own : ∀ x, r.Cancels x → x = p.id)
      (last : s.finished = true) (alone : s.children = [])
      (left : ∀ q, q ∈ after.instances ↔
        q ∈ before.instances ∧ ¬ Descends before.instances p.id q.id) :
    Fulfilled before p r (.ok s) after
  | entered {s : Snapshot} {after : Server} (kept : ∀ x, ¬ r.Cancels x)
      (entered : after.IdsDistinct → Server.Entered before after p s s.children) :
    Fulfilled before p r (.ok s) after

/-- A request from the snapshot of a running process finds it, and goes back only where that is
possible. -/
theorem Answered.fulfilled {before after : Server} {r : Request}
    {result : Except ServiceError Snapshot} (answered : Answered before r result after)
    {o : ClientState V} (matching : Matches o r) {u : Snapshot} (current : o.current = some u)
    {p : Instance} (hp : p ∈ before.instances) (agrees : u.Agrees p) :
    Fulfilled before p r result after := by
  cases matching with
  | start d fresh => rw [fresh] at current; cases current
  | @«continue» t mode event v hv hid back =>
    obtain rfl : v = u := Option.some.inj (hv.symm.trans current)
    have htp : t.id = p.id := hid.trans agrees.id
    have same {q : Instance} (hq : q ∈ before.instances) (hqt : q.id = t.id) : q = p :=
      before.eq_of_id hq hp (hqt.trans htp)
    have kept (going : mode ≠ .cancel) : ∀ x, ¬ (Request.continue t mode event).Cancels x := by
      rintro x ⟨w, event', heq, -⟩
      obtain ⟨-, hmode, -⟩ := Request.continue.inj heq
      exact going hmode
    cases answered with
    | unknown _ _ _ missing => exact absurd htp.symm (missing p hp)
    | invalid _ _ _ _ fieldErrors hsame => exact .invalid fieldErrors (kept nofun) hsame
    | stuck _ _ hq hqt stuck =>
      obtain rfl := same hq hqt
      have hno := stuck v agrees
      rw [back rfl] at hno
      cases hno
    | ended _ _ _ hq hqt last alone left =>
      obtain rfl := same hq hqt
      refine .ended ?_ last alone left
      rintro x ⟨w, event', heq, rfl⟩
      obtain ⟨rfl, -, -⟩ := Request.continue.inj heq
      exact htp
    | entered _ _ _ hq hqt going entered =>
      obtain rfl := same hq hqt
      exact .entered (kept going) entered

end Stepwise
