/-
# Clients and the processes of a server

A tree of clients mirrors a server if the snapshot of every client shows the step of a process that
runs, and the process of a child was spawned by that of its parent.

* `Client.keys` : the processes that a tree of clients knows;
* `Mirrored` : the clients of a tree mirror processes of a server;
* `Exchanged.split` : an exchange leaves the mirror images of all other clients;
* `Mirrored.descends`, `Mirrored.above` : descent of processes is descent of clients.
-/
import Stepwise.Proofs.Client.Exchange
import Stepwise.Proofs.Server.Answering

namespace Stepwise

variable {V : Type}

/-- The process of a client, if it knows one. -/
def ClientState.key (o : ClientState V) : Option Uuid := o.current.map (·.id)

/-- The processes that clients know. -/
def keysOf (ps : List (ClientState V)) : List Uuid := ps.filterMap ClientState.key

/-- The processes that the clients of a tree know. -/
def Client.keys (c : Client V) : List Uuid := keysOf c.states

/-- The client, and those below it, mirror processes: each has the snapshot of a process that runs, and
its children those of processes spawned by it. -/
inductive Mirrored (instances : List Instance) : Option Uuid → Client V → Prop where
  | mk {parent : Option Uuid} {o : ClientState V} {kids : List (Client V)} {s : Snapshot}
      {p : Instance} (current : o.current = some s) (running : p ∈ instances) (agrees : s.Agrees p)
      (hparent : p.parent = parent) (children : ∀ k ∈ kids, Mirrored instances (some s.id) k) :
    Mirrored instances parent ⟨o, kids⟩

theorem keysOf_append (ps qs : List (ClientState V)) :
    keysOf (ps ++ qs) = keysOf ps ++ keysOf qs := List.filterMap_append ..

theorem mem_keysOf {ps : List (ClientState V)} {x : Uuid} :
    x ∈ keysOf ps ↔ ∃ o ∈ ps, ∃ s, o.current = some s ∧ s.id = x := by
  simp [keysOf, ClientState.key]

theorem keysOf_cons {o : ClientState V} {s : Snapshot} (current : o.current = some s)
    (ps : List (ClientState V)) : keysOf (o :: ps) = s.id :: keysOf ps := by
  simp [keysOf, ClientState.key, current]

/-- The first of the processes of a tree is that of its top. -/
theorem Client.keys_mk {o : ClientState V} {s : Snapshot} (current : o.current = some s)
    (kids : List (Client V)) : keys ⟨o, kids⟩ = s.id :: keysOf (kids.flatMap states) := by
  rw [keys, states_mk, keysOf_cons current]

/-- Processes of a child are processes of the client. -/
theorem Client.keys_child {o : ClientState V} {kids : List (Client V)} {k : Client V} (hk : k ∈ kids)
    {x : Uuid} (hx : x ∈ k.keys) : x ∈ keys ⟨o, kids⟩ := by
  obtain ⟨p, hp, hkey⟩ := mem_keysOf.1 hx
  exact mem_keysOf.2 ⟨p, mem_states_mk.2 (.inr ⟨k, hk, hp⟩), hkey⟩

/-- Of clients that know different processes, one knows a given process. -/
theorem eq_of_key {ks : List (Client V)} (distinct : (keysOf (ks.flatMap Client.states)).Nodup)
    {c d : Client V} (hc : c ∈ ks.flatMap Client.members) (hd : d ∈ ks.flatMap Client.members)
    {x : Uuid} (hcx : c.key = some x) (hdx : d.key = some x) : c = d := by
  have hmap : keysOf (ks.flatMap Client.states) =
      (ks.flatMap Client.members).filterMap fun c => c.key := by
    have hstates : ks.flatMap Client.states = (ks.flatMap Client.members).map (·.toClientState) := by
      rw [List.map_flatMap]
      rfl
    rw [keysOf, hstates, List.filterMap_map]
    rfl
  rw [hmap, List.Nodup, List.pairwise_filterMap] at distinct
  have hinj : (ks.flatMap Client.members).Pairwise fun c d =>
      c.key = some x → d.key = some x → c = d :=
    distinct.imp fun hne hcx hdx => absurd rfl (hne x hcx x hdx)
  have hflip : (ks.flatMap Client.members).Pairwise (flip fun c d =>
      c.key = some x → d.key = some x → c = d) :=
    distinct.imp fun hne hdx hcx => absurd rfl (hne x hcx x hdx)
  exact hinj.forall_of_forall_of_flip (fun _ _ _ _ => rfl) hflip hc hd hcx hdx

namespace Mirrored

variable {instances others : List Instance} {parent : Option Uuid} {c : Client V}

/-- Only the processes that the clients know matter. -/
theorem mono (h : Mirrored instances parent c)
    (sub : ∀ p ∈ instances, p.id ∈ c.keys → p ∈ others) : Mirrored others parent c := by
  induction h with
  | @mk parent o kids s p current running agrees hparent children ih =>
    refine .mk current (sub p running ?_) agrees hparent fun k hk =>
      ih k hk fun q hq hid => sub q hq (Client.keys_child hk hid)
    rw [Client.keys_mk current, ← agrees.id]
    exact List.mem_cons_self

/-- Clients that are among others mirror what those leave. -/
theorem beside (h : Mirrored instances parent c) {rest : List (ClientState V)}
    (sub : ∀ p ∈ c.states, p ∈ rest) (frame : ∀ p ∈ instances, p.id ∈ keysOf rest → p ∈ others) :
    Mirrored others parent c :=
  h.mono fun p hp hid => by
    obtain ⟨q, hq, hkey⟩ := mem_keysOf.1 hid
    exact frame p hp (mem_keysOf.2 ⟨q, sub q hq, hkey⟩)

/-- Every process that the clients know runs. -/
theorem running (h : Mirrored instances parent c) {x : Uuid} (hx : x ∈ c.keys) :
    x ∈ instances.map (·.id) := by
  induction h with
  | @mk parent o kids s p current running agrees hparent children ih =>
    rw [Client.keys_mk current] at hx
    rcases List.mem_cons.1 hx with rfl | hx
    · rw [agrees.id]
      exact List.mem_map_of_mem running
    · obtain ⟨q, hq, hkey⟩ := mem_keysOf.1 hx
      obtain ⟨k, hk, hq⟩ := List.mem_flatMap.1 hq
      exact ih k hk (mem_keysOf.2 ⟨q, hq, hkey⟩)

/-- Every client has the snapshot of a process, which was spawned by that of its holder. -/
theorem process (h : Mirrored instances parent c) {d : Client V} (hd : d ∈ c.members) :
    ∃ s p, d.current = some s ∧ p ∈ instances ∧ s.Agrees p ∧
      (d = c ∧ p.parent = parent ∨ ∃ e ∈ c.members, d ∈ e.children ∧ p.parent = e.key) := by
  induction h with
  | @mk parent o kids s p current running agrees hparent children ih =>
    rcases Client.mem_members_mk.1 hd with rfl | ⟨k, hk, hd⟩
    · exact ⟨s, p, current, running, agrees, .inl ⟨rfl, hparent⟩⟩
    · obtain ⟨t, q, ht, hq, agreesT, hplace⟩ := ih k hk hd
      refine ⟨t, q, ht, hq, agreesT, .inr ?_⟩
      rcases hplace with ⟨rfl, hqp⟩ | ⟨e, he, hde, hqp⟩
      · refine ⟨_, Client.mem_members_self _, hk, hqp.trans ?_⟩
        show _ = o.current.map (·.id)
        rw [current, Option.map_some]
      · exact ⟨e, Client.mem_members_mk.2 (.inr ⟨k, hk, he⟩), hde, hqp⟩

/-- Every process that the clients know descends from that of the top. -/
theorem descends (h : Mirrored instances parent c) {s : Snapshot} (current : c.current = some s)
    {x : Uuid} (hx : x ∈ c.keys) : Descends instances s.id x := by
  induction h generalizing s with
  | @mk parent o kids s' p current' running agrees hparent children ih =>
    obtain rfl : s' = s := Option.some.inj (current'.symm.trans current)
    rw [Client.keys_mk current'] at hx
    rcases List.mem_cons.1 hx with rfl | hx
    · exact .self
    · obtain ⟨q, hq, hkey⟩ := mem_keysOf.1 hx
      obtain ⟨k, hk, hq⟩ := List.mem_flatMap.1 hq
      cases children k hk with
      | @mk _ r _ u w currentK runningK agreesK hparentK =>
        refine Descends.trans ?_ (ih _ hk currentK (mem_keysOf.2 ⟨q, hq, hkey⟩))
        rw [agreesK.id]
        exact .link runningK hparentK .self

/-- From which processes those of the clients descend: from those of clients above them, or from that
which has spawned the process of the top. -/
theorem above {server : Server} (h : Mirrored server.instances parent c) {a x : Uuid}
    (hx : x ∈ c.keys) (hdesc : Descends server.instances a x) :
    (∃ d ∈ c.members, d.key = some a ∧ x ∈ d.keys) ∨
      ∃ y, parent = some y ∧ Descends server.instances a y := by
  induction h with
  | @mk parent o kids s p current running agrees hparent children ih =>
    have top : ∀ {x : Uuid}, x ∈ Client.keys ⟨o, kids⟩ → Descends server.instances a s.id →
        (∃ d ∈ Client.members ⟨o, kids⟩, d.key = some a ∧ x ∈ d.keys) ∨
          ∃ y, parent = some y ∧ Descends server.instances a y := by
      intro x hx hdesc
      rw [agrees.id] at hdesc
      rcases hdesc.cases_of_mem running with rfl | ⟨y, hy, hdesc⟩
      · refine .inl ⟨_, Client.mem_members_self _, ?_, hx⟩
        show o.current.map (·.id) = _
        rw [current, Option.map_some, agrees.id]
      · exact .inr ⟨y, hparent.symm.trans hy, hdesc⟩
    have hall := hx
    rw [Client.keys_mk current] at hx
    rcases List.mem_cons.1 hx with rfl | hx
    · exact top hall hdesc
    · obtain ⟨q, hq, hkey⟩ := mem_keysOf.1 hx
      obtain ⟨k, hk, hq⟩ := List.mem_flatMap.1 hq
      rcases ih k hk (mem_keysOf.2 ⟨q, hq, hkey⟩) with ⟨d, hd, hda, hxd⟩ | ⟨y, hy, hdesc⟩
      · exact .inl ⟨d, Client.mem_members_mk.2 (.inr ⟨k, hk, hd⟩), hda, hxd⟩
      · obtain rfl := Option.some.inj hy
        exact top hall hdesc

end Mirrored

/-- An exchange leaves all other clients, and with them their mirror images. -/
theorem Exchanged.split {c : Client V} {new ks ks' : List (Client V)} (h : Exchanged c new ks ks') :
    ∃ rest : List (ClientState V), (ks.flatMap Client.states).Perm (c.states ++ rest) ∧
      (ks'.flatMap Client.states).Perm (new.flatMap Client.states ++ rest) ∧
      ∀ {instances : List Instance} (others : List Instance) {parent : Option Uuid},
        (∀ k ∈ ks, Mirrored instances parent k) →
        ∃ par, Mirrored instances par c ∧
          ((∀ k ∈ new, Mirrored others par k) →
            (∀ p ∈ instances, p.id ∈ keysOf rest → p ∈ others) →
            ∀ k ∈ ks', Mirrored others parent k) := by
  induction h with
  | here older younger =>
    refine ⟨older.flatMap Client.states ++ younger.flatMap Client.states, ?_, ?_, ?_⟩
    · rw [List.flatMap_append, List.flatMap_cons]
      exact List.perm_append_comm_assoc _ _ _
    · rw [List.flatMap_append, List.flatMap_append, List.append_assoc]
      exact List.perm_append_comm_assoc _ _ _
    · intro instances others parent mirrored
      refine ⟨parent, mirrored c (by simp), fun hnew frame k hk => ?_⟩
      rw [List.append_assoc, List.mem_append, List.mem_append] at hk
      rcases hk with hk | hk | hk
      · exact (mirrored k (by simp [hk])).beside
          (fun p hp => List.mem_append_left _ (List.mem_flatMap.2 ⟨k, hk, hp⟩)) frame
      · exact hnew k hk
      · exact (mirrored k (by simp [hk])).beside
          (fun p hp => List.mem_append_right _ (List.mem_flatMap.2 ⟨k, hk, hp⟩)) frame
  | @under older younger o kids kids' step ih =>
    obtain ⟨rest, hbefore, hafter, hmirror⟩ := ih
    -- the client above and the trees beside it join what is left
    have shift : ∀ {kids : List (Client V)} {middle : List (ClientState V)},
        (kids.flatMap Client.states).Perm (middle ++ rest) →
        ((older ++ ⟨o, kids⟩ :: younger).flatMap Client.states).Perm
          (middle ++ (older.flatMap Client.states ++ (o :: rest ++ younger.flatMap Client.states))) := by
      intro kids middle hkids
      have hmove := List.perm_append_comm_assoc (older.flatMap Client.states ++ [o]) middle
        (rest ++ younger.flatMap Client.states)
      rw [List.flatMap_append, List.flatMap_cons, Client.states_mk]
      refine List.Perm.trans ?_ (hmove.trans (by simp))
      simpa using ((hkids.append_right _).cons o).append_left (older.flatMap Client.states)
    refine ⟨older.flatMap Client.states ++ (o :: rest ++ younger.flatMap Client.states),
      shift hbefore, shift hafter, ?_⟩
    intro instances others parent mirrored
    cases mirrored ⟨o, kids⟩ (by simp) with
    | @mk _ _ _ s p current running agrees hparent children =>
      obtain ⟨par, hc, hback⟩ := hmirror others children
      refine ⟨par, hc, fun hnew frame k hk => ?_⟩
      -- the client above shows what it showed, and its process was kept as it is among what is left
      rcases List.mem_append.1 hk with hk | hk
      · exact (mirrored k (by simp [hk])).beside
          (fun q hq => List.mem_append_left _ (List.mem_flatMap.2 ⟨k, hk, hq⟩)) frame
      · rcases List.mem_cons.1 hk with rfl | hk
        · refine .mk current (frame p running ?_) agrees hparent
            (hback hnew fun q hq hid => frame q hq ?_)
          · exact mem_keysOf.2 ⟨o, by simp, s, current, agrees.id⟩
          · obtain ⟨r, hr, hkey⟩ := mem_keysOf.1 hid
            exact mem_keysOf.2 ⟨r, by simp [hr], hkey⟩
        · refine (mirrored k (by simp [hk])).beside (fun q hq => ?_) frame
          exact List.mem_append_right _ (List.mem_append_right _ (List.mem_flatMap.2 ⟨k, hk, hq⟩))

end Stepwise
