/-
# Who leaves what behind

A step of one client can leave effects of many: of the client itself, and of the clients of new
children, which are named by places below it. Names tell the effects apart.

* `ClientId.Within` : one place is at or below another;
* `about` : the effects of one client;
* `map_id_births` : new children are numbered on;
* `about_spawnEffects_self`, `about_spawnEffects_of_within` : what the client itself leaves behind
  while the clients of new children take over, and what one of these does.
-/
import Stepwise.Proofs.Client.Reaction

namespace Stepwise

/-! ## Places -/

namespace ClientId

variable {a b c : ClientId} {m n : Nat}

/-- The second place is the first one or below it. -/
def Within (a b : ClientId) : Prop := a.place <+: b.place

theorem Within.refl (a : ClientId) : a.Within a := List.prefix_refl _

theorem Within.trans (hab : a.Within b) (hbc : b.Within c) : a.Within c := List.IsPrefix.trans hab hbc

theorem Within.antisymm (hab : a.Within b) (hba : b.Within a) : a = b :=
  congrArg ClientId.mk (hab.eq_of_length_le hba.length_le)

theorem within_child (a : ClientId) (n : Nat) : a.Within (a.child n) := List.prefix_append _ _

/-- No place is below a place below it. -/
theorem not_within_of_child (a : ClientId) (n : Nat) : ¬ (a.child n).Within a := by
  intro h
  have hlen := h.length_le
  simp only [child, List.length_append, List.length_singleton] at hlen
  omega

/-- Places below different children are different. -/
theorem eq_of_within (hm : (a.child m).Within c) (hn : (a.child n).Within c) : m = n := by
  obtain ⟨xs, hxs⟩ := hm
  obtain ⟨ys, hys⟩ := hn
  rw [← hys, child, child, List.append_assoc, List.append_assoc] at hxs
  have := List.append_cancel_left hxs
  exact (List.cons.inj this).1

/-- A place that lies at or below a child is that child, or lies at or below its parent. -/
theorem eq_or_within_of_child {a b : ClientId} (h : a.Within (b.child n)) :
    a = b.child n ∨ a.Within b := by
  rcases List.prefix_concat_iff.1 h with heq | hwithin
  · exact .inl (congrArg ClientId.mk heq)
  · exact .inr hwithin

/-- Children of different clients are different. -/
theorem eq_of_child_eq {a b : ClientId} (h : a.child m = b.child n) : a = b :=
  congrArg ClientId.mk (List.append_inj' (congrArg place h) rfl).1

/-- Of two places above a third one, one is above the other. -/
theorem Within.total {a b c : ClientId} (ha : a.Within c) (hb : b.Within c) :
    a.Within b ∨ b.Within a :=
  List.prefix_or_prefix_of_prefix ha hb

end ClientId

/-! ## The effects of one client -/

/-- The effects of one client. -/
def about (id : ClientId) (effects : List Effect) : List Effect :=
  effects.filter fun e => e.client = id

section About

variable {id : ClientId} {effects : List Effect}

@[simp] theorem about_append (id : ClientId) (xs ys : List Effect) :
    about id (xs ++ ys) = about id xs ++ about id ys := List.filter_append ..

theorem about_eq_self (h : ∀ e ∈ effects, e.client = id) : about id effects = effects :=
  List.filter_eq_self.2 fun e he => decide_eq_true (h e he)

theorem about_eq_nil (h : ∀ e ∈ effects, e.client ≠ id) : about id effects = [] :=
  List.filter_eq_nil_iff.2 fun e he hid => h e he (of_decide_eq_true hid)

end About

variable {V : Type} [ProcessView V] {ch : Channels}

@[simp] theorem about_callEffects_self (id : ClientId) (v : V) (calls : List ViewCall) :
    about id (callEffects id v calls) = callEffects id v calls :=
  about_eq_self fun _ he => client_of_mem_callEffects he

theorem about_callEffects {id other : ClientId} (h : other ≠ id) (v : V) (calls : List ViewCall) :
    about id (callEffects other v calls) = [] :=
  about_eq_nil fun e he => by rwa [client_of_mem_callEffects he]

/-! ## Nobody changes its name or its parent -/

theorem Concluded.named {starting previousFinal : Bool} {s : Snapshot} {o o' : ClientState V}
    {effects : List Effect} (h : Concluded ch starting previousFinal s o o' effects) :
    o'.id = o.id ∧ o'.parent = o.parent := by
  cases h <;> exact ⟨rfl, rfl⟩

theorem Received.named {s : Snapshot} {o o' : ClientState V} {effects : List Effect}
    (h : Received ch s o o' effects) : o'.id = o.id ∧ o'.parent = o.parent := by
  cases h with
  | closed => exact ⟨rfl, rfl⟩
  | cancelled => exact ⟨rfl, rfl⟩
  | concluded _ _ conclusion => exact conclusion.named

theorem Rejected.named {e : ServiceError} {o o' : ClientState V} {effects : List Effect}
    (h : Rejected ch o e o' effects) : o'.id = o.id ∧ o'.parent = o.parent := by
  cases h <;> exact ⟨rfl, rfl⟩

theorem Resumed.named {o o' : ClientState V} {x : Outcome} {effects : List Effect}
    (h : Resumed o x o' effects) : o'.id = o.id ∧ o'.parent = o.parent := by
  cases h <;> exact ⟨rfl, rfl⟩

/-- A client keeps its name and its parent. -/
theorem Reaction.named {o o' : ClientState V} {i : Stimulus}
    {r : Except ClientError (Option Outcome)} {own : List Effect} (h : Reaction ch o i r o' own) :
    o'.id = o.id ∧ o'.parent = o.parent := by
  cases h with
  | attached _ _ received => exact received.named
  | declinedResumed _ _ _ resumed => exact resumed.named
  | resumed resumed => exact resumed.named
  | received received => exact received.named
  | rejected rejected => exact rejected.named
  | _ => exact ⟨rfl, rfl⟩

theorem Stimulus.named_run (h : ch.dispatchOpen = true) (i : Stimulus) (c : Client V) :
    (i.act.run ch c).client.id = c.id ∧ (i.act.run ch c).client.parent = c.parent := by
  obtain ⟨o, kids⟩ := c
  obtain ⟨r, o', before, after, reaction, -, hrun⟩ := follows_run h i o kids
  rw [hrun]
  exact reaction.named

/-! ## New children -/

/-- Attaching leaves the same behind as the stimulus that makes a client attach. -/
theorem run_act_attach (h : ch.dispatchOpen = true) (s : Snapshot) {c : Client V}
    (idle : c.phase = .idle) :
    (Stimulus.action (.attach s)).act.run ch c =
      ⟨.ok none, ((Act.attach s).run ch c).client, ((Act.attach s).run ch c).effects⟩ := by
  obtain ⟨o, kids⟩ := c
  refine Act.run_none ?_
  rw [Act.run_attach ch s idle, Turn.after, Act.result_receive h]

theorem named_attach (h : ch.dispatchOpen = true) (s : Snapshot) {c : Client V}
    (idle : c.phase = .idle) :
    ((Act.attach s).run ch c).client.id = c.id ∧
      ((Act.attach s).run ch c).client.parent = c.parent := by
  have hnamed := Stimulus.named_run h (.action (.attach s)) c
  rwa [run_act_attach h s idle] at hnamed

theorem births_cons (o : ClientState V) (s : Snapshot) (rest : List Snapshot) :
    births ch o (s :: rest) =
      (Act.attach s).run ch (Act.newChild ⟨o, []⟩ (ProcessView.childPanel o.view s)) ::
        births ch (o.spawned [s]) rest := rfl

/-- The clients of new children are numbered on. -/
theorem map_id_births (h : ch.dispatchOpen = true) (o : ClientState V) (ss : List Snapshot) :
    (births ch o ss).map (·.client.id) = (List.range' o.opened ss.length).map o.id.child := by
  induction ss generalizing o with
  | nil => rfl
  | cons s rest ih =>
    rw [births_cons, List.map_cons, ih, List.length_cons, List.range'_succ, List.map_cons]
    rw [(named_attach h s rfl).1]
    rfl

/-- The client of a new child has a number that was not used before. -/
theorem number_of_mem_births (h : ch.dispatchOpen = true) {o : ClientState V} {ss : List Snapshot}
    {t : Turn V Unit} (ht : t ∈ births ch o ss) :
    ∃ n, o.opened ≤ n ∧ n < o.opened + ss.length ∧ t.client.id = o.id.child n := by
  have hmem : t.client.id ∈ (births ch o ss).map (·.client.id) := List.mem_map_of_mem ht
  rw [map_id_births h] at hmem
  obtain ⟨n, hn, hid⟩ := List.mem_map.1 hmem
  rw [List.mem_range'_1] at hn
  exact ⟨n, hn.1, hn.2, hid.symm⟩

/-- The client of a new child begins with a snapshot of the step. -/
theorem exists_of_mem_births {o : ClientState V} {ss : List Snapshot} {t : Turn V Unit}
    (ht : t ∈ births ch o ss) :
    ∃ s ∈ ss, ∃ n v, t = (Act.attach s).run ch (Act.newChild ⟨{ o with opened := n }, []⟩ v) := by
  induction ss generalizing o with
  | nil => cases ht
  | cons s rest ih =>
    rcases List.mem_cons.1 ht with rfl | ht
    · exact ⟨s, List.mem_cons_self, o.opened, _, rfl⟩
    · obtain ⟨u, hu, n, v, rfl⟩ := ih ht
      exact ⟨u, List.mem_cons_of_mem _ hu, n, v, rfl⟩

/-- The client of a new child knows its parent. -/
theorem parent_of_mem_births (h : ch.dispatchOpen = true) {o : ClientState V} {ss : List Snapshot}
    {t : Turn V Unit} (ht : t ∈ births ch o ss) : t.client.parent = some o.id := by
  obtain ⟨s, -, n, v, rfl⟩ := exists_of_mem_births ht
  exact (named_attach h s rfl).2

/-- What is left behind meanwhile is the client's own, or a new child's. -/
theorem mem_spawnEffects {o : ClientState V} {ss : List Snapshot} {e : Effect}
    (he : e ∈ spawnEffects ch o ss) :
    e.client = o.id ∨ ∃ t ∈ births ch o ss, e ∈ t.effects := by
  induction ss generalizing o with
  | nil => cases he
  | cons s rest ih =>
    rcases List.mem_append.1 he with he | he
    · rcases List.mem_append.1 he with he | he
      · exact .inl (client_of_mem_callEffects he)
      · exact .inr ⟨_, List.mem_cons_self, he⟩
    · rcases ih he with hid | ⟨t, ht, he⟩
      · exact .inl hid
      · exact .inr ⟨t, List.mem_cons_of_mem _ ht, he⟩

omit [ProcessView V] in
/-- The children whose clients take over are among those of the snapshot. -/
theorem Stimulus.offspring_attach {o : ClientState V} {s t : Snapshot}
    (ht : t ∈ Stimulus.offspring o (.action (.attach s))) : t ∈ s.children := by
  have hsub : ∀ o : ClientState V, t ∈ o.offspring s → t ∈ s.children := by
    intro o ht
    unfold ClientState.offspring at ht
    split at ht
    · cases ht
    · exact ht
  rw [offspring] at ht
  split at ht
  · exact hsub _ ht
  · cases ht

/-- What a step leaves behind is left by clients at the place of its client or below, if that is so
for the clients of new children. -/
theorem within_of_follows {o : ClientState V} {kids : List (Client V)} {i : Stimulus}
    {t : Turn V (Option Outcome)} (follows : i.Follows ch o kids t)
    (hbirths : ∀ u ∈ births ch o.awake (i.offspring o), ∀ e ∈ u.effects, o.id.Within e.client)
    {e : Effect} (he : e ∈ t.effects) : o.id.Within e.client := by
  obtain ⟨r, o', before, after, reaction, -, rfl⟩ := follows
  have hown : ∀ e ∈ before ++ after, e.client = o.id := fun e he => by
    refine reaction.client_of_mem ?_
    rcases List.mem_append.1 he with he | he
    · exact List.mem_append_left _ (List.mem_append_left _ he)
    · exact List.mem_append_right _ he
  rcases List.mem_append.1 he with he | he
  · rcases List.mem_append.1 he with he | he
    · rw [hown e (List.mem_append_left _ he)]
      exact .refl _
    · rcases mem_spawnEffects he with hid | ⟨u, hu, he⟩
      · rw [hid]
        exact .refl _
      · exact hbirths u hu e he
  · rw [hown e (List.mem_append_right _ he)]
    exact .refl _

/-- What the client of a new child leaves behind is left by clients at its place or below. -/
theorem within_attach (h : ch.dispatchOpen = true) (s : Snapshot) :
    ∀ c : Client V, c.phase = .idle → ∀ e ∈ ((Act.attach s).run ch c).effects,
      c.id.Within e.client := by
  induction s using Snapshot.forall_of_children with
  | h s ih =>
    rintro ⟨o, kids⟩ idle e he
    have follows := Stimulus.follows_run h (.action (.attach s)) o kids
    rw [run_act_attach h s idle] at follows
    refine within_of_follows follows (fun u hu e he => ?_) he
    obtain ⟨t, ht, n, v, rfl⟩ := exists_of_mem_births hu
    exact (ClientId.within_child o.id n).trans
      (ih t (Stimulus.offspring_attach ht) _ rfl e he)

/-- What the client of a new child leaves behind. -/
theorem within_of_mem_births (h : ch.dispatchOpen = true) {o : ClientState V} {ss : List Snapshot}
    {t : Turn V Unit} (ht : t ∈ births ch o ss) {e : Effect} (he : e ∈ t.effects) :
    t.client.id.Within e.client := by
  obtain ⟨s, -, n, v, rfl⟩ := exists_of_mem_births ht
  rw [(named_attach h s rfl).1]
  exact within_attach h s _ rfl e he

/-- What is left behind meanwhile is the client's own, or is left below a new child. -/
theorem place_of_mem_spawnEffects (h : ch.dispatchOpen = true) {o : ClientState V}
    {ss : List Snapshot} {e : Effect} (he : e ∈ spawnEffects ch o ss) :
    e.client = o.id ∨
      ∃ n, o.opened ≤ n ∧ n < o.opened + ss.length ∧ (o.id.child n).Within e.client := by
  rcases mem_spawnEffects he with hid | ⟨t, ht, he⟩
  · exact .inl hid
  · obtain ⟨n, hle, hlt, hid⟩ := number_of_mem_births h ht
    exact .inr ⟨n, hle, hlt, hid ▸ within_of_mem_births h ht he⟩

/-- The client itself only opens panels meanwhile. -/
theorem about_spawnEffects_self (h : ch.dispatchOpen = true) (o : ClientState V)
    (ss : List Snapshot) :
    about o.id (spawnEffects ch o ss) = callEffects o.id o.view (ss.map .openChild) := by
  induction ss generalizing o with
  | nil => rfl
  | cons s rest ih =>
    have hbirth : about o.id ((Act.attach s).run ch
        (Act.newChild ⟨o, []⟩ (ProcessView.childPanel o.view s))).effects = [] := by
      apply about_eq_nil
      intro e he hid
      have hwithin := within_attach h s _ rfl e he
      rw [hid] at hwithin
      exact ClientId.not_within_of_child o.id o.opened hwithin
    rw [spawnEffects, about_append, about_append, about_callEffects_self, hbirth, List.append_nil]
    have hrest : about o.id (spawnEffects ch (o.spawned [s]) rest) =
        callEffects o.id (o.spawned [s]).view (rest.map .openChild) := ih (o.spawned [s])
    rw [hrest, List.map_cons, ← List.singleton_append, callEffects_append]
    rfl

/-- A client at or below a new child leaves behind what it leaves while that child takes over. -/
theorem about_spawnEffects_of_within (h : ch.dispatchOpen = true) {o : ClientState V}
    {ss : List Snapshot} {t : Turn V Unit} (ht : t ∈ births ch o ss) {id : ClientId}
    (hid : t.client.id.Within id) : about id (spawnEffects ch o ss) = about id t.effects := by
  induction ss generalizing o with
  | nil => cases ht
  | cons s rest ih =>
    obtain ⟨n, -, -, hn⟩ := number_of_mem_births h ht
    have hne : o.id ≠ id := by
      rintro rfl
      rw [hn] at hid
      exact ClientId.not_within_of_child _ _ hid
    rw [spawnEffects, about_append, about_append, about_callEffects hne, List.nil_append]
    -- effects of different children lie below different places
    have hother : ∀ {m : Nat} {effects : List Effect}, m ≠ n →
        (∀ e ∈ effects, (o.id.child m).Within e.client) → about id effects = [] := by
      intro m effects hmn hwithin
      refine about_eq_nil fun e he heq => hmn ?_
      have := hwithin e he
      rw [heq] at this
      exact ClientId.eq_of_within this (hn ▸ hid)
    rcases List.mem_cons.1 ht with rfl | ht
    · have hrest : about id (spawnEffects ch (o.spawned [s]) rest) = [] := by
        apply about_eq_nil
        intro e he heq
        rcases place_of_mem_spawnEffects h he with hown | ⟨m, hle, -, hm⟩
        · exact hne (hown.symm.trans heq)
        · rw [heq] at hm
          have hopened : n = o.opened := by
            rw [(named_attach h s rfl).1] at hn
            exact (o.id.child_injective hn).symm
          have : o.opened + 1 ≤ m := hle
          have := ClientId.eq_of_within hm (hn ▸ hid)
          omega
      rw [hrest, List.append_nil]
    · obtain ⟨m, hle, -, hm⟩ := number_of_mem_births h ht
      have hle' : o.opened + 1 ≤ m := hle
      have hmn : m = n := o.id.child_injective (hm.symm.trans hn)
      rw [hother (m := o.opened) (by omega) fun e he => within_attach h s _ rfl e he, List.nil_append]
      exact ih ht

end Stepwise
