/-
# Responses of unrelated processes commute

Two responses come, each for a client of its own, and neither of the two clients holds the other. Whichever
comes first, each of them does what it would do alone. Clients are named by places, so not even the names
of new children tell in which order the responses came.

* `Act.route_child` : a response goes on to the child below which its client lies;
* `Act.route_apart` : responses that go on to different children;
* `Act.route_comm` : responses for unrelated clients, by induction on the tree that holds both;
* `responses_commute` : what can be seen of it from outside.
-/
import Stepwise.Proofs.Client.Drawing
import Stepwise.Proofs.Client.Routing

namespace Stepwise

variable {V : Type}

/-! ## Steps that go on to a child -/

section Child

variable {α : Type} {id : ClientId} {act : Act V α} {ch : Channels} {o : ClientState V}
  {older younger : List (Client V)} {k : Client V} {t : Turn V α}

/-- The client, as a child that is let go if its process is over. -/
def Client.kept (c : Client V) : List (Client V) := if c.stays then [c] else []

/-- Of several trees the first one with the name takes the step. -/
theorem Client.actAtAny_middle (younger : List (Client V))
    (strangers : ∀ x ∈ older, ∀ p ∈ x.states, p.id ≠ id) (hk : k.actAt id stays act ch = some t) :
    actAtAny id stays act ch (older ++ k :: younger) =
      some (t.result, older ++ (t.client.kept ++ younger), t.effects) := by
  induction older with
  | nil =>
    rw [List.nil_append, actAtAny, hk, List.nil_append, kept]
    cases stay : t.client.stays with
    | true => simp [stay]
    | false => simp [stay]
  | cons x older ih =>
    have hx : x.actAt id stays act ch = none :=
      actAt_eq_none_iff.2 (strangers x List.mem_cons_self)
    rw [List.cons_append, actAtAny, hx,
      ih fun y hy => strangers y (List.mem_cons_of_mem _ hy)]
    rfl

end Child

/-! ## Responses -/

section Responses

variable [ProcessView V] {ch : Channels} {tree a b : Client V} {o : ClientState V}
  {older younger : List (Client V)} {k : Client V} {id : ClientId}
  {result ra rb : Except ServiceError Snapshot}

/-- The turn of a tree that is given a response. -/
def Client.given (tree : Client V) (ch : Channels) (id : ClientId)
    (result : Except ServiceError Snapshot) : Turn V Unit := (Act.route id result).run ch tree

/-- A response goes on to the child below which its client lies. -/
theorem Client.given_child (ch : Channels) (result : Except ServiceError Snapshot)
    {kids : List (Client V)} (hkids : kids = older ++ k :: younger) (placed : WellPlaced ⟨o, kids⟩)
    (inside : ∃ p ∈ k.states, p.id = id) :
    Client.given ⟨o, kids⟩ ch id result =
      ⟨(k.given ch id result).result,
        ⟨o, older ++ ((k.given ch id result).client.kept ++ younger)⟩,
        (k.given ch id result).effects⟩ := by
  subst hkids
  obtain ⟨top, below⟩ := wellPlaced_mk.1 placed
  obtain ⟨p, hp, rfl⟩ := inside
  have hkp : k.id.Within p.id := (below k (by simp)).within hp
  -- nobody else has the name
  have strangers {q : ClientState V} (hq : q ∈ states ⟨o, older ++ younger⟩) : q.id ≠ p.id :=
    fun heq => placed.apart hkp hq (heq ▸ .refl _)
  cases hat : k.actAt p.id stays (Act.respond result) ch with
  | none => exact absurd rfl (actAt_eq_none_iff.1 hat p hp)
  | some t =>
    have hgiven : k.given ch p.id result = t := by
      show (k.actAt p.id stays (Act.respond result) ch).getD _ = t
      rw [hat]
      rfl
    have hany := actAtAny_middle younger
      (fun x hx q hq => strangers (mem_states_mk.2 (.inr ⟨x, List.mem_append_left _ hx, hq⟩))) hat
    show (actAt p.id stays (Act.respond result) ch ⟨o, older ++ k :: younger⟩).getD _ = _
    rw [actAt, if_neg (strangers (mem_states_self _)), hany, hgiven]
    rfl

/-- A response leaves traces of its client, and of clients below it. -/
theorem Client.Orderly.within_of_mem_given {e : Effect} (orderly : tree.Orderly)
    (he : e ∈ (tree.given ch id result).effects) : id.Within e.client := by
  rw [given] at he
  cases found : tree.find? id with
  | none =>
    rw [Act.route_of_stranger (find?_eq_none_iff.1 found)] at he
    cases he
  | some c =>
    obtain ⟨path, -, rfl, hrun⟩ := Act.route_of_found ch result orderly found
    rw [hrun] at he
    exact (Act.Displays.respond result ch c rfl).within e he

/-! ## Two responses -/

/-- Two responses do the same in either order: each has the result that it has alone and leaves the same
behind, and the tree is the same in the end. -/
def Client.Commutes (tree : Client V) (ch : Channels) (ia ib : ClientId)
    (ra rb : Except ServiceError Snapshot) : Prop :=
  ∃ final,
    (tree.given ch ia ra).client.given ch ib rb =
      ⟨(tree.given ch ib rb).result, final, (tree.given ch ib rb).effects⟩ ∧
    (tree.given ch ib rb).client.given ch ia ra =
      ⟨(tree.given ch ia ra).result, final, (tree.given ch ia ra).effects⟩

theorem Client.Commutes.symm {ia ib : ClientId} (h : tree.Commutes ch ia ib ra rb) :
    tree.Commutes ch ib ia rb ra := by
  obtain ⟨final, hab, hba⟩ := h
  exact ⟨final, hba, hab⟩

/-- Responses that go on to different children commute. -/
theorem Client.Orderly.commutes_apart {between : List (Client V)} {l : Client V} {ia ib : ClientId}
    (orderly : Orderly ⟨o, older ++ k :: (between ++ l :: younger)⟩)
    (hk : ∃ p ∈ k.states, p.id = ia) (hl : ∃ p ∈ l.states, p.id = ib) :
    Client.Commutes ⟨o, older ++ k :: (between ++ l :: younger)⟩ ch ia ib ra rb := by
  -- what the children are before the one response or the other, read from the left and from the right
  have hfirst := given_child ch ra rfl orderly.placed hk
  have hsecond := given_child ch rb
    (show older ++ k :: (between ++ l :: younger) = (older ++ k :: between) ++ l :: younger by simp)
    orderly.placed hl
  have placed := (orderly.route ch ia ra).placed
  have placed' := (orderly.route ch ib rb).placed
  rw [← given, hfirst] at placed
  rw [← given, hsecond] at placed'
  have hsecond' := given_child ch rb
    (show older ++ ((k.given ch ia ra).client.kept ++ (between ++ l :: younger)) =
      (older ++ ((k.given ch ia ra).client.kept ++ between)) ++ l :: younger by simp) placed hl
  have hfirst' := given_child ch ra
    (show (older ++ k :: between) ++ ((l.given ch ib rb).client.kept ++ younger) =
      older ++ k :: (between ++ ((l.given ch ib rb).client.kept ++ younger)) by simp) placed' hk
  refine ⟨⟨o, older ++ ((k.given ch ia ra).client.kept ++
    (between ++ ((l.given ch ib rb).client.kept ++ younger)))⟩, ?_, ?_⟩
  · rw [hfirst, hsecond', hsecond]
    simp
  · rw [hsecond, hfirst', hfirst]

omit [ProcessView V] in
/-- Whoever lies at the place of a client or below it is held by it. -/
theorem Client.WellPlaced.mem_members_of_within (placed : tree.WellPlaced) (ha : a ∈ tree.members)
    (hb : b ∈ tree.members) (hwithin : a.id.Within b.id) : b ∈ a.members := by
  obtain ⟨c, hc, hstate⟩ :=
    List.mem_map.1 (placed.mem_of_within ha (List.mem_map_of_mem hb) hwithin)
  rwa [← placed.eq_of_id (members_trans ha hc) hb (congrArg ClientState.id hstate)]

/-- A client for which a response is not stays as it is. -/
theorem Client.toClientState_given (other : tree.id ≠ id) :
    (tree.given ch id result).client.toClientState = tree.toClientState := by
  rw [given]
  rcases Act.route_spec id result ch tree with ⟨-, hrun⟩ | step
  · rw [hrun]
  · exact step.top_of_ne other

/-- Two responses that go on to the same child do in the tree what they do below that child. -/
theorem Client.Orderly.given_below (orderly : Orderly ⟨o, older ++ k :: younger⟩)
    (ha : a ∈ k.members) (hb : b ∈ k.members) (hab : b ∉ a.members) {final : Client V}
    (hbelow : (k.given ch a.id ra).client.given ch b.id rb =
      ⟨(k.given ch b.id rb).result, final, (k.given ch b.id rb).effects⟩) :
    (Client.given ⟨o, older ++ k :: younger⟩ ch a.id ra).client.given ch b.id rb =
      ⟨(Client.given ⟨o, older ++ k :: younger⟩ ch b.id rb).result,
        ⟨o, older ++ (final.kept ++ younger)⟩,
        (Client.given ⟨o, older ++ k :: younger⟩ ch b.id rb).effects⟩ := by
  have hk : k ∈ older ++ k :: younger := by simp
  have inside := orderly.of_mem (mem_members_mk.2 (.inr ⟨k, hk, k.mem_members_self⟩))
  have hina : ∃ p ∈ k.states, p.id = a.id := ⟨_, List.mem_map_of_mem ha, rfl⟩
  have hinb : ∃ p ∈ k.states, p.id = b.id := ⟨_, List.mem_map_of_mem hb, rfl⟩
  -- the child holds both, so it is not the one that takes the first response, and it stays
  have other : k.id ≠ a.id := fun heq => by
    rw [inside.placed.eq_of_id k.mem_members_self ha heq] at hb
    exact hab hb
  have stay : (k.given ch a.id ra).client.kept = [(k.given ch a.id ra).client] := by
    have hne : k.id ≠ o.id := fun heq => by
      have within := orderly.placed.apart (.refl k.id) (mem_states_self ⟨o, older ++ younger⟩)
      exact within (heq ▸ .refl _)
    have going := (orderly.alive _ (mem_states_middle.2 (.inl k.mem_states_self)) hne).going
    rw [kept, stays, toClientState_given other, going]
    rfl
  -- the first response leaves the second client where it is
  have hinb' : ∃ p ∈ (k.given ch a.id ra).client.states, p.id = b.id := by
    obtain ⟨p, hp, hid⟩ := hinb
    refine ⟨p, (inside.mem_states_route fun hwithin => hab ?_).2 hp, hid⟩
    exact inside.placed.mem_members_of_within ha hb (hid ▸ hwithin)
  have hfirst := given_child ch ra rfl orderly.placed hina
  have placed := (orderly.route ch a.id ra).placed
  rw [← given, hfirst] at placed
  rw [stay, List.singleton_append] at hfirst placed
  rw [hfirst, given_child ch rb rfl placed hinb', hbelow, given_child ch rb rfl orderly.placed hinb]

/-- Responses for two clients commute if neither of the clients holds the other. -/
theorem Client.Orderly.commutes (ch : Channels) (ra rb : Except ServiceError Snapshot)
    (orderly : tree.Orderly) (ha : a ∈ tree.members) (hb : b ∈ tree.members)
    (hab : b ∉ a.members) (hba : a ∉ b.members) : tree.Commutes ch a.id b.id ra rb := by
  induction tree using forall_of_children with
  | h o kids ih =>
    -- the top holds everybody, so it is neither of the two
    obtain ⟨k, hk, ha'⟩ : ∃ k ∈ kids, a ∈ k.members := by
      rcases mem_members_mk.1 ha with rfl | h
      · exact absurd hb hab
      · exact h
    obtain ⟨l, hl, hb'⟩ : ∃ l ∈ kids, b ∈ l.members := by
      rcases mem_members_mk.1 hb with rfl | h
      · exact absurd ha hba
      · exact h
    have hina : ∃ p ∈ k.states, p.id = a.id := ⟨_, List.mem_map_of_mem ha', rfl⟩
    have hinb : ∃ p ∈ l.states, p.id = b.id := ⟨_, List.mem_map_of_mem hb', rfl⟩
    by_cases same : k = l
    · subst same
      have inside := orderly.of_mem (mem_members_mk.2 (.inr ⟨k, hk, k.mem_members_self⟩))
      obtain ⟨final, hfirst, hsecond⟩ := ih k hk inside ha' hb'
      obtain ⟨older, younger, rfl⟩ := List.append_of_mem hk
      exact ⟨_, orderly.given_below ha' hb' hab hfirst, orderly.given_below hb' ha' hba hsecond⟩
    · obtain ⟨older, younger, rfl⟩ := List.append_of_mem hk
      rcases List.mem_append.1 hl with hl | hl
      · obtain ⟨oldest, between, rfl⟩ := List.append_of_mem hl
        rw [List.append_assoc, List.cons_append] at orderly ⊢
        exact (orderly.commutes_apart hinb hina).symm
      · obtain ⟨between, youngest, rfl⟩ :=
          List.append_of_mem ((List.mem_cons.1 hl).resolve_left (Ne.symm same))
        exact orderly.commutes_apart hina hinb

/-! ## Two orders -/

/-- **Responses of unrelated processes commute.** At every point of the course of a tree, two responses
for clients of which neither holds the other can come in either order: the tree is the same in the end,
each response has the same result, and every client leaves the same behind, requests, events and calls to
its panel, in the same order. -/
theorem responses_commute (course : TreeCourse tree) (ha : a ∈ tree.members) (hb : b ∈ tree.members)
    (hab : b ∉ a.members) (hba : a ∉ b.members) (ch : Channels)
    (ra rb : Except ServiceError Snapshot) :
    ((tree.given ch a.id ra).client.given ch b.id rb).client =
      ((tree.given ch b.id rb).client.given ch a.id ra).client ∧
    (tree.given ch a.id ra).result = ((tree.given ch b.id rb).client.given ch a.id ra).result ∧
    ((tree.given ch a.id ra).client.given ch b.id rb).result = (tree.given ch b.id rb).result ∧
    ∀ id, about id ((tree.given ch a.id ra).effects ++
        ((tree.given ch a.id ra).client.given ch b.id rb).effects) =
      about id ((tree.given ch b.id rb).effects ++
        ((tree.given ch b.id rb).client.given ch a.id ra).effects) := by
  have orderly := course.orderly
  obtain ⟨final, hfirst, hsecond⟩ := orderly.commutes ch ra rb ha hb hab hba
  rw [hfirst, hsecond]
  refine ⟨rfl, rfl, rfl, fun id => ?_⟩
  rw [about_append, about_append]
  -- of the two responses only one can leave traces of one and the same client
  by_cases hwithin : a.id.Within id
  · have hnone : about id (tree.given ch b.id rb).effects = [] := about_eq_nil fun e he heq => by
      have hwithin' := orderly.within_of_mem_given he
      rw [heq] at hwithin'
      rcases hwithin.total hwithin' with h | h
      · exact hab (orderly.placed.mem_members_of_within ha hb h)
      · exact hba (orderly.placed.mem_members_of_within hb ha h)
    rw [hnone, List.append_nil, List.nil_append]
  · have hnone : about id (tree.given ch a.id ra).effects = [] := about_eq_nil fun e he heq =>
      hwithin (heq ▸ orderly.within_of_mem_given he)
    rw [hnone, List.append_nil, List.nil_append]

end Responses

/-- A step of an order with two items, each of which goes on by itself. -/
def orderWithItems : Snapshot :=
  { Snapshot.ofStep .nil "Order" "Items" with
    children := [{ Snapshot.ofStep .nil "Item" "Pick" with autoContinue := true },
      { Snapshot.ofStep .nil "Item" "Pack" with autoContinue := true }] }

/-- The first item ends, and the step of the second one has an item of its own, in either order. -/
theorem responses_commute_items :
    ∃ tree a b : Client Recording, TreeCourse tree ∧ tree.children = [a, b] ∧
      ((tree.given .open a.id (.error (.unrecoverable "Gone" none))).client.given .open b.id
          (.ok orderWithItem)).client =
        ((tree.given .open b.id (.ok orderWithItem)).client.given .open a.id
          (.error (.unrecoverable "Gone" none))).client ∧
      ((tree.given .open b.id (.ok orderWithItem)).client.given .open a.id
          (.error (.unrecoverable "Gone" none))).client.members.map (·.id) =
        [.root 0, (ClientId.root 0).child 1, ((ClientId.root 0).child 1).child 0] := by
  have started := (@TreeRun.start Recording _ .open
    ((Client.idle (.root 0) Recording.empty).withAutoContinue true)).act (.root 0)
    (.start ⟨"Order", none, "en-US", .none⟩) rfl
  have course : TreeCourse _ :=
    (@TreeRun.respond Recording _ .open _ _ [] [] _ _ started (.ok orderWithItems) _ rfl).course
  refine ⟨_, _, _, course, rfl, ?_, rfl⟩
  have hdistinct : (ClientId.root 0).child 0 ≠ (ClientId.root 0).child 1 := by decide
  refine (responses_commute course (List.mem_cons_of_mem _ List.mem_cons_self)
    (List.mem_cons_of_mem _ (List.mem_cons_of_mem _ List.mem_cons_self)) (fun hmem => ?_)
    (fun hmem => ?_) .open _ _).1
  · exact hdistinct (congrArg (·.id) (List.mem_singleton.1 hmem)).symm
  · exact hdistinct (congrArg (·.id) (List.mem_singleton.1 hmem))

end Stepwise
