/-
# How clients leave their tree

Nobody leaves a tree of clients before an end is told: the client's own, or that of a client above it,
which takes along whatever it holds, under way or not. Users make nobody leave. An answer does, and
then it is the end of the client that was answered.

* `World.Next` : what can happen to a tree next;
* `TreeRun.remains_iff` : who remains over a stretch of a run;
* `leaves_by_end_above` : how clients leave, over any stretch of any run and in every step;
* `left_without_end` : a client that waits for an answer leaves and has told no end itself.
-/
import Mathlib.Logic.Relation
import Stepwise.Proofs.Client.Survival

namespace Stepwise

/-! ## Ends that are told -/

/-- Whoever was let go was let go early or late. -/
theorem letGo_append {top id : ClientId} {es later : List (LifecycleEvent ClientId)} :
    LetGo top (es ++ later) id ↔ LetGo top es id ∨ LetGo top later id := by
  simp only [LetGo, List.mem_append, or_and_right, exists_or]

variable {V : Type} [ProcessView V] {ch : Channels}

section Peopled

variable {tree : Client V} {waiting : List Dispatch} {log : List Effect} {o : ClientState V}

omit [ProcessView V] in
/-- Nobody lets the top of the tree go. -/
theorem Peopled.not_letGo_top (peopled : Peopled tree log) :
    ¬ LetGo tree.id (eventsOf log) tree.id := by
  rintro ⟨e, he, -, below, hwithin⟩
  exact below (hwithin.antisymm (peopled.within e he))

/-- Everybody below the top has told something. -/
theorem Peopled.told (h : ch.dispatchOpen = true) (heard : ch.eventsOpen = true)
    (chron : Chronicle ch tree waiting log) (peopled : Peopled tree log) (ho : o ∈ tree.states)
    (below : o.id ≠ tree.id) : ∃ e ∈ eventsOf log, e.client = o.id := by
  obtain ⟨going, shown⟩ := peopled.going o ho below
  obtain ⟨s, current⟩ := Option.isSome_iff_exists.1 shown
  have tells := (chron.lived ho).tells h heard
  obtain ⟨begins, shows, hevents, -, -, begun, -⟩ := tells.of_going going
  obtain ⟨e, he⟩ := List.exists_mem_of_ne_nil _ (begun.resolve_left (chron.begun h ho current))
  have he : e ∈ eventsOf (about o.id log) := hevents ▸ List.mem_append_left _ he
  rw [eventsOf_about, List.mem_filter, decide_eq_true_eq] at he
  exact ⟨e, he⟩

end Peopled

/-! ## Stretches of runs -/

/-- What can happen to a tree next: a user acts on one of its clients, or a request is answered. -/
inductive World.Next (ch : Channels) : World V → World V → Prop where
  | act {w : World V} (id : ClientId) (a : UserAction) {t : Turn V (Option Outcome)}
      (ht : w.tree.operate? id a.act ch = some t) :
    Next ch w ⟨t.client, w.waiting ++ dispatchesOf t.effects, w.log ++ t.effects⟩
  | respond {tree : Client V} {older newer : List Dispatch} {d : Dispatch} {log : List Effect}
      (result : Except ServiceError Snapshot) {t : Turn V Unit}
      (ht : (Act.route d.client result).run ch tree = t) :
    Next ch ⟨tree, older ++ d :: newer, log⟩
      ⟨t.client, older ++ newer ++ dispatchesOf t.effects, log ++ t.effects⟩

section Stretches

variable {top : Client V} {w w' : World V}

/-- A run goes on with whatever can happen next. -/
theorem TreeRun.next (run : TreeRun ch top w) (next : w.Next ch w') : TreeRun ch top w' := by
  cases next with
  | act id a ht => exact run.act id a ht
  | respond result ht => exact run.respond result ht

theorem TreeRun.onward (run : TreeRun ch top w) (onward : Relation.ReflTransGen (World.Next ch) w w') :
    TreeRun ch top w' := by
  induction onward with
  | refl => exact run
  | tail _ next ih => exact ih.next next

/-- What was left behind stays. -/
theorem log_of_onward (onward : Relation.ReflTransGen (World.Next ch) w w') :
    ∃ later, w'.log = w.log ++ later := by
  induction onward with
  | refl => exact ⟨[], (List.append_nil _).symm⟩
  | tail _ next ih =>
    obtain ⟨later, hlog⟩ := ih
    cases next with
    | @act w₁ id a t ht => exact ⟨later ++ t.effects, by rw [hlog, List.append_assoc]⟩
    | @respond tree older newer d log result t ht =>
      exact ⟨later ++ t.effects, by rw [← List.append_assoc, ← hlog]⟩

/-- Who remains over a stretch of a run: exactly those who were not let go meanwhile. -/
theorem TreeRun.remains_iff (h : ch.dispatchOpen = true) (heard : ch.eventsOpen = true)
    {id : ClientId} {parent : Option ClientId} {paused : Bool} {view : V}
    (run : TreeRun ch ⟨.fresh id parent paused view, []⟩ w)
    (run' : TreeRun ch ⟨.fresh id parent paused view, []⟩ w') {later : List Effect}
    (hlog : w'.log = w.log ++ later) {o : ClientState V} (ho : o ∈ w.tree.states) :
    (∃ p ∈ w'.tree.states, p.id = o.id) ↔ ¬ LetGo id (eventsOf later) o.id := by
  have htop : w.tree.id = id := (run.named h).1
  have htop' : w'.tree.id = id := (run'.named h).1
  have peopled' := run'.peopled h heard
  have hevents : eventsOf w'.log = eventsOf w.log ++ eventsOf later := by rw [hlog, eventsOf_append]
  by_cases below : o.id = id
  · have never := peopled'.not_letGo_top
    rw [htop', hevents, letGo_append, not_or] at never
    rw [below]
    exact iff_of_true ⟨_, Client.mem_states_self _, htop'⟩ never.2
  · obtain ⟨e, he, hid⟩ := (run.peopled h heard).told h heard (run.chronicle h) ho (htop ▸ below)
    -- it is there, so until now it was not let go
    have early := ((run.peopled h heard).present_iff h heard (run.chronicle h) he).1 ⟨o, ho, hid.symm⟩
    have late := peopled'.present_iff h heard (run'.chronicle h)
      (hevents ▸ List.mem_append_left _ he)
    rw [htop, hid] at early
    rw [htop', hid, hevents, letGo_append, or_iff_right early] at late
    exact late

end Stretches

/-! ## Single steps -/

section Steps

variable {tree : Client V} {waiting : List Dispatch} {log : List Effect} {o : ClientState V}

/-- No user makes a client leave. -/
theorem Chronicle.remains_act (h : ch.dispatchOpen = true) (chron : Chronicle ch tree waiting log)
    {id : ClientId} {a : UserAction} {t : Turn V (Option Outcome)}
    (ht : tree.operate? id a.act ch = some t) (ho : o ∈ tree.states) :
    ∃ p ∈ t.client.states, p.id = o.id := by
  obtain ⟨⟨o', kids⟩, hc, rfl, -, hstates⟩ := (Client.stepsAt_of_operate? ht).mem_states_iff chron.placed
    fun _ _ _ _ _ => rfl
  by_cases hwithin : o'.id.Within o.id
  · rcases Client.mem_states_mk.1 (chron.placed.mem_of_within hc ho hwithin) with rfl | hkids
    · exact ⟨_, (hstates _).2 (.inr ⟨Client.mem_states_self _, .inr rfl⟩),
        (Stimulus.named_run h (.action a) _).1⟩
    · have held : o ∈ (a.act.run ch ⟨o', kids⟩).client.states :=
        (Stimulus.mem_states_run (i := .action a) h).2 (.inr (.inl hkids))
      exact ⟨o, (hstates o).2 (.inr ⟨held, .inr rfl⟩), rfl⟩
  · exact ⟨o, (hstates o).2 (.inl ⟨ho, hwithin⟩), rfl⟩

/-- What an answer leaves behind above a client that was there is that of the client that was answered. -/
theorem Chronicle.answered_of_within (h : ch.dispatchOpen = true)
    (chron : Chronicle ch tree waiting log) (ho : o ∈ tree.states) {id : ClientId}
    {result : Except ServiceError Snapshot} {e : Effect}
    (he : e ∈ ((Act.route id result).run ch tree).effects) (hwithin : e.client.Within o.id) :
    e.client = id := by
  rcases Act.route_spec id result ch tree with ⟨-, hrun⟩ | step
  · rw [hrun] at he
    cases he
  · obtain ⟨⟨o', kids⟩, hc, rfl, -, heffects, -⟩ := step.mem_states chron.placed
    rw [heffects, (Stimulus.run_response result _).2] at he
    rcases Stimulus.source_of_mem_effects h he with own | ⟨t, ht, hid⟩
    · exact own
    · -- new children lie apart from everybody who was there
      obtain ⟨n, hle, -, hn⟩ := number_of_mem_births h ht
      have old := chron.placed.lt_opened (List.mem_map_of_mem hc) ho (hn ▸ hid.trans hwithin)
      exact absurd old (Nat.not_lt.2 hle)

end Steps

/-- How clients leave a tree. Over any stretch of any run, a client of the tree is still there in the end
exactly if no end was told meanwhile by itself or by a client above it, the top apart. In single steps:
no action of a user makes anybody leave; and if an answer does, then whoever leaves is the client that
was answered or lies below it, that client is not the top, and it tells its end in the same step. -/
theorem leaves_by_end_above {id : ClientId} {view : V} {enabled : Bool} {w w' : World V}
    (run : TreeRun .open ((Client.idle id view).withAutoContinue enabled) w)
    (onward : Relation.ReflTransGen (World.Next .open) w w') :
    (∃ later, w'.log = w.log ++ later ∧ ∀ o ∈ w.tree.states,
      ((∃ p ∈ w'.tree.states, p.id = o.id) ↔
        ¬ ∃ e ∈ eventsOf later, e.isEnd = true ∧ e.client ≠ id ∧ e.client.Within o.id)) ∧
    (∀ (focus : ClientId) (a : UserAction) (t : Turn V (Option Outcome)),
      w.tree.operate? focus a.act .open = some t →
        ∀ o ∈ w.tree.states, ∃ p ∈ t.client.states, p.id = o.id) ∧
    ∀ d ∈ w.waiting, ∀ (result : Except ServiceError Snapshot), ∀ o ∈ w.tree.states,
      (∃ p ∈ ((Act.route d.client result).run .open w.tree).client.states, p.id = o.id) ∨
        (d.client ≠ id ∧ d.client.Within o.id ∧
          ∃ e ∈ eventsOf ((Act.route d.client result).run .open w.tree).effects,
            e.client = d.client ∧ e.isEnd = true) := by
  have chron := run.chronicle rfl
  refine ⟨?_, fun focus a t ht o ho => chron.remains_act rfl ht ho, fun d hd result o ho => ?_⟩
  · obtain ⟨later, hlog⟩ := log_of_onward onward
    exact ⟨later, hlog, fun o ho => run.remains_iff rfl rfl (run.onward onward) hlog ho⟩
  · obtain ⟨tree, waiting, log⟩ := w
    obtain ⟨older, newer, rfl⟩ := List.append_of_mem hd
    by_cases remains : ∃ p ∈ ((Act.route d.client result).run .open tree).client.states, p.id = o.id
    · exact .inl remains
    rw [run.remains_iff rfl rfl (run.respond result rfl) rfl ho, Classical.not_not] at remains
    obtain ⟨e, he, isEnd, below, hwithin⟩ := remains
    have own : e.client = d.client := chron.answered_of_within rfl ho (mem_eventsOf.1 he) hwithin
    rw [own] at below hwithin
    exact .inr ⟨below, hwithin, e, he, own, isEnd⟩

/-- A step of an order with a bundle, in which an item goes on by itself. -/
def orderWithBundle : Snapshot :=
  { Snapshot.ofStep .nil "Order" "Bundles" with
    parameters := [⟨"note", "Note", .null, false, false⟩]
    children := [{ Snapshot.ofStep .nil "Bundle" "Count" with
      parameters := [⟨"count", "Count", .null, false, false⟩]
      children := [{ Snapshot.ofStep .nil "Item" "Pick" with autoContinue := true }] }] }

/-- The end of the bundle. -/
def bundleEnd : Snapshot := { Snapshot.ofStep .nil "Bundle" "Count" with finished := true }

/-- A bundle that ends, and leaves with its item. -/
theorem bundle_leaves_with_item : ∃ (w : World Recording) (d : Dispatch),
    TreeRun .open ((Client.idle (.root 0) Recording.empty).withAutoContinue true) w ∧ d ∈ w.waiting ∧
      (∃ o ∈ w.tree.states, o.id = d.client.child 0) ∧ d.client ≠ .root 0 ∧
      ∃ e ∈ eventsOf ((Act.route d.client (.ok bundleEnd)).run .open w.tree).effects,
        e.client = d.client ∧ e.isEnd = true := by
  have started := (@TreeRun.start Recording _ .open
    ((Client.idle (.root 0) Recording.empty).withAutoContinue true)).act (.root 0)
    (.start ⟨"Order", none, "en-US", .none⟩) rfl
  have shown := @TreeRun.respond Recording _ .open _ _ [] [] _ _ started (.ok orderWithBundle) _ rfl
  have sent := shown.act ((ClientId.root 0).child 0) .advance rfl
  obtain ⟨-, -, leaves⟩ := leaves_by_end_above sent .refl
  have gone := (leaves _ (.tail _ (.head _)) (.ok bundleEnd) _ (.tail _ (.tail _ (.head _)))).resolve_left
    (by decide +kernel)
  exact ⟨_, _, sent, .tail _ (.head _), ⟨_, .tail _ (.tail _ (.head _)), rfl⟩, gone.1, gone.2.2⟩

/-- A client that waits for an answer leaves, and has told no end: an item, with its bundle. -/
theorem left_without_end : ∃ w w' : World Recording,
    TreeRun .open ((Client.idle (.root 0) Recording.empty).withAutoContinue true) w ∧
      Relation.ReflTransGen (World.Next .open) w w' ∧
      ∃ o ∈ w.tree.states, (∃ d ∈ w.waiting, d.client = o.id) ∧
        (∀ p ∈ w'.tree.states, p.id ≠ o.id) ∧
        ∀ e ∈ eventsOf w'.log, e.client = o.id → e.isEnd = false := by
  have started := (@TreeRun.start Recording _ .open
    ((Client.idle (.root 0) Recording.empty).withAutoContinue true)).act (.root 0)
    (.start ⟨"Order", none, "en-US", .none⟩) rfl
  have shown := @TreeRun.respond Recording _ .open _ _ [] [] _ _ started (.ok orderWithBundle) _ rfl
  have sent := shown.act ((ClientId.root 0).child 0) .advance rfl
  refine ⟨_, _, sent, .single (@World.Next.respond Recording _ .open _ [_] [] _ _
    (.ok bundleEnd) _ rfl), _,
    .tail _ (.tail _ (.head _)), ⟨_, .head _, rfl⟩, ?_, ?_⟩
  · decide +kernel
  · decide +kernel

end Stepwise
