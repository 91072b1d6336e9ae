/-
# Who stays in a tree of clients

A client below the first one leaves the tree when its process is over, and with it go all clients below
it, whether their own processes are over or not. So a client is gone exactly if it has told its end, or
a client above it has. The first client stays, whatever becomes of it.

* `LetGo` : by what the clients have told, a client is gone;
* `Peopled` : everybody below the top goes on, and whoever is not there any more was let go;
* `TreeRun.peopled`, `Peopled.present_iff` : this is so at every point of a run.
-/
import Stepwise.Proofs.Client.Annals

namespace Stepwise

/-! ## Ends -/

/-- The event is the end of a client. -/
def LifecycleEvent.isEnd {ι : Type} (e : LifecycleEvent ι) : Bool := e.isFinished || e.isFailed

/-- A client was let go: it has told its end, or a client above it has. The top of the tree stays. -/
def LetGo (top : ClientId) (es : List (LifecycleEvent ClientId)) (id : ClientId) : Prop :=
  ∃ e ∈ es, e.isEnd = true ∧ e.client ≠ top ∧ e.client.Within id

section Ends

variable {V : Type} {o : ClientState V} {es es' : List (LifecycleEvent ClientId)} {top id : ClientId}

/-- A client has ended exactly if it has told so. -/
theorem Told.isTerminal_iff (told : Told o es) :
    o.phase.isTerminal = true ↔ ∃ e ∈ es, e.isEnd = true := by
  have ended : o.phase.isTerminal = true ↔ o.phase = .finished ∨ o.phase = .failed := by
    cases o.phase <;> decide
  rw [ended, told.finished, told.failed, ← exists_or]
  simp only [LifecycleEvent.isEnd, Bool.or_eq_true, and_or_left]

/-- Who was let go has not come back. -/
theorem LetGo.of_subset (letGo : LetGo top es id) (sub : ∀ e ∈ es, e ∈ es') {top' : ClientId}
    (apart : ∀ e ∈ es, e.client ≠ top') : LetGo top' es' id := by
  obtain ⟨e, he, isEnd, -, hid⟩ := letGo
  exact ⟨e, sub e he, isEnd, apart e he, hid⟩

theorem LetGo.append (letGo : LetGo top es id) (later : List (LifecycleEvent ClientId)) :
    LetGo top (es ++ later) id := by
  obtain ⟨e, he, h⟩ := letGo
  exact ⟨e, List.mem_append_left _ he, h⟩

end Ends

theorem mem_eventsOf {e : LifecycleEvent ClientId} {effects : List Effect} :
    e ∈ eventsOf effects ↔ .event e ∈ effects := by
  rw [eventsOf, List.mem_filterMap]
  constructor
  · rintro ⟨effect, heffect, heq⟩
    cases effect with
    | event e' => rwa [← Option.some.inj heq]
    | _ => cases heq
  · exact fun he => ⟨_, he, rfl⟩

variable {V : Type} [ProcessView V] {ch : Channels}

/-- A client in whose run everything was heard that bears its name has told its end exactly if it has
ended. -/
theorem Lived.isTerminal_iff (h : ch.dispatchOpen = true) (heard : ch.eventsOpen = true)
    {log : List Effect} {o : ClientState V} (lived : Lived ch log o) :
    o.phase.isTerminal = true ↔ ∃ e ∈ eventsOf log, e.client = o.id ∧ e.isEnd = true := by
  rw [(lived.tells h heard).ends.isTerminal_iff, eventsOf_about]
  simp only [List.mem_filter, decide_eq_true_eq, and_assoc]

/-! ## New children -/

section Births

variable {o : ClientState V} {kids : List (Client V)} {i : Stimulus} {u : Turn V Unit}

/-- A client that has taken over has a snapshot. -/
theorem isSome_current_attach (h : ch.dispatchOpen = true) (s : Snapshot) {c : Client V}
    (idle : c.phase = .idle) : ((Act.attach s).run ch c).client.current.isSome = true := by
  obtain ⟨o, kids⟩ := c
  obtain ⟨o', before, after, received, hrun⟩ := Act.run_receive h s { o with phase := .running } kids
  rw [Act.run_attach ch s idle, hrun]
  exact received.isSome_current nofun

theorem isSome_current_of_mem_births (h : ch.dispatchOpen = true) {ss : List Snapshot}
    (hu : u ∈ births ch o ss) : u.client.current.isSome = true := by
  obtain ⟨s, -, n, v, rfl⟩ := exists_of_mem_births hu
  exact isSome_current_attach h s rfl

/-- What a step leaves behind below a new child is what the client of that child leaves behind. -/
theorem Stimulus.mem_effects_iff (h : ch.dispatchOpen = true)
    (hu : u ∈ births ch o.awake (i.offspring o)) {e : Effect} (hid : u.client.id.Within e.client) :
    e ∈ (i.act.run ch ⟨o, kids⟩).effects ↔ e ∈ u.effects := by
  have own (effects : List Effect) : e ∈ effects ↔ e ∈ about e.client effects := by simp [about]
  rw [own, about_effects_of_within h hu hid, ← own]

/-- What a step leaves behind lies at the place of its client or below. -/
theorem Stimulus.within_of_mem_effects (h : ch.dispatchOpen = true) {e : Effect}
    (he : e ∈ (i.act.run ch ⟨o, kids⟩).effects) : o.id.Within e.client := by
  rcases place_of_mem_effects h he with hid | ⟨n, -, -, hn⟩
  · rw [hid]
    exact .refl _
  · exact (ClientId.within_child _ n).trans hn

/-- A step that ends its client tells so. -/
theorem Stimulus.letGo_run (h : ch.dispatchOpen = true) (heard : ch.eventsOpen = true)
    {tree : Client V} {waiting remaining : List Dispatch} {log : List Effect}
    (chron : Chronicle ch tree waiting log) (ho : o ∈ tree.states)
    (faces : Faces o.id waiting i remaining) (below : o.id ≠ tree.id)
    (ended : (i.act.run ch ⟨o, kids⟩).client.phase.isTerminal = true) {id : ClientId}
    (hid : o.id.Within id) :
    LetGo tree.id (eventsOf (log ++ (i.act.run ch ⟨o, kids⟩).effects)) id := by
  have named : (i.act.run ch ⟨o, kids⟩).client.id = o.id := (named_run h i _).1
  obtain ⟨H, others, run, hlog⟩ := chron.recorded_self h ho faces rfl
  have lived : Lived ch (log ++ (i.act.run ch ⟨o, kids⟩).effects)
      (i.act.run ch ⟨o, kids⟩).client.toClientState := ⟨H, others, _, run, hlog⟩
  obtain ⟨e, he, hclient, isEnd⟩ := (lived.isTerminal_iff h heard).1 ended
  rw [named] at hclient
  exact ⟨e, he, isEnd, hclient ▸ below, hclient ▸ hid⟩

end Births

/-! ## Who is there -/

/-- Everybody has told things under a name at the place of the top or below. Everybody in the tree, apart
from the top, goes on and has a snapshot; and whoever has told something is in the tree or was let go. -/
structure Peopled (tree : Client V) (log : List Effect) : Prop where
  within : ∀ e ∈ eventsOf log, tree.id.Within e.client
  going : ∀ o ∈ tree.states, o.id ≠ tree.id →
    o.phase.isTerminal = false ∧ o.current.isSome = true
  known : ∀ e ∈ eventsOf log,
    (∃ o ∈ tree.states, o.id = e.client) ∨ LetGo tree.id (eventsOf log) e.client

namespace Peopled

variable {tree : Client V} {waiting remaining : List Dispatch} {log : List Effect}
  {o : ClientState V} {kids : List (Client V)} {i : Stimulus}

/-- Everybody whom a client holds after a step goes on, if the client itself does or is the top. -/
theorem going_run (h : ch.dispatchOpen = true)
    (peopled : Peopled tree log) (hc : ⟨o, kids⟩ ∈ tree.members)
    (hbirths : ∀ u ∈ births ch o.awake (i.offspring o), Peopled u.client u.effects)
    (kept : o.id = tree.id ∨ (i.act.run ch ⟨o, kids⟩).client.phase.isTerminal = false)
    {p : ClientState V} (hp : p ∈ (i.act.run ch ⟨o, kids⟩).client.states) (below : p.id ≠ tree.id) :
    p.phase.isTerminal = false ∧ p.current.isSome = true := by
  rcases (Stimulus.mem_states_run h).1 hp with rfl | ⟨k, hk, hp⟩ | ⟨u, hu, going, hp⟩
  · obtain ⟨r, o', before, after, reaction, -, hrun⟩ := i.follows_run h o kids
    rw [hrun] at kept below ⊢
    have below : o'.id ≠ tree.id := below
    rw [reaction.named.1] at below
    refine ⟨kept.resolve_left below, ?_⟩
    exact reaction.isSome_current (peopled.going o (List.mem_map_of_mem hc) below).2
  · obtain ⟨d, hd, rfl⟩ := List.mem_map.1 hp
    refine peopled.going _ (List.mem_map_of_mem (Client.members_trans hc ?_)) below
    exact Client.mem_members_mk.2 (.inr ⟨k, hk, hd⟩)
  · by_cases top : p.id = u.client.id
    · obtain rfl := (wellPlaced_of_mem_births h hu).state_eq_of_id hp (Client.mem_states_self _) top
      exact ⟨going, isSome_current_of_mem_births h hu⟩
    · exact (hbirths u hu).going p hp top

/-- Whoever has told something in a step is held by the client that took it, or was let go. -/
theorem known_run (h : ch.dispatchOpen = true) (heard : ch.eventsOpen = true)
    (chron : Chronicle ch tree waiting log) (hc : ⟨o, kids⟩ ∈ tree.members)
    (hbirths : ∀ u ∈ births ch o.awake (i.offspring o), Peopled u.client u.effects)
    {e : LifecycleEvent ClientId} (he : e ∈ eventsOf (i.act.run ch ⟨o, kids⟩).effects) :
    (∃ p ∈ (i.act.run ch ⟨o, kids⟩).client.states, p.id = e.client) ∨
      LetGo tree.id (eventsOf (log ++ (i.act.run ch ⟨o, kids⟩).effects)) e.client := by
  rcases Stimulus.source_of_mem_effects h (mem_eventsOf.1 he) with own | ⟨u, hu, hid⟩
  · exact .inl ⟨_, Client.mem_states_self _, (Stimulus.named_run h i _).1.trans own.symm⟩
  have told : e ∈ eventsOf u.effects :=
    mem_eventsOf.2 ((Stimulus.mem_effects_iff h hu hid).1 (mem_eventsOf.1 he))
  have sub : ∀ e' ∈ eventsOf u.effects, e' ∈ eventsOf (log ++ (i.act.run ch ⟨o, kids⟩).effects) := by
    intro e' he'
    rw [eventsOf_append]
    refine List.mem_append_right _ (mem_eventsOf.2 ?_)
    have he' := mem_eventsOf.1 he'
    exact (Stimulus.mem_effects_iff h hu (within_of_mem_births h hu he')).2 he'
  -- new children lie below the top
  have apart : ∀ e' ∈ eventsOf u.effects, e'.client ≠ tree.id := by
    intro e' he' heq
    obtain ⟨n, -, -, hn⟩ := number_of_mem_births h hu
    have hwithin := ((hbirths u hu).within e' he').trans
      (heq ▸ chron.placed.within (List.mem_map_of_mem hc))
    rw [hn] at hwithin
    exact ClientId.not_within_of_child _ _ hwithin
  rcases (hbirths u hu).known e told with ⟨p, hp, hpid⟩ | gone
  · by_cases ended : u.client.phase.isTerminal = true
    · obtain ⟨e', he', hclient, isEnd⟩ := (((Chronicle.of_mem_births h hu).lived
        u.client.mem_states_self).isTerminal_iff h heard).1 ended
      exact .inr ⟨e', sub e' he', isEnd, apart e' he', hclient ▸ hid⟩
    · rw [Bool.not_eq_true] at ended
      exact .inl ⟨p, (Stimulus.mem_states_run h).2 (.inr (.inr ⟨u, hu, ended, hp⟩)), hpid⟩
  · exact .inr (gone.of_subset sub apart)

/-- A step of one client of the tree. -/
theorem step (tree' : Client V) (h : ch.dispatchOpen = true) (heard : ch.eventsOpen = true)
    (chron : Chronicle ch tree waiting log) (peopled : Peopled tree log)
    (hc : ⟨o, kids⟩ ∈ tree.members) (top : tree'.id = tree.id)
    (hstates : ∀ p, p ∈ tree'.states ↔ (p ∈ tree.states ∧ ¬ o.id.Within p.id) ∨
      (p ∈ (i.act.run ch ⟨o, kids⟩).client.states ∧
        (o.id = tree.id ∨ (i.act.run ch ⟨o, kids⟩).client.phase.isTerminal = false)))
    (faces : Faces o.id waiting i remaining)
    (hbirths : ∀ u ∈ births ch o.awake (i.offspring o), Peopled u.client u.effects) :
    Peopled tree' (log ++ (i.act.run ch ⟨o, kids⟩).effects) := by
  have ho : o ∈ tree.states := List.mem_map_of_mem hc
  have named : (i.act.run ch ⟨o, kids⟩).client.id = o.id := (Stimulus.named_run h i _).1
  -- whoever the client holds stays, or goes with it
  have held {id : ClientId} (hid : o.id.Within id)
      (hp : ∃ p ∈ (i.act.run ch ⟨o, kids⟩).client.states, p.id = id) :
      (∃ p ∈ tree'.states, p.id = id) ∨
        LetGo tree.id (eventsOf (log ++ (i.act.run ch ⟨o, kids⟩).effects)) id := by
    by_cases kept : o.id = tree.id ∨ (i.act.run ch ⟨o, kids⟩).client.phase.isTerminal = false
    · obtain ⟨p, hp, hpid⟩ := hp
      exact .inl ⟨p, (hstates p).2 (.inr ⟨hp, kept⟩), hpid⟩
    · rw [not_or, Bool.not_eq_false] at kept
      exact .inr (Stimulus.letGo_run h heard chron ho faces kept.1 kept.2 hid)
  refine ⟨fun e he => ?_, fun p hp below => ?_, fun e he => ?_⟩
  · rw [eventsOf_append] at he
    rw [top]
    rcases List.mem_append.1 he with he | he
    · exact peopled.within e he
    · exact (chron.placed.within ho).trans (Stimulus.within_of_mem_effects h (mem_eventsOf.1 he))
  · rw [top] at below
    rcases (hstates p).1 hp with ⟨hp, -⟩ | ⟨hp, kept⟩
    · exact peopled.going p hp below
    · exact going_run h peopled hc hbirths kept hp below
  · rw [eventsOf_append] at he
    rw [top]
    rcases List.mem_append.1 he with he | he
    · rcases peopled.known e he with ⟨p, hp, hpid⟩ | gone
      · by_cases hwithin : o.id.Within p.id
        · refine hpid ▸ held hwithin ?_
          rcases Client.mem_states_mk.1 (chron.placed.mem_of_within hc hp hwithin) with rfl | hkids
          · exact ⟨_, Client.mem_states_self _, named⟩
          · exact ⟨p, (Stimulus.mem_states_run h).2 (.inr (.inl hkids)), rfl⟩
        · exact .inl ⟨p, (hstates p).2 (.inl ⟨hp, hwithin⟩), hpid⟩
      · rw [eventsOf_append]
        exact .inr (gone.append _)
    · rcases known_run h heard chron hc hbirths he with hp | gone
      · exact held (Stimulus.within_of_mem_effects h (mem_eventsOf.1 he)) hp
      · exact .inr gone

omit [ProcessView V] in
/-- A client that has done nothing, by itself. -/
theorem new (id : ClientId) (parent : Option ClientId) (paused : Bool) (view : V) :
    Peopled (⟨.fresh id parent paused view, []⟩ : Client V) [] := by
  refine ⟨nofun, fun o ho below => ?_, nofun⟩
  rcases Client.mem_states_mk.1 ho with rfl | ⟨k, hk, -⟩
  · exact absurd rfl below
  · cases hk

/-- A client that has taken over, with those below it. -/
theorem attach (h : ch.dispatchOpen = true) (heard : ch.eventsOpen = true) (s : Snapshot) :
    ∀ (id : ClientId) (parent : Option ClientId) (paused : Bool) (view : V) {t : Turn V Unit},
      (Act.attach s).run ch ⟨.fresh id parent paused view, []⟩ = t → Peopled t.client t.effects := by
  induction s using Snapshot.forall_of_children with
  | h s ih =>
    rintro id parent paused view t rfl
    have hrun := run_act_attach (c := ⟨.fresh id parent paused view, []⟩) h s rfl
    have hstep := (new id parent paused view).step (i := .action (.attach s))
      ((Act.attach s).run ch ⟨.fresh id parent paused view, []⟩).client h heard
      (.new ch id parent paused view) (Client.mem_members_self _) (named_attach h s rfl).1
      (fun p => ?_) (.action (.attach s)) fun u hu => ?_
    · rw [hrun, List.nil_append] at hstep
      exact hstep
    · rw [hrun]
      refine ⟨fun hp => .inr ⟨hp, .inl rfl⟩, ?_⟩
      rintro (⟨hp, apart⟩ | ⟨hp, -⟩)
      · exact absurd ((Client.wellPlaced_leaf _).within hp) apart
      · exact hp
    · obtain ⟨v, hv, n, view', rfl⟩ := exists_of_mem_births hu
      exact ih v (Stimulus.offspring_attach hv) _ _ _ _ rfl

theorem of_mem_births (h : ch.dispatchOpen = true) (heard : ch.eventsOpen = true)
    {ss : List Snapshot} {u : Turn V Unit} (hu : u ∈ births ch o ss) :
    Peopled u.client u.effects := by
  obtain ⟨s, -, n, v, rfl⟩ := exists_of_mem_births hu
  exact attach h heard s _ _ _ _ rfl

/-- A step of one client in the tree, after which it is kept, unless it is the top, exactly if it goes
on. -/
theorem stepsAt (h : ch.dispatchOpen = true) (heard : ch.eventsOpen = true)
    (chron : Chronicle ch tree waiting log) (peopled : Peopled tree log) {α : Type}
    {keep : Client V → Bool} {act : Act V α} {id : ClientId} {t : Turn V α}
    (step : StepsAt id keep act ch tree t)
    (hact : ∀ c : Client V, (act.run ch c).client = (i.act.run ch c).client ∧
      (act.run ch c).effects = (i.act.run ch c).effects)
    (faces : Faces id waiting i remaining)
    (stay : ∀ c : Client V, c.phase.isTerminal = false → keep c = true)
    (leave : ∀ c ∈ tree.members, c.id ≠ tree.id → keep (i.act.run ch c).client = true →
      (i.act.run ch c).client.phase.isTerminal = false) :
    Peopled t.client (log ++ t.effects) := by
  have top : t.client.id = tree.id := (step.named h fun c => (hact c).1).1
  obtain ⟨⟨o, kids⟩, hc, rfl, heffects, hstates⟩ := step.mem_states_iff chron.placed
    fun p hp below _ kids => stay ⟨p, kids⟩ (peopled.going p hp below).1
  rw [heffects, (hact _).2]
  rw [(hact _).1] at hstates
  refine peopled.step _ h heard chron hc top (fun p => (hstates p).trans ?_) faces
    fun u hu => of_mem_births h heard hu
  by_cases htop : o.id = tree.id
  · simp only [htop, true_or]
  · have kept : keep (i.act.run ch ⟨o, kids⟩).client = true ↔
        (i.act.run ch ⟨o, kids⟩).client.phase.isTerminal = false := ⟨leave _ hc htop, stay _⟩
    rw [kept]

/-- Who is in the tree: of those who have told something, exactly those who were not let go. -/
theorem present_iff (h : ch.dispatchOpen = true) (heard : ch.eventsOpen = true)
    (chron : Chronicle ch tree waiting log) (peopled : Peopled tree log)
    {e : LifecycleEvent ClientId} (told : e ∈ eventsOf log) :
    (∃ o ∈ tree.states, o.id = e.client) ↔ ¬ LetGo tree.id (eventsOf log) e.client := by
  refine ⟨?_, (peopled.known e told).resolve_right⟩
  rintro ⟨o, ho, hid⟩ ⟨e', he', isEnd, below, hwithin⟩
  -- whoever has told an end above the client is still there, and so goes on
  obtain ⟨p, hp, hpid⟩ := chron.placed.exists_of_within ho (peopled.within e' he') (hid ▸ hwithin)
  have ended := ((chron.lived hp).isTerminal_iff h heard).2 ⟨e', he', hpid.symm, isEnd⟩
  rw [(peopled.going p hp (hpid ▸ below)).1] at ended
  cases ended

end Peopled

/-- At every point of a run of a tree, everybody is there who was not let go. -/
theorem TreeRun.peopled (h : ch.dispatchOpen = true) (heard : ch.eventsOpen = true) {id : ClientId}
    {parent : Option ClientId} {paused : Bool} {view : V} {w : World V}
    (run : TreeRun ch ⟨.fresh id parent paused view, []⟩ w) : Peopled w.tree w.log := by
  induction run with
  | start => exact .new id parent paused view
  | act run focus a ht ih =>
    have chron := run.chronicle h
    refine ih.stepsAt h heard chron (Client.stepsAt_of_operate? ht) (fun _ => ⟨rfl, rfl⟩) (.action a)
      (fun _ _ => rfl) fun c hc below _ => ?_
    -- no user ends a process that goes on
    obtain ⟨going, shown⟩ := ih.going _ (List.mem_map_of_mem hc) below
    obtain ⟨s, current⟩ := Option.isSome_iff_exists.1 shown
    obtain ⟨r, o', before, after, reaction, -, hrun⟩ :=
      Stimulus.follows_run h (.action a) c.toClientState c.children
    rw [c.mk_eta] at hrun
    rw [hrun]
    exact (reaction.isTerminal_act (.inl (chron.begun h (List.mem_map_of_mem hc) current))).trans going
  | @respond tree older newer d log run result t ht ih =>
    subst ht
    rcases Act.route_spec d.client result ch tree with ⟨-, hrun⟩ | step
    · rw [hrun]
      show Peopled tree (log ++ [])
      rw [List.append_nil]
      exact ih
    · refine ih.stepsAt h heard (run.chronicle h) step (Stimulus.run_response result)
        (.answer rfl rfl result) (fun c going => ?_) fun c _ _ kept => ?_
      · rw [Client.stays, going]
        rfl
      · rw [Client.stays, Bool.not_eq_true'] at kept
        exact kept

end Stepwise
