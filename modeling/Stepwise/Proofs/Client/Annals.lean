/-
# The lives that a tree of clients tells

Clients come and go in a tree, but every name has its own life: nobody else's effects bear it, and
it is not used again when its client was let go. So what was told under a name is the life of one
client, told as a client tells it that is watched from its beginning on.

* `Lived` : a client, still in the tree or let go, with everything it has left behind;
* `TreeRun.annals` : every name has such a client;
* `Told` : how the end of a life was told;
* `Unmoved`, `Chronicle.unmoved` : whatever happens in the tree, a client that has ended stays as it is;
* `lifecycles_told` : all of this, at every point of a run.
-/
import Stepwise.Proofs.Client.Lifecycle
import Stepwise.Proofs.Client.Run

namespace Stepwise

variable {V : Type} [ProcessView V] {ch : Channels}

/-! ## Lives -/

/-- A client, in the tree or let go: everything that was left behind under its name, it has left
behind in a run of its own. -/
def Lived (ch : Channels) (log : List Effect) (o : ClientState V) : Prop :=
  ∃ H kids waiting, ClientRun ch H ⟨o, kids⟩ waiting ∧ ownLog H = about o.id log

/-- Every name has a client that lived. -/
def Annals (V : Type) [ProcessView V] (ch : Channels) (log : List Effect) : Prop :=
  ∀ id, ∃ o : ClientState V, Lived ch log o ∧ o.id = id

section Annals

variable {tree : Client V} {waiting remaining : List Dispatch} {log effects : List Effect}
  {o : ClientState V} {kids : List (Client V)} {i : Stimulus}

theorem Chronicle.lived (chron : Chronicle ch tree waiting log) (ho : o ∈ tree.states) :
    Lived ch log o := by
  obtain ⟨H, kids, run, hlog⟩ := chron.recorded o ho
  exact ⟨H, kids, _, run, hlog⟩

/-- Effects of others change nothing about a life. -/
theorem Lived.append (lived : Lived ch log o) (h : about o.id effects = []) :
    Lived ch (log ++ effects) o := by
  obtain ⟨H, kids, waiting, run, hlog⟩ := lived
  refine ⟨H, kids, waiting, run, ?_⟩
  rw [about_append, h, List.append_nil]
  exact hlog

/-- What a step leaves behind is the client's own, or lies at or below a new child. -/
theorem Stimulus.source_of_mem_effects (h : ch.dispatchOpen = true) {e : Effect}
    (he : e ∈ (i.act.run ch ⟨o, kids⟩).effects) :
    e.client = o.id ∨ ∃ t ∈ births ch o.awake (i.offspring o), t.client.id.Within e.client := by
  obtain ⟨r, o', before, after, reaction, -, hrun⟩ := follows_run h i o kids
  rw [hrun] at he
  rcases List.mem_append.1 he with he | he
  · rcases List.mem_append.1 he with he | he
    · exact .inl (reaction.client_of_mem (List.mem_append_left _ (List.mem_append_left _ he)))
    · rcases mem_spawnEffects he with hid | ⟨t, ht, he⟩
      · exact .inl hid
      · exact .inr ⟨t, ht, within_of_mem_births h ht he⟩
  · exact .inl (reaction.client_of_mem (List.mem_append_right _ he))

/-- A step of one client writes the annals on, if that is so for the clients of new children. -/
theorem Annals.step (h : ch.dispatchOpen = true) (annals : Annals V ch log)
    (chron : Chronicle ch tree waiting log) (hc : ⟨o, kids⟩ ∈ tree.members)
    (faces : Faces o.id waiting i remaining)
    (hbirths : ∀ t ∈ births ch o.awake (i.offspring o), Annals V ch t.effects) :
    Annals V ch (log ++ (i.act.run ch ⟨o, kids⟩).effects) := by
  intro id
  have ho : o ∈ tree.states := List.mem_map_of_mem hc
  by_cases own : id = o.id
  · subst own
    obtain ⟨H, others, run, hlog⟩ := chron.recorded_self h ho faces rfl
    exact ⟨_, ⟨H, others, _, run, hlog⟩, (Stimulus.named_run h i ⟨o, kids⟩).1⟩
  by_cases born : ∃ t ∈ births ch o.awake (i.offspring o), t.client.id.Within id
  · -- the name is new, so what was told under it before is nothing
    obtain ⟨t, ht, hid⟩ := born
    obtain ⟨p, ⟨H, others, waiting, run, hlog⟩, rfl⟩ := hbirths t ht id
    refine ⟨p, ⟨H, others, waiting, run, ?_⟩, rfl⟩
    obtain ⟨m, hle, -, hm⟩ := number_of_mem_births h ht
    rw [about_append, Stimulus.about_effects_of_within h ht hid,
      (chron.unknown ho hle (hm ▸ hid)).1, List.nil_append]
    exact hlog
  · obtain ⟨p, lived, rfl⟩ := annals id
    refine ⟨p, lived.append (about_eq_nil fun e he heq => ?_), rfl⟩
    rcases Stimulus.source_of_mem_effects h he with hid | ⟨t, ht, hid⟩
    · exact own (heq.symm.trans hid)
    · exact born ⟨t, ht, heq ▸ hid⟩

/-- Before anything has happened, every name is that of a client that has done nothing. -/
theorem Annals.nil (ch : Channels) (view : V) : Annals V ch [] := fun id =>
  ⟨.fresh id none false view, ⟨[], [], [], .new id none false view, rfl⟩, rfl⟩

/-- The annals of a client that has taken over. -/
theorem Annals.attach (h : ch.dispatchOpen = true) (s : Snapshot) :
    ∀ (id : ClientId) (parent : Option ClientId) (paused : Bool) (view : V),
      Annals V ch ((Act.attach s).run ch ⟨.fresh id parent paused view, []⟩).effects := by
  induction s using Snapshot.forall_of_children with
  | h s ih =>
    intro id parent paused view
    have hrun := run_act_attach (c := ⟨.fresh id parent paused view, []⟩) h s rfl
    have hstep := (Annals.nil ch view).step (i := .action (.attach s)) h
      (.new ch id parent paused view) (Client.mem_members_self _) (.action (.attach s))
      fun t ht => ?_
    · rw [hrun, List.nil_append] at hstep
      exact hstep
    · obtain ⟨u, hu, n, view', rfl⟩ := exists_of_mem_births ht
      exact ih u (Stimulus.offspring_attach hu) _ _ _ _

theorem Annals.of_mem_births (h : ch.dispatchOpen = true) {ss : List Snapshot} {t : Turn V Unit}
    (ht : t ∈ births ch o ss) : Annals V ch t.effects := by
  obtain ⟨s, -, n, v, rfl⟩ := exists_of_mem_births ht
  exact attach h s _ _ _ _

/-- A step of one client in the tree writes the annals on. -/
theorem Annals.stepsAt (h : ch.dispatchOpen = true) (annals : Annals V ch log) {α : Type}
    {keep : Client V → Bool} {act : Act V α} {id : ClientId} {t : Turn V α}
    (chron : Chronicle ch tree waiting log) (step : StepsAt id keep act ch tree t)
    (hact : ∀ c : Client V, (act.run ch c).effects = (i.act.run ch c).effects)
    (faces : Faces id waiting i remaining) : Annals V ch (log ++ t.effects) := by
  obtain ⟨⟨o, kids⟩, hc, rfl, -, heffects, -⟩ := step.mem_states chron.placed
  rw [heffects, hact]
  exact annals.step h chron hc faces fun t ht => of_mem_births h ht

end Annals

/-- At every point of a run, every name has a client that lived. -/
theorem TreeRun.annals (h : ch.dispatchOpen = true) {id : ClientId} {parent : Option ClientId}
    {paused : Bool} {view : V} {w : World V}
    (run : TreeRun ch ⟨.fresh id parent paused view, []⟩ w) : Annals V ch w.log := by
  induction run with
  | start => exact .nil ch view
  | act run focus a ht ih =>
    exact ih.stepsAt h (run.chronicle h) (Client.stepsAt_of_operate? ht) (fun _ => rfl) (.action a)
  | @respond tree older newer d log run result t ht ih =>
    subst ht
    rcases Act.route_spec d.client result ch tree with ⟨-, hrun⟩ | step
    · rw [hrun]
      show Annals V ch (log ++ [])
      rw [List.append_nil]
      exact ih
    · exact ih.stepsAt h (run.chronicle h) step (fun c => (Stimulus.run_response result c).2)
        (.answer rfl rfl result)

/-! ## Ends -/

/-- The end of a life was told exactly if the client has come to it, and then as it is: a process that
has finished left its last snapshot and whether it was cancelled. -/
structure Told (o : ClientState V) (es : List (LifecycleEvent ClientId)) : Prop where
  finished : o.phase = .finished ↔ ∃ e ∈ es, e.isFinished = true
  failed : o.phase = .failed ↔ ∃ e ∈ es, e.isFailed = true
  last : ∀ id parent s, .finished id parent s ∈ es →
    s.finished = true ∧ o.current = some s ∧ o.cancelled = s.cancelled

section Ends

variable {o : ClientState V} {es : List (LifecycleEvent ClientId)}

omit [ProcessView V] in
/-- What a client has told is the beginning of a life. -/
theorem Tells.lifecycle (h : Tells o es) (begun : o.phase = .idle → o.current = none) :
    ∃ life, Lifecycle life ∧ es <+: life := by
  obtain ⟨hbegins, hshows, begun', fresh, ending⟩ := h
  rename_i begins shows ends
  by_cases none : begins = []
  · -- nothing was told, and a client that begins will tell so
    have idle : o.phase = .idle := begun'.resolve_right fun h => h none
    have silent : ends = [] := by
      cases ending with
      | going => rfl
      | finished _ ended => rw [idle] at ended; cases ended
      | failed _ ended => rw [idle] at ended; cases ended
    rw [none, fresh (begun idle), silent]
    have hstarted : ∀ e ∈ [LifecycleEvent.started o.id ""], e.isStarted = true := fun e he => by
      rw [List.mem_singleton.1 he]
      rfl
    have life : Lifecycle ([.started o.id ""] ++ [] ++ []) := .told (List.cons_ne_nil _ _) hstarted
      (List.forall_mem_nil _) (Nat.zero_le 1) (List.forall_mem_nil _)
    exact ⟨_, life, List.nil_prefix⟩
  · refine ⟨_, .told none hbegins hshows ?_ ?_, List.prefix_refl _⟩
    · cases ending <;> simp
    · cases ending <;> simp [LifecycleEvent.isFinished, LifecycleEvent.isFailed]

omit [ProcessView V] in
/-- An end that was told fits. -/
theorem Ending.told (ending : Ending o es) : Told o es := by
  cases ending with
  | going going =>
    have apart {phase : Phase} (ended : phase.isTerminal = true) : o.phase ≠ phase := by
      rintro rfl
      rw [going] at ended
      cases ended
    exact ⟨iff_of_false (apart rfl) (by simp), iff_of_false (apart rfl) (by simp), nofun⟩
  | finished s ended last current cancelled =>
    refine ⟨iff_of_true ended ⟨_, List.mem_singleton_self _, rfl⟩, ?_, ?_⟩
    · rw [ended]
      exact iff_of_false nofun (by simp [LifecycleEvent.isFailed])
    · rintro id parent t hmem
      cases List.mem_singleton.1 hmem
      exact ⟨last, current, cancelled⟩
  | failed _ ended =>
    refine ⟨?_, iff_of_true ended ⟨_, List.mem_singleton_self _, rfl⟩, ?_⟩
    · rw [ended]
      exact iff_of_false nofun (by simp [LifecycleEvent.isFinished])
    · rintro id parent t hmem
      cases List.mem_singleton.1 hmem

omit [ProcessView V] in
/-- Events that tell no end make no difference. -/
theorem Told.prepend {earlier : List (LifecycleEvent ClientId)} (told : Told o es)
    (goes : ∀ e ∈ earlier, e.isFinished = false ∧ e.isFailed = false) :
    Told o (earlier ++ es) := by
  have late {p : LifecycleEvent ClientId → Bool} (none : ∀ e ∈ earlier, p e = false) :
      (∃ e ∈ earlier ++ es, p e = true) ↔ ∃ e ∈ es, p e = true := by
    constructor
    · rintro ⟨e, he, hp⟩
      rcases List.mem_append.1 he with he | he
      · rw [none e he] at hp
        cases hp
      · exact ⟨e, he, hp⟩
    · rintro ⟨e, he, hp⟩
      exact ⟨e, List.mem_append_right _ he, hp⟩
  refine ⟨?_, ?_, fun id parent s hmem => ?_⟩
  · rw [told.finished, late fun e he => (goes e he).1]
  · rw [told.failed, late fun e he => (goes e he).2]
  · rcases List.mem_append.1 hmem with hmem | hmem
    · cases (goes _ hmem).1
    · exact told.last id parent s hmem

omit [ProcessView V] in
/-- What a client has told fits its end. -/
theorem Tells.ends (h : Tells o es) : Told o es := by
  obtain ⟨hbegins, hshows, -, -, ending⟩ := h
  -- only what was told last can be an end
  refine ending.told.prepend fun e he => ?_
  rcases List.mem_append.1 he with he | he
  · exact LifecycleEvent.goes_of_isStarted (hbegins e he)
  · exact LifecycleEvent.goes_of_isUpdated (hshows e he)

end Ends

section Lived

variable {log : List Effect} {o : ClientState V}

theorem Lived.tells (h : ch.dispatchOpen = true) (heard : ch.eventsOpen = true)
    (lived : Lived ch log o) : Tells o (eventsOf (about o.id log)) := by
  obtain ⟨H, kids, waiting, run, hlog⟩ := lived
  rw [← hlog]
  exact run.tells h heard

theorem Lived.lifecycle (h : ch.dispatchOpen = true) (heard : ch.eventsOpen = true)
    (lived : Lived ch log o) : ∃ life, Lifecycle life ∧ eventsOf (about o.id log) <+: life := by
  refine (lived.tells h heard).lifecycle fun idle => ?_
  obtain ⟨H, kids, waiting, run, -⟩ := lived
  cases run.standing h with
  | waits w =>
    have running : o.phase = .running := w.running
    rw [idle] at running
    cases running
  | rests r => exact r.begun idle

theorem Lived.summaries (h : ch.dispatchOpen = true) (lived : Lived ch log o) :
    summaryCount (about o.id log) ≤ 1 := by
  obtain ⟨H, kids, waiting, run, hlog⟩ := lived
  rw [← hlog]
  exact Nat.le_trans (run.summaries h) (Bool.toNat_le _)

end Lived

/-! ## Clients that have ended, in their tree -/

/-- A client is not touched: nothing is left behind under its name, and where it is still found it
stands where it did. -/
structure Unmoved (o : ClientState V) {α : Type} (t : Turn V α) : Prop where
  silent : about o.id t.effects = []
  stands : ∀ p ∈ t.client.states, p.id = o.id → o.Stands p

section Unmoved

variable {tree : Client V} {waiting : List Dispatch} {log : List Effect} {o : ClientState V}

/-- What happens to a client that has ended leaves it unmoved. -/
theorem Stimulus.unmoved (h : ch.dispatchOpen = true) (i : Stimulus)
    (ended : o.phase.isTerminal = true) (kids : List (Client V)) :
    about o.id (i.act.run ch ⟨o, kids⟩).effects = [] ∧
      o.Stands (i.act.run ch ⟨o, kids⟩).client.toClientState := by
  obtain ⟨r, o', own, reaction, shows, -⟩ := Client.face_shows h ⟨o, kids⟩ i
  obtain ⟨rfl, stands⟩ := reaction.absorbed ended
  exact ⟨shows.own, shows.after ▸ stands⟩

/-- A step of any client of the tree leaves a client that has ended unmoved. -/
theorem Chronicle.unmoved (h : ch.dispatchOpen = true) (chron : Chronicle ch tree waiting log)
    (ho : o ∈ tree.states) (ended : o.phase.isTerminal = true) {α : Type}
    {keep : Client V → Bool} {act : Act V α} {id : ClientId} {t : Turn V α} {i : Stimulus}
    (step : StepsAt id keep act ch tree t)
    (hact : ∀ c : Client V, (act.run ch c).client = (i.act.run ch c).client ∧
      (act.run ch c).effects = (i.act.run ch c).effects) : Unmoved o t := by
  obtain ⟨⟨o', kids⟩, hc, rfl, -, heffects, hstates⟩ := step.mem_states chron.placed
  have ho' : o' ∈ tree.states := List.mem_map_of_mem hc
  have same {p : ClientState V} (hp : p ∈ tree.states) : p.id = o.id → p = o :=
    chron.placed.state_eq_of_id hp ho
  have inhabited {p : ClientState V} (hp : p ∈ t.client.states) :=
    chron.inhabitants (i := i) h hc (fun p hp => (hact _).1 ▸ hstates p hp) hp
  -- a new child has a new name
  have apart {u : Turn V Unit} {p : ClientState V} (hu : u ∈ births ch o'.awake (i.offspring o'))
      (hp : p ∈ u.client.states) : p.id ≠ o.id := by
    intro hid
    obtain ⟨m, hle, -, hm⟩ := number_of_mem_births h hu
    have hwithin := (wellPlaced_of_mem_births h hu).within hp
    rw [hid, hm] at hwithin
    exact Nat.lt_irrefl _ (Nat.lt_of_lt_of_le (chron.placed.lt_opened ho' ho hwithin) hle)
  rw [(hact _).2] at heffects
  by_cases hid : o'.id = o.id
  · obtain rfl := same ho' hid
    obtain ⟨silent, stands⟩ := i.unmoved h ended kids
    refine ⟨heffects ▸ silent, fun p hp heq => ?_⟩
    rcases inhabited hp with rfl | ⟨u, hu, hpu⟩ | ⟨-, hne⟩
    · exact stands
    · exact absurd heq (apart hu hpu)
    · exact absurd heq hne
  · refine ⟨heffects ▸ chron.about_effects_of_old h ho' ho (Ne.symm hid), fun p hp heq => ?_⟩
    rcases inhabited hp with rfl | ⟨u, hu, hpu⟩ | ⟨hp, -⟩
    · exact absurd ((Stimulus.named_run h i ⟨o', kids⟩).1.symm.trans heq) hid
    · exact absurd heq (apart hu hpu)
    · rw [same hp heq]
      exact .refl o

end Unmoved

/-- The lives of clients, at every point of a run of a tree. What was told under any name begins a
life: it begins, it shows snapshots, it ends once at most; and one summary was shown at most. A
client, in the tree or let go, has finished or failed exactly if that was told, and a snapshot told at
the end is finished, the client's own, and cancelled as the client is. A client that has ended is not
moved any more, by anything that happens to itself, or to any client of the tree, or by any answer. -/
theorem lifecycles_told {id : ClientId} {view : V} {enabled : Bool} {w : World V}
    (run : TreeRun .open ((Client.idle id view).withAutoContinue enabled) w) :
    (∀ id, (∃ life, Lifecycle life ∧ eventsOf (about id w.log) <+: life) ∧
      summaryCount (about id w.log) ≤ 1 ∧ ∃ o : ClientState V, Lived .open w.log o ∧ o.id = id) ∧
    (∀ o ∈ w.tree.states, Lived .open w.log o) ∧
    (∀ o : ClientState V, Lived .open w.log o → Told o (eventsOf (about o.id w.log)) ∧
      (o.phase.isTerminal = true → ∀ (kids : List (Client V)) (i : Stimulus),
        about o.id (i.act.run .open ⟨o, kids⟩).effects = [] ∧
          o.Stands (i.act.run .open ⟨o, kids⟩).client.toClientState)) ∧
    (∀ o ∈ w.tree.states, o.phase.isTerminal = true →
      (∀ (id : ClientId) (keep : Client V → Bool) (i : Stimulus) (t : Turn V (Option Outcome)),
        w.tree.actAt id keep i.act .open = some t → Unmoved o t) ∧
      ∀ (id : ClientId) (result : Except ServiceError Snapshot),
        Unmoved o ((Act.route id result).run .open w.tree)) := by
  have chron := run.chronicle rfl
  refine ⟨fun id => ?_, fun o ho => chron.lived ho, fun o lived => ⟨?_, ?_⟩, fun o ho ended => ?_⟩
  · obtain ⟨o, lived, rfl⟩ := run.annals rfl id
    exact ⟨lived.lifecycle rfl rfl, lived.summaries rfl, o, lived, rfl⟩
  · exact (lived.tells rfl rfl).ends
  · exact fun ended kids i => i.unmoved rfl ended kids
  · refine ⟨fun id keep i t ht => ?_, fun id result => ?_⟩
    · have step := w.tree.actAt_spec id keep i.act .open
      rw [ht] at step
      exact chron.unmoved rfl ho ended step fun _ => ⟨rfl, rfl⟩
    · rcases Act.route_spec id result .open w.tree with ⟨-, hrun⟩ | step
      · rw [hrun]
        refine ⟨rfl, fun p hp hid => ?_⟩
        obtain ⟨d, hd, rfl⟩ := List.mem_map.1 hp
        obtain ⟨e, he, rfl⟩ := List.mem_map.1 ho
        rw [chron.placed.eq_of_id hd he hid]
        exact .refl _
      · exact chron.unmoved rfl ho ended step (Stimulus.run_response result)

/-- An order that is done at once, with an item that is done too. -/
theorem lifecycles_told_items :
    ∃ w, TreeRun .open ((Client.idle (.root 0) Recording.empty).withAutoContinue true) w ∧
      (eventsOf (about ((ClientId.root 0).child 0) w.log)).map (·.isFinished) = [false, true] ∧
      (eventsOf (about (.root 0) w.log)).map (·.isFinished) = [false, true] ∧
      (∃ o : ClientState Recording, Lived .open w.log o ∧ o.id = (ClientId.root 0).child 0 ∧
        o.phase = .finished) ∧
      ∀ o ∈ w.tree.states, o.phase = .finished ∧ ∀ (id : ClientId)
        (result : Except ServiceError Snapshot), Unmoved o ((Act.route id result).run .open w.tree) := by
  have started := (@TreeRun.start Recording _ .open
    ((Client.idle (.root 0) Recording.empty).withAutoContinue true)).act (.root 0)
    (.start ⟨"Order", none, "en-US", .none⟩) rfl
  have run := @TreeRun.respond Recording _ .open _ _ [] [] _ _ started
    (.ok { orderWithItem with
      finished := true
      children := [{ Snapshot.ofStep .nil "Item" "Pick" with finished := true }] }) _ rfl
  obtain ⟨names, members, ends, still⟩ := lifecycles_told run
  refine ⟨_, run, rfl, rfl, ?_, fun o ho => ?_⟩
  · obtain ⟨-, -, o, lived, hid⟩ := names ((ClientId.root 0).child 0)
    refine ⟨o, lived, hid, (ends o lived).1.finished.2 ?_⟩
    rw [hid]
    exact ⟨_, .tail _ (.head _), rfl⟩
  · obtain rfl := List.mem_singleton.1 ho
    exact ⟨rfl, (still _ ho rfl).2⟩

end Stepwise
