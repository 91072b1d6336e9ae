/-
# What answers tell of spawned processes

The answer to a request accounts for every process that the request has added: each is shown once, on its
first step, below the one that has spawned it. A process that is shown on a step has spawned others only
when it has come there for the first time. For the steps that a process has entered are those on which
answers have shown it, and the one on which it was left behind, if the request that added it has failed.
What it had spawned by then no answer shows.

* `Arrival`, `Server.Outcome.arrival` : how a process comes to be shown on a step;
* `Server.Reply.Positions`, `Server.Reply.Strands` : an answer shows a process on a step, or the request
  has failed and has left it behind there;
* `Server.Served.entered_step`, `Server.Served.mem_entered_iff` : the steps that a process has entered;
* `Server.Accounted`, `Server.Served.accounted` : what an answer accounts for, in every run;
* `Server.accounted_lostReload` : what was left behind is shown without what it has spawned.
-/
import Stepwise.Proofs.Server.Rearing

namespace Stepwise

/-- What an answer shows for the first time: the process that was started, or those that the process of
the request has spawned. -/
def Request.news (request : Request) (s : Snapshot) : List Snapshot :=
  match request with
  | .start _ => [s]
  | .continue _ _ _ => s.children

/-- How a process comes to be shown on a step: it was started, or it was running and has entered the
step. -/
inductive Arrival (scripts : KeyMap Script) (before after : Server) (request : Request) (t : Snapshot) :
    Prop where
  | started {parent : Option Uuid} {depth : Nat}
      (sprouted : Sprouted scripts after.instances parent depth t)
      (new : ∃ n, before.issued ≤ n ∧ n < after.issued ∧ t.id = .issued n)
  | resumed {p q : Instance} {step : ScriptStep} (running : p ∈ before.instances)
      (subject : request.subject? = some p.id) (resumes : q.Resumes p)
      (reared : Reared scripts after.instances q step t)

namespace Server

section Outcome

variable {before after : Server} {request : Request} {s t : Snapshot}

/-- Every process that an answer shows on a step was started, or has entered the step. -/
theorem Outcome.arrival (outcome : Outcome before request (.ok s) after)
    (titled : Titled before.scripts) (sound : before.Sound) (distinct : after.IdsDistinct)
    (ht : t ∈ s.nodes) (going : t.finished = false) :
    Arrival before.scripts before after request t := by
  cases outcome with
  | @started d _ _ run grown =>
    obtain ⟨-, sprouted⟩ := sprouts_start titled (Nat.le_refl spawnLimit) d.name d.input none run rfl
      (sound.noting _) nofun distinct
    obtain ⟨parent, depth, sprouted⟩ := sprouted.of_mem ht
    refine .started sprouted (grown.new t.id ?_)
    rw [List.flatMap_singleton]
    exact Snapshot.id_mem_ids ht
  | ended =>
    rw [Snapshot.nodes_eq] at ht
    obtain rfl := List.mem_singleton.1 ht
    cases going
  | @entered u mode event p q _ _ found resumes _ run entered =>
    have hp := (instance?_eq_some.1 found).1
    have hself : (before.noting (.continue u mode event)).Issued (some q.id) := by
      obtain ⟨n, hn, hid, -⟩ := (sound p hp).numbered
      exact fun x hx => ⟨n, hn, (Option.some.inj hx).symm.trans (resumes.id.trans hid)⟩
    obtain ⟨step, reared⟩ := reared_of_run titled run rfl (sound.noting _) hself distinct
    rcases Snapshot.mem_nodes.1 ht with rfl | ⟨c, hc, ht⟩
    · exact .resumed hp (congrArg some (instance?_eq_some.1 found).2.symm) resumes reared
    · obtain ⟨parent, depth, sprouted⟩ := (reared.children c hc).of_mem ht
      refine .started sprouted (entered.new t.id (List.mem_flatMap.2 ⟨c, hc, ?_⟩))
      exact Snapshot.id_mem_ids ht

/-- A process that was started on request has spawned what is below it. -/
theorem Outcome.root {d : Descriptor} (outcome : Outcome before (.start d) (.ok s) after)
    (titled : Titled before.scripts) (sound : before.Sound) (distinct : after.IdsDistinct) :
    s.processName = d.name ∧ Sprouted before.scripts after.instances none 0 s := by
  cases outcome with
  | started run =>
    exact sprouts_start titled (Nat.le_refl spawnLimit) d.name d.input none run rfl (sound.noting _)
      nofun distinct

/-- What the process of a request has spawned is below it. -/
theorem Outcome.below {u : Snapshot} {mode : Mode} {event : Option Interaction}
    (outcome : Outcome before (.continue u mode event) (.ok s) after)
    (titled : Titled before.scripts) (sound : before.Sound) (distinct : after.IdsDistinct)
    (ht : t ∈ s.children) :
    ∃ p ∈ after.instances, p.id = s.id ∧
      Sprouted before.scripts after.instances (some s.id) (p.depth + 1) t := by
  have going : s.finished = false := by
    cases last : s.finished with
    | false => rfl
    | true =>
      obtain ⟨-, -, alone, -⟩ := outcome.dropped last
      rw [alone] at ht
      cases ht
  cases outcome.arrival titled sound distinct s.mem_nodes_self going with
  | started sprouted =>
    cases sprouted with
    | @mk _ _ _ p step running scripted shows first entered hparent hdepth bounded spawned children =>
      exact ⟨p, running, shows.id.symm, hdepth ▸ children t ht⟩
  | resumed running subject resumes reared =>
    exact ⟨_, reared.running, reared.shows.id.symm, reared.children t ht⟩

/-- The processes that a request adds are those that the answer shows for the first time. -/
theorem Outcome.added_iff (outcome : Outcome before request (.ok s) after) {x : Uuid} :
    x ∈ after.instances.map (·.id) ∧ x ∉ before.instances.map (·.id) ↔
      x ∈ (request.news s).flatMap Snapshot.ids := by
  have exact_of_perm {ss : List Snapshot} (ids : (after.instances.map (·.id)).Perm
      (ss.flatMap Snapshot.ids ++ before.instances.map (·.id))) :
      x ∈ after.instances.map (·.id) ∧ x ∉ before.instances.map (·.id) ↔
        x ∈ ss.flatMap Snapshot.ids := by
    have apart := List.disjoint_of_nodup_append (ids.nodup_iff.1 after.distinct)
    rw [ids.mem_iff, List.mem_append]
    constructor
    · rintro ⟨hx, old⟩
      exact hx.resolve_right old
    · exact fun new => ⟨.inl new, fun old => apart new old⟩
  cases outcome with
  | started _ grown => exact exact_of_perm grown.ids
  | ended _ _ _ left =>
    constructor
    · rintro ⟨hx, new⟩
      obtain ⟨p, hp, rfl⟩ := List.mem_map.1 hx
      exact absurd (List.mem_map_of_mem ((left p).1 hp).1) new
    · exact nofun
  | entered _ _ _ _ entered => exact exact_of_perm entered.ids

/-- An answer shows no process twice. -/
theorem Outcome.nodup_ids (outcome : Outcome before request (.ok s) after) : s.ids.Nodup := by
  cases outcome with
  | started _ grown =>
    have nodup := (List.nodup_append.1 (grown.ids.nodup_iff.1 after.distinct)).1
    rwa [List.flatMap_singleton] at nodup
  | ended =>
    rw [Snapshot.ids_eq]
    exact List.nodup_singleton _
  | @entered _ _ _ p _ _ _ found _ _ _ entered =>
    have nodup := entered.ids.nodup_iff.1 after.distinct
    have apart := List.disjoint_of_nodup_append nodup
    obtain ⟨r, -, hr, -, agrees⟩ := entered.shown
    rw [Snapshot.ids_eq, List.nodup_cons]
    refine ⟨fun mem => apart mem ?_, (List.nodup_append.1 nodup).1⟩
    rw [agrees.id, hr]
    exact List.mem_map_of_mem (instance?_eq_some.1 found).1

end Outcome

/-! ## The steps that a process has entered -/

/-- The answer shows a process on a step. -/
def Reply.Positions (r : Reply) (x : Uuid) (k : Nat) : Prop :=
  ∃ s, r.answer = .ok s ∧ ∃ t ∈ s.nodes, t.finished = false ∧ t.id = x ∧
    ∃ p ∈ r.after.instances, p.id = x ∧ p.index = k

/-- The answer shows what a process has spawned on a step. -/
def Reply.Rears (r : Reply) (x : Uuid) (k : Nat) : Prop :=
  ∃ s, r.answer = .ok s ∧ ∃ t ∈ s.nodes, t.children ≠ [] ∧ t.id = x ∧
    ∃ p ∈ r.after.instances, p.id = x ∧ p.index = k

/-- The request has failed and has left a process behind, on a step, that did not run before. -/
def Reply.Strands (r : Reply) (x : Uuid) (k : Nat) : Prop :=
  (∃ e, r.answer = .error e) ∧ x ∉ r.before.instances.map (·.id) ∧
    ∃ p ∈ r.after.instances, p.id = x ∧ p.index = k

/-- The request has brought a process to a step: the answer shows it there, or the request has left it
behind there. -/
def Reply.Enters (r : Reply) (x : Uuid) (k : Nat) : Prop := r.Positions x k ∨ r.Strands x k

section Positions

variable {scripts : List Script} {log earlier : List Reply} {r : Reply} {server : Server}
  {p : Instance} {x : Uuid} {k : Nat} {s t : Snapshot}

theorem Reply.Positions.tells (h : r.Positions x k) : r.Tells x := by
  obtain ⟨s, answer, t, ht, -, rfl, -⟩ := h
  exact ⟨s, answer, Snapshot.id_mem_ids ht⟩

theorem Reply.Strands.not_tells (h : r.Strands x k) : ¬ r.Tells x := by
  rintro ⟨s, answer, -⟩
  obtain ⟨⟨e, failed⟩, -⟩ := h
  cases failed.symm.trans answer

theorem Reply.Enters.running (h : r.Enters x k) : x ∈ r.after.instances.map (·.id) := by
  rcases h with ⟨-, -, -, -, -, -, p, hp, rfl, -⟩ | ⟨-, -, p, hp, rfl, -⟩
  · exact List.mem_map_of_mem hp
  · exact List.mem_map_of_mem hp

/-- Scripts are found by their own names. -/
theorem Served.titled (served : Served scripts log server) : Titled server.scripts :=
  fun _ _ h => served.name_of_script h

/-- What answers have told of has no new identifier. -/
theorem Served.not_told_of_new (served : Served scripts log r.before) (distinct : r.after.IdsDistinct)
    (new : ∃ n, r.before.issued ≤ n ∧ n < r.after.issued ∧ x = .issued n) : ¬ Told log x :=
  fun told => distinct.not_new (served.issued_of_told (.of_execute r.run distinct) told) new

/-- Processes that were brought to a step have identifiers that were given out. -/
theorem Served.issued_of_enters (served : Served scripts log server) (distinct : server.IdsDistinct)
    (known : ∃ r ∈ log, r.Enters x k) : ∃ n < server.issued, x = .issued n := by
  obtain ⟨r, hr, enters⟩ := known
  obtain ⟨earlier, later, rfl⟩ := List.append_of_mem hr
  obtain ⟨before, hle⟩ := served.split rfl
  have after : Served scripts (earlier ++ [r]) r.after := before.execute r.request
  obtain ⟨n, hn, hid⟩ := after.issued_of_running (distinct.of_le hle) enters.running
  exact ⟨n, Nat.lt_of_lt_of_le hn hle, hid⟩

/-- A process that an answer shows, and that runs then, is shown on its step. -/
theorem Served.positions_iff (served : Served scripts log r.before) (distinct : r.after.IdsDistinct)
    (hp : p ∈ r.after.instances) (now : r.Tells p.id) : r.Positions p.id k ↔ k = p.index := by
  constructor
  · rintro ⟨-, -, -, -, -, -, q, hq, hqid, rfl⟩
    rw [r.after.eq_of_id hq hp hqid]
  · rintro rfl
    obtain ⟨s, answer, hmem⟩ := now
    have outcome := served.outcome distinct
    rw [answer] at outcome
    obtain ⟨t, ht, hid⟩ := Snapshot.mem_ids.1 hmem
    exact ⟨s, answer, t, ht, (outcome.agrees hp ht hid).unfinished, hid, p, hp, rfl, rfl⟩

/-- A process that a request has added was brought to the step that it is on. -/
theorem Served.enters_of_added (served : Served scripts log r.before) (distinct : r.after.IdsDistinct)
    (hp : p ∈ r.after.instances) (new : p.id ∉ r.before.instances.map (·.id)) :
    r.Enters p.id k ↔ k = p.index := by
  have outcome := served.outcome distinct
  by_cases now : r.Tells p.id
  · rw [Reply.Enters, or_iff_left fun stranded => stranded.not_tells now]
    exact served.positions_iff distinct hp now
  rw [Reply.Enters, or_iff_right fun positions => now positions.tells]
  constructor
  · rintro ⟨-, -, q, hq, hqid, rfl⟩
    rw [r.after.eq_of_id hq hp hqid]
  · rintro rfl
    refine ⟨?_, new, p, hp, rfl, rfl⟩
    cases answer : r.answer with
    | error e => exact ⟨e, rfl⟩
    | ok s =>
      rw [answer] at outcome
      have running := outcome.mem_before hp fun hmem => now ⟨s, answer, hmem⟩
      exact absurd (List.mem_map_of_mem running) new

/-- A process that ran before a request was brought to its step if the answer shows it. Otherwise it is
as it was. -/
theorem Served.entered_of_running (served : Served scripts log r.before)
    (distinct : r.after.IdsDistinct) (hp : p ∈ r.after.instances) {q : Instance}
    (hq : q ∈ r.before.instances) (same : q.id = p.id) :
    k ∈ p.entered ↔ r.Enters p.id k ∨ k ∈ q.entered := by
  have distinct' : r.before.IdsDistinct := .of_execute r.run distinct
  have outcome := served.outcome distinct
  have old : p.id ∈ r.before.instances.map (·.id) := same ▸ List.mem_map_of_mem hq
  have not_new := distinct.not_new (served.issued_of_running distinct' old)
  have shown : r.Enters p.id k ↔ r.Positions p.id k := or_iff_left fun stranded => stranded.2.1 old
  rw [shown]
  by_cases now : r.Tells p.id
  · rw [served.positions_iff distinct hp now]
    obtain ⟨s, answer, hmem⟩ := now
    rw [answer] at outcome
    obtain ⟨t, ht, hid⟩ := Snapshot.mem_ids.1 hmem
    cases outcome.arrival served.titled (served.reached.sound distinct') distinct ht
      (outcome.agrees hp ht hid).unfinished with
    | started _ new => exact absurd (hid ▸ new) not_new
    | @resumed p₀ q₀ step running subject resumes reared =>
      have arrived : q₀.arrived = p :=
        r.after.eq_of_id reared.running hp (reared.shows.id.symm.trans hid)
      have before : p₀ = q := by
        refine r.before.eq_of_id running hq ?_
        rw [same, ← arrived]
        exact resumes.id.symm
      rw [← arrived, Instance.mem_entered_arrived, resumes.entered, before]
      exact Iff.rfl
  · rw [or_iff_right fun positions => now positions.tells]
    rcases outcome.origin hp with running | ⟨new, -⟩ | ⟨-, s, answer, hid⟩
    · rw [r.before.eq_of_id running hq same.symm]
    · exact absurd new not_new
    · exact absurd ⟨s, answer, hid ▸ Snapshot.id_mem_ids s.mem_nodes_self⟩ now

/-- One request: a process has entered the steps that it had entered before, and the one to which the
request has brought it. -/
theorem Served.entered_step (served : Served scripts log r.before) (distinct : r.after.IdsDistinct)
    (hp : p ∈ r.after.instances) :
    k ∈ p.entered ↔
      r.Enters p.id k ∨ ∃ q ∈ r.before.instances, q.id = p.id ∧ k ∈ q.entered := by
  by_cases old : p.id ∈ r.before.instances.map (·.id)
  · obtain ⟨q, hq, same⟩ := List.mem_map.1 old
    rw [served.entered_of_running distinct hp hq same]
    refine or_congr_right ⟨fun h => ⟨q, hq, same, h⟩, ?_⟩
    rintro ⟨q', hq', same', h⟩
    rwa [r.before.eq_of_id hq hq' (same.trans same'.symm)]
  · rw [fresh_execute hp old, served.enters_of_added distinct hp old, or_iff_left]
    rintro ⟨q, hq, same, -⟩
    exact old (same ▸ List.mem_map_of_mem hq)

/-- A process that runs, and was brought to a step before the last request, has run before it. -/
theorem Served.running_of_enters (served : Served scripts log r.before)
    (distinct : r.after.IdsDistinct) (hp : p ∈ r.after.instances)
    (known : ∃ e ∈ log, e.Enters p.id k) : p.id ∈ r.before.instances.map (·.id) := by
  rcases (served.outcome distinct).origin hp with running | ⟨new, -⟩ | ⟨old, -⟩
  · exact List.mem_map_of_mem running
  · have issued := served.issued_of_enters (.of_execute r.run distinct) known
    exact absurd new (distinct.not_new issued)
  · exact old

/-- **The steps that a process has entered.** They are those on which answers have shown it, and the one
on which a failed request has left it behind. -/
theorem Served.mem_entered_iff (served : Served scripts log server) (distinct : server.IdsDistinct)
    (hp : p ∈ server.instances) : k ∈ p.entered ↔ ∃ r ∈ log, r.Enters p.id k := by
  induction served generalizing p with
  | new => cases hp
  | withUser _ _ _ ih => exact ih distinct hp
  | store _ _ _ ih => exact ih distinct hp
  | failNext _ _ ih => exact ih distinct hp
  | @execute log server served request ih =>
    have distinct' : server.IdsDistinct := .of_execute (Reply.mk server request).run distinct
    have before : (∃ q ∈ server.instances, q.id = p.id ∧ k ∈ q.entered) ↔
        ∃ r ∈ log, r.Enters p.id k := by
      constructor
      · rintro ⟨q, hq, same, h⟩
        exact same ▸ (ih distinct' hq).1 h
      · intro known
        obtain ⟨q, hq, same⟩ := List.mem_map.1
          (served.running_of_enters (r := ⟨server, request⟩) distinct hp known)
        exact ⟨q, hq, same, (ih distinct' hq).2 (same ▸ known)⟩
    rw [served.entered_step (r := ⟨server, request⟩) distinct hp, before, or_comm]
    simp only [List.mem_append, List.mem_singleton, or_and_right, exists_or, exists_eq_left]

end Positions

/-! ## What an answer accounts for -/

/-- A successful answer accounts for the processes that the request has added. -/
structure Accounted (scripts : KeyMap Script) (r : Reply) (s : Snapshot) : Prop where
  /-- No process is shown twice. -/
  once : s.ids.Nodup
  /-- The processes that were added are those that are shown for the first time. -/
  added : ∀ x, x ∈ r.after.instances.map (·.id) ∧ x ∉ r.before.instances.map (·.id) ↔
    x ∈ (r.request.news s).flatMap Snapshot.ids
  root : ∀ d, r.request = .start d →
    s.processName = d.name ∧ Sprouted scripts r.after.instances none 0 s
  below : ∀ u mode event, r.request = .continue u mode event → ∀ t ∈ s.children,
    ∃ p ∈ r.after.instances, p.id = s.id ∧
      Sprouted scripts r.after.instances (some s.id) (p.depth + 1) t

/-- What an answer shows on a step has spawned the processes of the step if it has come there for the first
time, and is less than four levels down. Otherwise it has spawned nothing. -/
def SpawnsAtFirst (earlier : List Reply) (r : Reply) (s : Snapshot) : Prop :=
  ∀ t ∈ s.nodes, t.finished = false → ∃ p ∈ r.after.instances, ∃ step, t.Shows p step ∧
    (p.depth < 4 → (∀ e ∈ earlier, ¬ e.Enters t.id p.index) →
      t.children.map (·.processName) = step.spawn) ∧
    (4 ≤ p.depth ∨ (∃ e ∈ earlier, e.Enters t.id p.index) → t.children = [])

section Accounted

variable {scripts : List Script} {log earlier later : List Reply} {r : Reply} {server : Server}
  {s t : Snapshot} {x : Uuid} {k : Nat}

/-- What has spawned the names of some processes or none, and whether it was on its step before. -/
theorem spawned_of_eq {depth : Nat} {new : Prop} [Decidable new] {ts : List Snapshot}
    {names : List String}
    (h : ts.map (·.processName) = if new ∧ depth < 4 then names else [])
    (known : ¬ new ↔ ∃ e ∈ earlier, e.Enters x k) :
    (depth < 4 → (∀ e ∈ earlier, ¬ e.Enters x k) → ts.map (·.processName) = names) ∧
      (4 ≤ depth ∨ (∃ e ∈ earlier, e.Enters x k) → ts = []) := by
  constructor
  · intro high unknown
    have first : new := by
      by_contra old
      obtain ⟨e, he, enters⟩ := known.1 old
      exact unknown e he enters
    rw [h, if_pos ⟨first, high⟩]
  · rw [← known]
    intro barren
    rw [if_neg fun both => barren.elim (Nat.not_le_of_lt both.2) (absurd both.1)] at h
    exact List.map_eq_nil_iff.1 h

/-- An answer that shows a process on a step tells whether it has come there before. -/
theorem Served.spawnsAtFirst (served : Served scripts earlier r.before)
    (distinct : r.after.IdsDistinct) (answer : r.answer = .ok s) : SpawnsAtFirst earlier r s := by
  intro t ht going
  have distinct' : r.before.IdsDistinct := .of_execute r.run distinct
  have outcome := served.outcome distinct
  rw [answer] at outcome
  cases outcome.arrival served.titled (served.reached.sound distinct') distinct ht going with
  | started sprouted new =>
    have unknown {k : Nat} : ¬ ∃ e ∈ earlier, e.Enters t.id k :=
      fun known => distinct.not_new (served.issued_of_enters distinct' known) new
    cases sprouted with
    | @mk _ _ _ p step running _ shows _ _ _ hdepth _ spawned =>
      subst hdepth
      have spawned : t.children.map (·.processName) =
          if True ∧ p.depth < 4 then step.spawn else [] :=
        spawned.trans (if_congr (true_and _).symm.to_iff rfl rfl)
      exact ⟨p, running, step, shows, spawned_of_eq spawned
        (iff_of_false (not_not_intro trivial) unknown)⟩
  | @resumed p q step running subject resumes reared =>
    have hid : t.id = p.id := reared.shows.id.trans resumes.id
    refine ⟨q.arrived, reared.running, step, reared.shows, spawned_of_eq reared.spawned ?_⟩
    rw [not_not, resumes.entered, hid]
    exact served.mem_entered_iff distinct' running

/-- A process that runs after an answer has shown it is not shown as finished. -/
theorem Served.unfinished (served : Served scripts earlier r.before) (distinct : r.after.IdsDistinct)
    (answer : r.answer = .ok s) (ht : t ∈ s.nodes) {p : Instance} (hp : p ∈ r.after.instances)
    (hid : t.id = p.id) : t.finished = false := by
  have outcome := served.outcome distinct
  rw [answer] at outcome
  exact (outcome.agrees hp ht hid).unfinished

/-- What has spawned others on a step is shown on it. -/
theorem Served.positions_of_rears (served : Served scripts earlier r.before)
    (distinct : r.after.IdsDistinct) (rears : r.Rears x k) : r.Positions x k := by
  obtain ⟨s, answer, t, ht, -, rfl, p, hp, hid, rfl⟩ := rears
  exact ⟨s, answer, t, ht, served.unfinished distinct answer ht hp hid.symm, rfl, p, hp, hid, rfl⟩

/-- A process that has come to a step before spawns nothing there. -/
theorem Served.not_rears (served : Served scripts earlier r.before) (distinct : r.after.IdsDistinct)
    (old : ∃ e ∈ earlier, e.Enters x k) : ¬ r.Rears x k := by
  rintro ⟨s, answer, t, ht, reared, rfl, p, hp, hid, rfl⟩
  obtain ⟨q, hq, step, shows, -, barren⟩ := served.spawnsAtFirst distinct answer t ht
    (served.unfinished distinct answer ht hp hid.symm)
  obtain rfl := r.after.eq_of_id hp hq (hid.trans shows.id)
  exact reared (barren (.inr old))

/-- Where every script has steps and spawns only what is scripted, nothing is left behind. -/
theorem Served.not_strands (served : Served scripts earlier r.before) (distinct : r.after.IdsDistinct)
    (complete : Complete (ofScripts scripts).scripts) : ¬ r.Strands x k := by
  rintro ⟨⟨e, failed⟩, new, p, hp, rfl, -⟩
  have distinct' : r.before.IdsDistinct := .of_execute r.run distinct
  have run := r.run
  rw [failed] at run
  rw [← served.scripts_eq] at complete
  have same := complete.instances_of_error (served.reached.sound distinct') run distinct'
  exact new (same ▸ List.mem_map_of_mem hp)

/-- **What answers account for.** In every run, the answer to each successful request accounts for the
processes that were added. Processes have spawned others exactly on the steps where answers show them for
the first time, but for those that failed requests have left behind: when an answer shows one of these
for the first time, on the step where it was left, it does not show what that process has spawned there.
Nothing is left behind where every script has steps and spawns only what is scripted. What a process has
spawned on a step is shown by one answer at most. -/
theorem Served.accounted (served : Served scripts log server) (distinct : server.IdsDistinct) :
    (∀ earlier r later s, log = earlier ++ r :: later → r.answer = .ok s →
      Accounted (ofScripts scripts).scripts r s ∧ SpawnsAtFirst earlier r s) ∧
    (Complete (ofScripts scripts).scripts → ∀ r ∈ log, ∀ x k, ¬ r.Strands x k) ∧
    ∀ x k earlier r later, log = earlier ++ r :: later → r.Rears x k →
      ∀ r' ∈ later, ¬ r'.Rears x k := by
  refine ⟨fun earlier r later s h answer => ?_, fun complete r hr x k => ?_,
    fun x k earlier r later h rears r' hr' => ?_⟩
  · obtain ⟨before, hle⟩ := served.split h
    have distinct := distinct.of_le hle
    refine ⟨?_, before.spawnsAtFirst distinct answer⟩
    have sound := before.reached.sound (.of_execute r.run distinct)
    have outcome := before.outcome distinct
    rw [answer] at outcome
    rw [← before.scripts_eq]
    refine ⟨outcome.nodup_ids, fun x => outcome.added_iff, fun d start => ?_,
      fun u mode event continues t ht => ?_⟩
    · rw [start] at outcome
      exact outcome.root before.titled sound distinct
    · rw [continues] at outcome
      exact outcome.below before.titled sound distinct ht
  · obtain ⟨earlier, later, h⟩ := List.append_of_mem hr
    obtain ⟨before, hle⟩ := served.split h
    exact before.not_strands (distinct.of_le hle) complete
  · obtain ⟨middle, last, rfl⟩ := List.append_of_mem hr'
    have h' : log = (earlier ++ r :: middle) ++ r' :: last := by
      rw [h, List.append_assoc, List.cons_append]
    obtain ⟨before, hle⟩ := served.split h
    obtain ⟨before', hle'⟩ := served.split h'
    refine before'.not_rears (distinct.of_le hle') ⟨r, ?_, ?_⟩
    · exact List.mem_append_right _ List.mem_cons_self
    · exact .inl (before.positions_of_rears (distinct.of_le hle) rears)

/-- An order that spawns a bundle, and then something that is not scripted. The bundle spawns a note. -/
def bundleScripts : List Script :=
  [⟨"Order", "", [⟨"Address", none, [], false, false, false, ["Bundle", "Missing"]⟩]⟩,
    ⟨"Bundle", "", [⟨"Items", none, [], false, false, false, ["Note"]⟩]⟩,
    ⟨"Note", "", [⟨"Text", none, [], false, false, false, []⟩]⟩]

/-- The order cannot be started, and a bundle with a note is left behind. -/
def orderLost : Reply := ⟨ofScripts bundleScripts, .start ⟨"Order", none, "en-US", .none⟩⟩

/-- A bundle is started on its own. -/
def bundleStart : Reply := ⟨orderLost.after, .start ⟨"Bundle", none, "en-US", .none⟩⟩

/-- Its step is shown once more. -/
def bundleReload : Reply :=
  ⟨bundleStart.after, .continue (.ofStep (.issued 3) "Bundle" "Items") .reload none⟩

/-- The note is shown when the bundle is started, and not when its step is shown once more. -/
theorem accounted_bundleReload :
    Served bundleScripts [orderLost, bundleStart, bundleReload] bundleReload.after ∧
      bundleReload.after.IdsDistinct ∧ bundleStart.Rears (.issued 3) 0 ∧
      ¬ bundleReload.Rears (.issued 3) 0 := by
  have served : Served bundleScripts [orderLost, bundleStart, bundleReload] bundleReload.after :=
    .execute (.execute (.execute .new _) _) _
  have distinct : bundleReload.after.IdsDistinct := idsDistinct_of_le (by decide)
  have rears : bundleStart.Rears (.issued 3) 0 :=
    ⟨_, rfl, _, Snapshot.mem_nodes_self _, List.cons_ne_nil _ _, rfl, _, List.mem_cons_self, rfl, rfl⟩
  obtain ⟨-, -, once⟩ := served.accounted distinct
  exact ⟨served, distinct, rears,
    once (.issued 3) 0 [orderLost] bundleStart [bundleReload] rfl rears bundleReload
      List.mem_cons_self⟩

/-- The step of the bundle that was left behind is shown. -/
def lostReload : Reply :=
  ⟨orderLost.after, .continue (.ofStep (.issued 1) "Bundle" "Items") .reload none⟩

/-- This is the first answer that shows the bundle that was left behind, and it does not show the note. -/
theorem accounted_lostReload :
    Served bundleScripts [orderLost] lostReload.before ∧ lostReload.after.IdsDistinct ∧
      ∃ s, lostReload.answer = .ok s ∧ s.finished = false ∧ s.children = [] ∧
        ∃ p ∈ lostReload.after.instances, ∃ step, s.Shows p step ∧ step.spawn = ["Note"] ∧
          p.depth < 4 ∧ ∀ e ∈ [orderLost], ¬ e.Positions s.id p.index := by
  refine ⟨.execute .new _, idsDistinct_of_le (by decide), _, rfl, rfl, rfl, _, List.mem_cons_self, _,
    .snapshot rfl [], rfl, by decide, fun e he => ?_⟩
  obtain rfl := List.mem_singleton.1 he
  rintro ⟨s, answer, -⟩
  cases answer

end Accounted

end Server

end Stepwise
