/-
# Spawning processes

A process that is started enters its first step, and the processes of that step are started before
it is kept. What comes out is a snapshot with the snapshots of all of them inside, and the server has
one new process for each.

* `Snapshot.Agrees` : a snapshot shows the step on which a process is positioned;
* `Snapshot.ids`, `Planted` : the processes inside a snapshot, and that they run as it says;
* `Server.Sound` : what holds of every process that runs;
* `Server.Grown`, `Server.grown_start` : what the start of a process adds to the server;
* `Server.Entered`, `Server.entered_of_run` : what it means for a running process to enter a step.
-/
import Stepwise.Proofs.Client.Reception
import Stepwise.Proofs.Server.Lineage
import Stepwise.Proofs.Server.Running

namespace Stepwise

/-! ## Snapshots and processes -/

/-- The snapshot shows the step on which the process is positioned. -/
structure Snapshot.Shows (s : Snapshot) (p : Instance) (step : ScriptStep) : Prop where
  positioned : p.script.steps[p.index]? = some step
  id : s.id = p.id
  unfinished : s.finished = false
  name : s.step = step.step
  fields : s.parameters.map (·.name) = step.parameters.map (·.name)
  finalStep : s.finalStep = decide (p.index + 1 = p.script.steps.length)
  autoContinue : s.autoContinue = step.autoContinue
  canRollback : s.canRollback = (step.canRollback && 0 < p.index)
  immediateInteraction : s.immediateInteraction = step.immediateInteraction

/-- The snapshot shows the step of the process. -/
def Snapshot.Agrees (s : Snapshot) (p : Instance) : Prop := ∃ step, s.Shows p step

/-- What a process shows is its step, whatever children it is given. -/
theorem Snapshot.Shows.snapshot {p : Instance} {step : ScriptStep}
    (hstep : p.script.steps[p.index]? = some step) (children : List Snapshot) :
    { p.snapshot step with children }.Shows p.arrived step := by
  refine ⟨hstep, rfl, rfl, rfl, ?_, rfl, rfl, rfl, rfl⟩
  show (step.parameters.map p.parameter).map (·.name) = _
  rw [List.map_map]
  rfl

namespace Snapshot.Agrees

variable {s t : Snapshot} {p : Instance}

theorem id (h : s.Agrees p) : s.id = p.id := h.choose_spec.id

theorem unfinished (h : s.Agrees p) : s.finished = false := h.choose_spec.unfinished

/-- Values and marks do not matter. -/
theorem clearModified (h : s.Agrees p) : s.clearModified.Agrees p := by
  obtain ⟨step, h⟩ := h
  refine ⟨step, { h with fields := ?_ }⟩
  rw [← h.fields, Snapshot.clearModified, List.map_map]
  rfl

theorem edit (h : s.Agrees p) {name : String} {value : Value} (hedit : s.edit? name value = some t) :
    t.Agrees p := by
  obtain ⟨step, h⟩ := h
  have hnames := names_edit? hedit
  obtain ⟨ps, -, rfl⟩ := Option.map_eq_some_iff.1 hedit
  exact ⟨step, { h with fields := hnames.trans h.fields }⟩

/-- What a process shows agrees with it, whatever children it is given. -/
theorem snapshot {step : ScriptStep} (hstep : p.script.steps[p.index]? = some step)
    (children : List Snapshot) : { p.snapshot step with children }.Agrees p.arrived :=
  ⟨step, .snapshot hstep children⟩

end Snapshot.Agrees

mutual
/-- The identifiers of a process and of all inside it. -/
def Snapshot.ids : Snapshot → List Uuid
  | ⟨id, _, _, _, _, _, _, _, _, _, children, _⟩ => id :: Snapshot.idsOfAll children
/-- The identifiers inside several snapshots. -/
def Snapshot.idsOfAll : List Snapshot → List Uuid
  | [] => []
  | s :: rest => s.ids ++ Snapshot.idsOfAll rest
end

theorem Snapshot.ids_eq (s : Snapshot) : s.ids = s.id :: s.children.flatMap ids := by
  have hall : ∀ ss : List Snapshot, idsOfAll ss = ss.flatMap ids := by
    intro ss
    induction ss with
    | nil => rw [idsOfAll]; rfl
    | cons s rest ih => rw [idsOfAll, ih, List.flatMap_cons]
  obtain ⟨_, _, _, _, _, _, _, _, _, _, children, _⟩ := s
  rw [ids, hall]

/-- The processes inside a snapshot run as it says, each below the one that holds it. -/
inductive Planted (instances : List Instance) : Option Uuid → Snapshot → Prop where
  | mk {parent : Option Uuid} {s : Snapshot} {p : Instance} (running : p ∈ instances)
      (agrees : s.Agrees p) (hparent : p.parent = parent)
      (children : ∀ t ∈ s.children, Planted instances (some s.id) t) : Planted instances parent s

/-- Only the processes inside a snapshot matter. -/
theorem Planted.mono {instances others : List Instance} {parent : Option Uuid} {s : Snapshot}
    (h : Planted instances parent s)
    (sub : ∀ p ∈ instances, p.id ∈ s.ids → p ∈ others) : Planted others parent s := by
  induction h with
  | @mk parent s p running agrees hparent children ih =>
    rw [s.ids_eq] at sub
    refine .mk (sub p running ?_) agrees hparent fun t ht => ih t ht fun q hq hid => sub q hq ?_
    · rw [agrees.id]
      exact List.mem_cons_self
    · exact List.mem_cons_of_mem _ (List.mem_flatMap.2 ⟨t, ht, hid⟩)

/-- The processes inside a snapshot descend from the one that shows it. -/
theorem Planted.descends {instances : List Instance} {parent : Option Uuid} {s : Snapshot}
    (h : Planted instances parent s) {x : Uuid} (hx : x ∈ s.ids) : Descends instances s.id x := by
  induction h with
  | @mk parent s p running agrees hparent children ih =>
    rw [s.ids_eq] at hx
    rcases List.mem_cons.1 hx with rfl | hx
    · exact .self
    · obtain ⟨t, ht, hx⟩ := List.mem_flatMap.1 hx
      refine Descends.trans ?_ (ih t ht hx)
      cases children t ht with
      | @mk _ _ q runningT agreesT hparentT =>
        rw [agreesT.id]
        exact .link runningT hparentT .self

/-- The parent of a process inside a snapshot is inside it as well, or is that of the snapshot. -/
theorem Planted.parent_of_mem {server : Server} {parent : Option Uuid} {s : Snapshot}
    (h : Planted server.instances parent s) {p : Instance} (hp : p ∈ server.instances)
    (hid : p.id ∈ s.ids) : p.parent = parent ∨ ∃ x ∈ s.ids, p.parent = some x := by
  induction h with
  | @mk parent s q running agrees hparent children ih =>
    rw [s.ids_eq] at hid ⊢
    rcases List.mem_cons.1 hid with heq | hid
    · rw [server.eq_of_id hp running (heq.trans agrees.id)]
      exact .inl hparent
    · obtain ⟨t, ht, hid⟩ := List.mem_flatMap.1 hid
      rcases ih t ht hid with heq | ⟨x, hx, heq⟩
      · exact .inr ⟨s.id, List.mem_cons_self, heq⟩
      · exact .inr ⟨x, List.mem_cons_of_mem _ (List.mem_flatMap.2 ⟨t, ht, hx⟩), heq⟩

/-! ## Sound servers -/

/-- What holds of a process that runs: it is positioned on a step of one of the scripts, and its
identifier was given out, later than that of its parent. -/
structure Instance.Fits (p : Instance) (server : Server) : Prop where
  placed : p.index < p.script.steps.length
  scripted : ∃ name, server.scripts.get? name = some p.script
  numbered : ∃ n < server.issued, p.HasNumber n

theorem Instance.Fits.forward {p : Instance} {before after : Server} (h : p.Fits before)
    (precedes : before.Precedes after) : p.Fits after := by
  obtain ⟨n, hn, hnumber⟩ := h.numbered
  refine ⟨h.placed, ?_, n, Nat.lt_of_lt_of_le hn precedes.issued, hnumber⟩
  rw [precedes.scripts]
  exact h.scripted

namespace Server

variable {before middle after : Server} {parent : Option Uuid} {ss : List Snapshot} {s : Snapshot}

/-- All processes that run fit. -/
def Sound (server : Server) : Prop := ∀ p ∈ server.instances, p.Fits server

theorem Sound.numbered (sound : before.Sound) : before.Numbered := fun p hp => (sound p hp).numbered

/-- Of a sound server some processes may end. -/
theorem Sound.of_subset (sound : before.Sound) (precedes : before.Precedes after)
    (sub : ∀ p ∈ after.instances, p ∈ before.instances) : after.Sound :=
  fun p hp => (sound p (sub p hp)).forward precedes

/-- An identifier that was not given out belongs to nobody. -/
theorem Sound.not_mem_of_le (sound : before.Sound) (distinct : after.IdsDistinct) {n : Nat}
    (hle : before.issued ≤ n) (hlt : n < after.issued) :
    Uuid.issued n ∉ before.instances.map (·.id) := by
  intro hmem
  obtain ⟨p, hp, hid⟩ := List.mem_map.1 hmem
  obtain ⟨m, hm, hpm, -⟩ := (sound p hp).numbered
  exact distinct.not_new ⟨m, hm, hid.symm.trans hpm⟩ ⟨n, hle, hlt, rfl⟩

/-! ## What starting adds -/

/-- The server has the processes inside some snapshots in addition, below the same parent. -/
structure Grown (parent : Option Uuid) (before after : Server) (ss : List Snapshot) : Prop where
  kept : ∀ p ∈ before.instances, p ∈ after.instances
  ids : (after.instances.map (·.id)).Perm
    (ss.flatMap Snapshot.ids ++ before.instances.map (·.id))
  new : ∀ x ∈ ss.flatMap Snapshot.ids, ∃ n, before.issued ≤ n ∧ n < after.issued ∧ x = .issued n
  planted : ∀ s ∈ ss, Planted after.instances parent s
  sound : after.Sound

theorem Grown.refl (parent : Option Uuid) (sound : before.Sound) : Grown parent before before [] :=
  ⟨fun _ hp => hp, .refl _, nofun, nofun, sound⟩

theorem Grown.append {others : List Snapshot} (first : Grown parent before middle ss)
    (second : Grown parent middle after others) (hfirst : before.Precedes middle)
    (hsecond : middle.Precedes after) : Grown parent before after (ss ++ others) := by
  refine ⟨fun p hp => second.kept p (first.kept p hp), ?_, ?_, ?_, second.sound⟩
  · rw [List.flatMap_append]
    refine second.ids.trans ((first.ids.append_left _).trans ?_)
    rw [← List.append_assoc]
    exact List.perm_append_comm.append_right _
  · intro x hx
    have hle := hfirst.issued
    have hle' := hsecond.issued
    rw [List.flatMap_append] at hx
    rcases List.mem_append.1 hx with hx | hx
    · obtain ⟨n, hn, hlt, heq⟩ := first.new x hx
      exact ⟨n, hn, by omega, heq⟩
    · obtain ⟨n, hn, hlt, heq⟩ := second.new x hx
      exact ⟨n, by omega, hlt, heq⟩
  · intro s hs
    rcases List.mem_append.1 hs with hs | hs
    · exact (first.planted s hs).mono fun p hp _ => second.kept p hp
    · exact second.planted s hs

/-- The parent's identifier was given out. -/
def Issued (server : Server) (parent : Option Uuid) : Prop :=
  ∀ x, parent = some x → ∃ k < server.issued, x = .issued k

theorem Issued.forward (h : before.Issued parent) (precedes : before.Precedes after) :
    after.Issued parent := by
  intro x hx
  obtain ⟨k, hk, heq⟩ := h x hx
  exact ⟨k, Nat.lt_of_lt_of_le hk precedes.issued, heq⟩

/-- A computation that starts a process below a parent, and does no more. -/
def Starts (parent : Option Uuid) (act : Run Snapshot) : Prop :=
  ∀ {before after : Server} {s : Snapshot}, before.run act = (.ok s, after) → before.Sound →
    before.Issued parent → after.IdsDistinct → Grown parent before after [s]

theorem grown_spawnAll {f : String → Run Snapshot} (forward : ∀ name, Forward (f name))
    (starts : ∀ name, Starts parent (f name)) {names : List String} {before : Server}
    (h : before.run (spawnAll f names) = (.ok ss, after)) (sound : before.Sound)
    (issued : before.Issued parent) (distinct : after.IdsDistinct) :
    Grown parent before after ss := by
  induction names generalizing before ss with
  | nil =>
    cases h
    exact .refl parent sound
  | cons name rest ih =>
    obtain ⟨s, middle, hs, hrest⟩ := run_bind_ok.1 h
    obtain ⟨others, _, hothers, hpure⟩ := run_bind_ok.1 hrest
    cases hpure
    have hfirst : before.Precedes middle := by
      have := forward name before
      rwa [hs] at this
    have hsecond : middle.Precedes after := by
      have := forward_spawnAll forward rest middle
      rwa [hothers] at this
    have first := starts name hs sound issued (distinct.of_le hsecond.issued)
    exact first.append (ih hothers first.sound (issued.forward hfirst)) hfirst hsecond

/-- When a process enters a step, the processes of the step are spawned below it, and then it is
kept. -/
theorem grown_enter {p : Instance} {spawn : Option (String → Run Snapshot)}
    (forward : ∀ f, spawn = some f → ∀ name, Forward (f name))
    (starts : ∀ f, spawn = some f → ∀ name, Starts (some p.id) (f name))
    (h : before.run (enter p spawn) = (.ok s, after)) (sound : before.Sound)
    (issued : before.Issued (some p.id)) (distinct : after.IdsDistinct) :
    ∃ step middle, p.script.steps[p.index]? = some step ∧
      s = { p.snapshot step with children := s.children } ∧
      after = middle.keep p.arrived ∧ before.Precedes middle ∧
      Grown (some p.id) before middle s.children := by
  obtain ⟨step, children, middle, hstep, rfl, rfl, hspawn⟩ := run_enter_ok h
  refine ⟨step, middle, hstep, rfl, rfl, ?_⟩
  rcases run_spawnings_ok hspawn with ⟨rfl, rfl, -⟩ | ⟨f, hf, -, hspawn⟩
  · exact ⟨.refl _, .refl _ sound⟩
  · have hprecedes := forward_spawnAll (forward f hf) step.spawn before
    rw [hspawn] at hprecedes
    exact ⟨hprecedes, grown_spawnAll (forward f hf) (starts f hf) hspawn sound issued distinct⟩

/-- Starting a process adds it and what it spawns. -/
theorem grown_newborn {levels : Nat} {input : Option Value} {script : Script} {name : String}
    (starts : ∀ f, spawnerAt levels (.issued before.issued) = some f →
      ∀ name, Starts (some (.issued before.issued)) (f name))
    (hscript : before.scripts.get? name = some script)
    (h : { before with issued := before.issued + 1 }.run
      (enter (newborn levels input parent script (.issued before.issued))
        (spawnerAt levels (.issued before.issued))) = (.ok s, after))
    (sound : before.Sound) (issued : before.Issued parent) (distinct : after.IdsDistinct) :
    Grown parent before after [s] := by
  have hnext : before.Precedes { before with issued := before.issued + 1 } :=
    ⟨rfl, rfl, Nat.le_succ _⟩
  have hself : Issued { before with issued := before.issued + 1 } (some (.issued before.issued)) :=
    fun x hx => ⟨before.issued, Nat.lt_succ_self _, (Option.some.inj hx).symm⟩
  obtain ⟨step, middle, hstep, hs, rfl, hprecedes, grown⟩ :=
    grown_enter (fun f hf => forward_spawnerAt hf) starts h (sound.of_subset hnext fun _ hp => hp)
      hself distinct
  have hissued : before.issued + 1 ≤ middle.issued := hprecedes.issued
  -- nobody else has the identifier of the new process, not even what it spawns
  have hid : Uuid.issued before.issued ∉ middle.instances.map (·.id) := by
    rw [grown.ids.mem_iff, List.mem_append]
    rintro (hmem | hmem)
    · exact distinct.not_new ⟨before.issued, Nat.lt_succ_self _, rfl⟩ (grown.new _ hmem)
    · exact sound.not_mem_of_le (distinct.of_le (Nat.le_refl middle.issued)) (Nat.le_refl _) hissued
        hmem
  have hne : ∀ p ∈ middle.instances, p.id ≠ .issued before.issued :=
    fun p hp heq => hid (heq ▸ List.mem_map_of_mem hp)
  have hkept : ∀ p ∈ middle.instances,
      p ∈ (middle.keep
        (newborn levels input parent script (.issued before.issued)).arrived).instances :=
    fun p hp => mem_keep.2 (.inr ⟨hp, hne p hp⟩)
  have hsid : s.id = .issued before.issued := by
    rw [hs]
    rfl
  have hids : [s].flatMap Snapshot.ids =
      .issued before.issued :: s.children.flatMap Snapshot.ids := by
    rw [List.flatMap_singleton, s.ids_eq, hsid]
  refine ⟨fun p hp => hkept p (grown.kept p hp), ?_, ?_, ?_, ?_⟩
  · rw [hids, ids_keep_new hid]
    exact grown.ids.cons _
  · intro x hx
    rw [hids] at hx
    rcases List.mem_cons.1 hx with rfl | hx
    · exact ⟨before.issued, Nat.le_refl _, hissued, rfl⟩
    · obtain ⟨n, hn, hlt, heq⟩ := grown.new x hx
      exact ⟨n, Nat.le_of_succ_le hn, hlt, heq⟩
  · intro t ht
    obtain rfl := List.mem_singleton.1 ht
    refine .mk (mem_keep.2 (.inl rfl)) (hs ▸ .snapshot hstep _) rfl fun u hu => ?_
    rw [hsid]
    exact (grown.planted u hu).mono fun p hp _ => hkept p hp
  · intro p hp
    rcases mem_keep.1 hp with rfl | ⟨hp, -⟩
    · refine ⟨(List.getElem?_eq_some_iff.1 hstep).1, ⟨name, ?_⟩, before.issued, hissued, rfl, issued⟩
      show middle.scripts.get? name = some script
      rw [hprecedes.scripts]
      exact hscript
    · exact (grown.sound p hp).forward (precedes_keep middle _)

theorem grown_start (levels : Nat) :
    ∀ (name : String) (input : Option Value) (parent : Option Uuid),
      Starts parent (start levels name input parent) := by
  induction levels using Nat.strongRecOn with
  | ind levels ih =>
    intro name input parent before after s h sound issued distinct
    obtain ⟨script, hscript, h⟩ := run_start_ok h
    refine grown_newborn (fun f hf name => ?_) hscript h sound issued distinct
    obtain ⟨l, rfl, rfl⟩ := exists_of_spawnerAt hf
    exact ih l (Nat.lt_succ_self l) name none _

/-! ## Entering a step of a running process -/

/-- A process shows a step: it is in its old place, the processes inside some snapshots were added below
it, and all others are as they were. -/
structure Entered (before after : Server) (p : Instance) (s : Snapshot) (ss : List Snapshot) :
    Prop where
  shown : ∃ q ∈ after.instances, q.id = p.id ∧ q.parent = p.parent ∧ s.Agrees q
  kept : ∀ q ∈ before.instances, q.id ≠ p.id → q ∈ after.instances
  ids : (after.instances.map (·.id)).Perm
    (ss.flatMap Snapshot.ids ++ before.instances.map (·.id))
  new : ∀ x ∈ ss.flatMap Snapshot.ids, ∃ n, before.issued ≤ n ∧ n < after.issued ∧ x = .issued n
  planted : ∀ t ∈ ss, Planted after.instances (some p.id) t
  sound : after.Sound

/-- A running process that enters a step has entered it. -/
theorem entered_of_run {p q : Instance} (hp : p ∈ before.instances) (hid : q.id = p.id)
    (hparent : q.parent = p.parent) (hscript : q.script = p.script)
    (h : before.run (enter q (spawner q)) = (.ok s, after)) (sound : before.Sound)
    (distinct : after.IdsDistinct) : Entered before after p s s.children := by
  obtain ⟨n, hn, hpn, hearlier⟩ := (sound p hp).numbered
  have hself : before.Issued (some q.id) := fun x hx =>
    ⟨n, hn, (Option.some.inj hx).symm.trans (hid.trans hpn)⟩
  have starts : ∀ f, spawner q = some f → ∀ name, Starts (some q.id) (f name) := by
    intro f hf name
    obtain ⟨levels, -, rfl⟩ := exists_of_spawner hf
    exact grown_start levels name none _
  obtain ⟨step, middle, hstep, hs, rfl, hprecedes, grown⟩ :=
    grown_enter (fun f hf => forward_spawnerAt hf) starts h sound hself distinct
  have hmem : q.id ∈ middle.instances.map (·.id) := by
    rw [hid]
    exact List.mem_map_of_mem (grown.kept p hp)
  refine ⟨⟨_, mem_keep.2 (.inl rfl), hid, hparent, hs ▸ .snapshot hstep _⟩, fun r hr hne =>
    mem_keep.2 (.inr ⟨grown.kept r hr, fun heq => hne (heq.trans hid)⟩), (ids_keep_old hmem).trans
    grown.ids, grown.new, ?_, ?_⟩
  · intro t ht
    rw [← hid]
    refine (grown.planted t ht).mono fun r hr hrt => mem_keep.2 (.inr ⟨hr, fun heq => ?_⟩)
    -- what was spawned has new identifiers
    exact distinct.not_new ⟨n, hn, heq.trans (hid.trans hpn)⟩
      (grown.new r.id (List.mem_flatMap.2 ⟨t, ht, hrt⟩))
  · intro r hr
    rcases mem_keep.1 hr with rfl | ⟨hr, -⟩
    · have fits := ((sound p hp).forward hprecedes).forward (precedes_keep middle q.arrived)
      obtain ⟨m, hm, hpm, hless⟩ := fits.numbered
      refine ⟨(List.getElem?_eq_some_iff.1 hstep).1, ?_, m, hm, hid.trans hpm, ?_⟩
      · show ∃ name, (middle.keep _).scripts.get? name = some q.script
        rw [hscript]
        exact fits.scripted
      · show ∀ x, q.parent = some x → ∃ k < m, x = .issued k
        rw [hparent]
        exact hless
    · exact (grown.sound r hr).forward (precedes_keep middle _)

namespace Entered

variable {p : Instance}

/-- Nothing has changed. -/
theorem of_same (hp : p ∈ before.instances) (agrees : s.Agrees p)
    (same : after.instances = before.instances) (sound : after.Sound) :
    Entered before after p s [] := by
  refine ⟨⟨p, same ▸ hp, rfl, rfl, agrees⟩, fun q hq _ => same ▸ hq, ?_, nofun, nofun, sound⟩
  rw [same]
  exact .refl _

/-- What was added had no identifier before. -/
theorem new_ne (entered : Entered before after p s ss) (distinct : after.IdsDistinct)
    (precedes : before.Precedes after) {x : Uuid} (hx : x ∈ ss.flatMap Snapshot.ids) {n : Nat}
    (hn : n < before.issued) : x ≠ .issued n := by
  rintro rfl
  obtain ⟨m, hm, hlt, heq⟩ := entered.new _ hx
  have hle := precedes.issued
  have := distinct n (by omega) m hlt heq
  omega

/-- Processes that ran before have kept their identifiers and parents. -/
theorem exists_after (entered : Entered before after p s ss) (hp : p ∈ before.instances)
    {q : Instance} (hq : q ∈ before.instances) :
    ∃ r ∈ after.instances, r.id = q.id ∧ r.parent = q.parent := by
  by_cases hid : q.id = p.id
  · obtain ⟨r, hr, hrid, hparent, -⟩ := entered.shown
    rw [before.eq_of_id hq hp hid]
    exact ⟨r, hr, hrid, hparent⟩
  · exact ⟨q, entered.kept q hq hid, rfl, rfl⟩

/-- A process that runs afterwards has run before, with the same parent, or was added below. -/
theorem exists_before (entered : Entered before after p s ss) (hp : p ∈ before.instances)
    {r : Instance} (hr : r ∈ after.instances) :
    (∃ q ∈ before.instances, q.id = r.id ∧ q.parent = r.parent) ∨
      r.id ∈ ss.flatMap Snapshot.ids ∧
        ∃ x, r.parent = some x ∧ (x = p.id ∨ x ∈ ss.flatMap Snapshot.ids) := by
  have hmem := entered.ids.mem_iff.1 (List.mem_map_of_mem hr)
  rcases List.mem_append.1 hmem with hnew | hold
  · obtain ⟨t, ht, hid⟩ := List.mem_flatMap.1 hnew
    refine .inr ⟨hnew, ?_⟩
    rcases (entered.planted t ht).parent_of_mem hr hid with heq | ⟨x, hx, heq⟩
    · exact ⟨p.id, heq, .inl rfl⟩
    · exact ⟨x, heq, .inr (List.mem_flatMap.2 ⟨t, ht, hx⟩)⟩
  · obtain ⟨q, hq, hid⟩ := List.mem_map.1 hold
    obtain ⟨r', hr', hrid, hparent⟩ := entered.exists_after hp hq
    rw [after.eq_of_id hr hr' (hid.symm.trans hrid.symm)]
    exact .inl ⟨q, hq, hrid.symm, hparent.symm⟩

/-- What was added descends from the process. -/
theorem descends (entered : Entered before after p s ss) {x : Uuid}
    (hx : x ∈ ss.flatMap Snapshot.ids) : Descends after.instances p.id x := by
  obtain ⟨t, ht, hx⟩ := List.mem_flatMap.1 hx
  refine Descends.trans ?_ ((entered.planted t ht).descends hx)
  cases entered.planted t ht with
  | @mk _ _ q running agrees hparent =>
    rw [agrees.id]
    exact .link running hparent .self

/-- A process that nothing descended from has no descendants afterwards either. -/
theorem childless (entered : Entered before after p s ss) (hp : p ∈ before.instances)
    (distinct : after.IdsDistinct) (precedes : before.Precedes after) {a : Uuid} {n : Nat}
    (hn : n < before.issued) (ha : a = .issued n)
    (childless : ∀ q ∈ before.instances, ¬ Descends before.instances a q.id) :
    ∀ r ∈ after.instances, ¬ Descends after.instances a r.id := by
  have hanew : a ∉ ss.flatMap Snapshot.ids := fun hx => entered.new_ne distinct precedes hx hn ha
  -- on the way up from any process to `a`, all are new
  have key : ∀ x, Descends after.instances a x → x = a := by
    intro x h
    induction h with
    | self => rfl
    | @link r y running hparent above ih =>
      subst ih
      rcases entered.exists_before hp running with ⟨q, hq, hid, hqparent⟩ | ⟨-, z, hz, hzp⟩
      · exact absurd (.link hq (hqparent.trans hparent) .self) (childless q hq)
      · obtain rfl := Option.some.inj (hparent.symm.trans hz)
        rcases hzp with rfl | hzp
        · exact absurd .self (childless p hp)
        · exact absurd hzp hanew
  intro r hr hdesc
  have hid := key r.id hdesc
  rcases entered.exists_before hp hr with ⟨q, hq, hqid, -⟩ | ⟨hnew, -⟩
  · refine childless q hq ?_
    rw [hqid, hid]
    exact .self
  · exact hanew (hid ▸ hnew)

end Entered

end Server

end Stepwise
