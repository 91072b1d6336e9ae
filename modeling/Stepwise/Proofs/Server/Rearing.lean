/-
# What requests spawn

A process spawns the processes of a step when it enters the step for the first time, unless it is too far
below the one that was started. What it has spawned is inside the snapshot that it shows, and what those
have spawned is inside theirs.

* `Sprouted`, `Server.sprouts_start` : processes that were started, and what they have spawned;
* `Reared`, `Server.reared_of_run` : what a process spawns when it enters a step.
-/
import Stepwise.Proofs.Server.Replies

namespace Stepwise

/-- A process was started at most four levels below another one, is on its first step, and has spawned
the processes of that step, unless it is on the fourth level. -/
inductive Sprouted (scripts : KeyMap Script) (instances : List Instance) :
    Option Uuid → Nat → Snapshot → Prop where
  | mk {parent : Option Uuid} {depth : Nat} {s : Snapshot} {p : Instance} {step : ScriptStep}
      (running : p ∈ instances) (scripted : scripts.get? s.processName = some p.script)
      (shows : s.Shows p step) (first : p.index = 0) (entered : p.entered = [0])
      (hparent : p.parent = parent) (hdepth : p.depth = depth) (bounded : depth ≤ 4)
      (spawned : s.children.map (·.processName) = if depth < 4 then step.spawn else [])
      (children : ∀ t ∈ s.children, Sprouted scripts instances (some s.id) (depth + 1) t) :
    Sprouted scripts instances parent depth s

open Server in
/-- A running process has entered a step. It has spawned the processes of the step if it was not there
before and is not too far down. -/
structure Reared (scripts : KeyMap Script) (instances : List Instance) (q : Instance)
    (step : ScriptStep) (s : Snapshot) : Prop where
  running : q.arrived ∈ instances
  shows : s.Shows q.arrived step
  named : s.processName = q.script.name
  spawned : s.children.map (·.processName) =
    if q.index ∉ q.entered ∧ q.depth < spawnLimit then step.spawn else []
  children : ∀ t ∈ s.children, Sprouted scripts instances (some s.id) (q.depth + 1) t

/-- Only the processes inside a snapshot matter. -/
theorem Sprouted.mono {scripts : KeyMap Script} {instances others : List Instance}
    {parent : Option Uuid} {depth : Nat} {s : Snapshot}
    (h : Sprouted scripts instances parent depth s)
    (sub : ∀ p ∈ instances, p.id ∈ s.ids → p ∈ others) : Sprouted scripts others parent depth s := by
  induction h with
  | @mk parent depth s p step running scripted shows first entered hparent hdepth bounded spawned
      children ih =>
    rw [s.ids_eq] at sub
    refine .mk (sub p running ?_) scripted shows first entered hparent hdepth bounded spawned
      fun t ht => ih t ht fun q hq hid => sub q hq ?_
    · rw [shows.id]
      exact List.mem_cons_self
    · exact List.mem_cons_of_mem _ (List.mem_flatMap.2 ⟨t, ht, hid⟩)

/-- All that is inside a snapshot of a process that was started is on its first step. -/
theorem Sprouted.of_mem {scripts : KeyMap Script} {instances : List Instance}
    {parent : Option Uuid} {depth : Nat} {s t : Snapshot}
    (h : Sprouted scripts instances parent depth s) (ht : t ∈ s.nodes) :
    ∃ parent depth, Sprouted scripts instances parent depth t := by
  induction h with
  | @mk parent depth s p step running scripted shows first entered hparent hdepth bounded spawned
      children ih =>
    rcases Snapshot.mem_nodes.1 ht with rfl | ⟨c, hc, ht⟩
    · exact ⟨parent, depth, .mk running scripted shows first entered hparent hdepth bounded spawned
        children⟩
    · exact ih c hc ht

namespace Server

variable {before after : Server} {parent : Option Uuid} {scripts : KeyMap Script} {s : Snapshot}
  {ss : List Snapshot}

/-! ## What starting a process spawns -/

/-- Scripts are found by their own names. -/
def Titled (scripts : KeyMap Script) : Prop :=
  ∀ name script, scripts.get? name = some script → script.name = name

/-- A computation that starts a process of a name so far below another one. -/
def Sprouts (scripts : KeyMap Script) (parent : Option Uuid) (depth : Nat) (name : String)
    (act : Run Snapshot) : Prop :=
  ∀ {before after : Server} {s : Snapshot}, before.run act = (.ok s, after) →
    before.scripts = scripts → before.Sound → before.Issued parent → after.IdsDistinct →
    s.processName = name ∧ Sprouted scripts after.instances parent depth s

theorem sprouted_spawnAll {f : String → Run Snapshot} {depth : Nat}
    (forward : ∀ name, Forward (f name)) (starts : ∀ name, Starts parent (f name))
    (sprouts : ∀ name, Sprouts scripts parent depth name (f name)) {names : List String}
    {before : Server} (h : before.run (spawnAll f names) = (.ok ss, after))
    (hscripts : before.scripts = scripts) (sound : before.Sound) (issued : before.Issued parent)
    (distinct : after.IdsDistinct) :
    ss.map (·.processName) = names ∧
      ∀ t ∈ ss, Sprouted scripts after.instances parent depth t := by
  induction names generalizing before ss with
  | nil =>
    cases h
    exact ⟨rfl, nofun⟩
  | cons name rest ih =>
    obtain ⟨s, middle, hs, hrest⟩ := run_bind_ok.1 h
    obtain ⟨others, _, hothers, hpure⟩ := run_bind_ok.1 hrest
    cases hpure
    have hfirst := forward name before
    rw [hs] at hfirst
    have hsecond := forward_spawnAll forward rest middle
    rw [hothers] at hsecond
    have distinct' := distinct.of_le hsecond.issued
    have sound' := (starts name hs sound issued distinct').sound
    have issued' := issued.forward hfirst
    have grown := grown_spawnAll forward starts hothers sound' issued' distinct
    obtain ⟨named, sprouted⟩ := sprouts name hs hscripts sound issued distinct'
    obtain ⟨names, all⟩ := ih hothers (hfirst.scripts.trans hscripts) sound' issued'
    refine ⟨by rw [List.map_cons, named, names], fun t ht => ?_⟩
    rcases List.mem_cons.1 ht with rfl | ht
    · exact sprouted.mono fun p hp _ => grown.kept p hp
    · exact all t ht

/-- What a process spawns when it enters a step, if it is known for those that it spawns. -/
theorem reared_of_sprouts {q : Instance}
    (sprouts : ∀ levels, levels < spawnLimit - q.depth → ∀ name,
      Sprouts scripts (some q.id) (spawnLimit - levels) name (start levels name none (some q.id)))
    (h : before.run (enter q (spawner q)) = (.ok s, after)) (hscripts : before.scripts = scripts)
    (sound : before.Sound) (issued : before.Issued (some q.id)) (distinct : after.IdsDistinct) :
    ∃ step, Reared scripts after.instances q step s := by
  obtain ⟨step, children, middle, hstep, rfl, rfl, hspawn⟩ := run_enter_ok h
  suffices h : children.map (·.processName) =
      (if q.index ∉ q.entered ∧ q.depth < spawnLimit then step.spawn else []) ∧
      ∀ t ∈ children, Sprouted scripts (middle.keep q.arrived).instances (some q.id) (q.depth + 1) t
    from ⟨step, mem_keep.2 (.inl rfl), .snapshot hstep children, rfl, h.1, h.2⟩
  rcases run_spawnings_ok hspawn with ⟨rfl, -, barren⟩ | ⟨f, hf, new, hspawn⟩
  · refine ⟨(if_neg ?_).symm, nofun⟩
    rintro ⟨new, high⟩
    exact barren.elim (fun none => Nat.not_lt_of_le (le_depth_of_spawner none) high) new
  · obtain ⟨levels, hlevels, rfl⟩ := exists_of_spawner hf
    have high : q.depth < spawnLimit := by omega
    have hdepth : spawnLimit - levels = q.depth + 1 := by omega
    have starts : ∀ name, Starts (some q.id) (start levels name none (some q.id)) :=
      fun name => grown_start levels name none _
    have forward : ∀ name, Forward (start levels name none (some q.id)) :=
      fun name => forward_start levels name none _
    have grown := grown_spawnAll forward starts hspawn sound issued distinct
    obtain ⟨names, sprouted⟩ := sprouted_spawnAll forward starts
      (sprouts levels (by omega)) hspawn hscripts sound issued distinct
    rw [hdepth] at sprouted
    refine ⟨names.trans (if_pos ⟨new, high⟩).symm, fun t ht => (sprouted t ht).mono
      fun p hp hid => mem_keep.2 (.inr ⟨hp, fun heq => ?_⟩)⟩
    -- what was spawned has new identifiers
    obtain ⟨k, hk, hqk⟩ := issued q.id rfl
    exact distinct.not_new ⟨k, hk, heq.trans hqk⟩ (grown.new p.id (List.mem_flatMap.2 ⟨t, ht, hid⟩))

/-- What a process has spawned once it was started, if it is known for those that it spawns. -/
theorem sprouts_of {levels : Nat} (hle : levels ≤ spawnLimit) (titled : Titled scripts)
    (sprouts : ∀ l < levels, ∀ (name : String) (id : Uuid),
      Sprouts scripts (some id) (spawnLimit - l) name (start l name none (some id)))
    (name : String) (input : Option Value) (parent : Option Uuid) :
    Sprouts scripts parent (spawnLimit - levels) name (start levels name input parent) := by
  intro before after s h hscripts sound issued distinct
  obtain ⟨script, found, h⟩ := run_start_ok h
  rw [hscripts] at found
  generalize hq : newborn levels input parent script (.issued before.issued) = q at h
  have hdepth : spawnLimit - q.depth = levels := by
    rw [← hq]
    show spawnLimit - (spawnLimit - levels) = levels
    omega
  have hid : q.id = .issued before.issued := by rw [← hq]; rfl
  have hspawn : spawnerAt levels (.issued before.issued) = spawner q := by
    rw [spawner_eq, hdepth, hid]
  rw [hspawn] at h
  have hself : before.next.Issued (some q.id) := fun x hx =>
    ⟨before.issued, Nat.lt_succ_self _, (Option.some.inj hx).symm.trans hid⟩
  have h : before.next.run (enter q (spawner q)) = (.ok s, after) := h
  obtain ⟨step, reared⟩ := reared_of_sprouts (fun l hl name => sprouts l (hdepth ▸ hl) name q.id) h
    hscripts (sound.of_subset (precedes_next before) fun _ hp => hp) hself distinct
  obtain ⟨running, shows, named, spawned, children⟩ := reared
  subst hq
  have named : s.processName = name := named.trans (titled name script found)
  refine ⟨named, .mk running (named ▸ found) shows rfl rfl rfl rfl (Nat.sub_le _ _) ?_ children⟩
  rw [spawned]
  exact if_congr (and_iff_right List.not_mem_nil) rfl rfl

/-- What a process has spawned once it was started. -/
theorem sprouts_start (titled : Titled scripts) {levels : Nat} (hle : levels ≤ spawnLimit)
    (name : String) (input : Option Value) (parent : Option Uuid) :
    Sprouts scripts parent (spawnLimit - levels) name (start levels name input parent) := by
  induction levels using Nat.strongRecOn generalizing name input parent with
  | ind levels ih =>
    exact sprouts_of hle titled (fun l hl name id => ih l hl (by omega) name none (some id)) name input
      parent

/-- What a running process has spawned once it has entered a step. -/
theorem reared_of_run (titled : Titled scripts) {q : Instance}
    (h : before.run (enter q (spawner q)) = (.ok s, after)) (hscripts : before.scripts = scripts)
    (sound : before.Sound) (issued : before.Issued (some q.id)) (distinct : after.IdsDistinct) :
    ∃ step, Reared scripts after.instances q step s :=
  reared_of_sprouts (fun l hl name => sprouts_start titled (by omega) name none _) h hscripts sound
    issued distinct

end Server

end Stepwise
