/-
# What requests can still cause

A request lets a process go on, whose next step may spawn others, all of which may go on by themselves.
But who was spawned can spawn less, and who goes on has fewer steps left. So every process weighs
something, a request for it weighs as much, and executing the request only makes lighter ones of it.

* `Instance.weight`, `Server.weight` : what processes and requests weigh;
* `Server.Light`, `Server.light_start` : computations that only add light processes;
* `Server.Weighed`, `Server.weighed_execute` : what a request leaves is lighter.
-/
import Mathlib.Data.Prod.Lex
import Stepwise.Proofs.Server.Failing

namespace Stepwise

/-! ## Weights -/

/-- Through how many others a process can spawn, and then how many steps it has left. -/
def Instance.weight (p : Instance) : ℕ ×ₗ ℕ :=
  toLex (Server.spawnLimit - p.depth + 1, p.script.steps.length - p.index)

/-- The request lets a process leave its step, if it does anything. -/
def Request.isOnward : Request → Bool
  | .start _ => false
  | .continue _ mode event => mode = .cancel || mode = .execute && !Server.fieldChanged event

namespace Server

/-- What weighs less than every process. -/
def lightest : ℕ ×ₗ ℕ := toLex (0, 0)

/-- What weighs more than every process. -/
def heaviest : ℕ ×ₗ ℕ := toLex (spawnLimit + 2, 0)

/-- What the process with an identifier weighs. -/
def weightOf (server : Server) (id : Uuid) : ℕ ×ₗ ℕ :=
  (server.instance? id).elim lightest Instance.weight

/-- What a request weighs: as much as the process that leaves its step, and more than every process
otherwise. -/
def weight (server : Server) : Request → ℕ ×ₗ ℕ
  | .start _ => heaviest
  | .continue s mode event =>
    if (Request.continue s mode event).isOnward then server.weightOf s.id else heaviest

theorem lightest_lt (p : Instance) : lightest < p.weight :=
  Prod.Lex.toLex_lt_toLex.2 (.inl (Nat.succ_pos _))

theorem lightest_lt_heaviest : lightest < heaviest :=
  Prod.Lex.toLex_lt_toLex.2 (.inl (Nat.succ_pos _))

theorem weight_lt_heaviest (p : Instance) : p.weight < heaviest :=
  Prod.Lex.toLex_lt_toLex.2 (.inl (by dsimp only; omega))

theorem weightOf_lt_heaviest (server : Server) (id : Uuid) : server.weightOf id < heaviest := by
  unfold weightOf
  cases server.instance? id with
  | none => exact lightest_lt_heaviest
  | some p => exact weight_lt_heaviest p

variable {server before middle after : Server} {w : ℕ ×ₗ ℕ} {α β : Type}

theorem weight_of_not_isOnward {r : Request} (h : r.isOnward = false) (server : Server) :
    server.weight r = heaviest := by
  cases r with
  | start => rfl
  | «continue» s mode event => exact if_neg (by rw [h]; exact Bool.false_ne_true)

theorem weight_of_isOnward {s : Snapshot} {mode : Mode} {event : Option Interaction}
    (h : (Request.continue s mode event).isOnward = true) (server : Server) :
    server.weight (.continue s mode event) = server.weightOf s.id := if_pos h

theorem weight_of_found {s : Snapshot} {mode : Mode} {event : Option Interaction} {p : Instance}
    (h : (Request.continue s mode event).isOnward = true) (found : server.instance? s.id = some p) :
    server.weight (.continue s mode event) = p.weight := by
  rw [weight_of_isOnward h, weightOf, found]
  rfl

/-! ## Light computations -/

/-- Processes that were not there before are light. -/
def Lighter (w : ℕ ×ₗ ℕ) (before after : Server) : Prop :=
  ∀ p ∈ after.instances, p ∈ before.instances ∨ p.weight < w

theorem Lighter.of_subset (h : after.instances ⊆ before.instances) : Lighter w before after :=
  fun _ hp => .inl (h hp)

theorem Lighter.refl (server : Server) : Lighter w server server := .of_subset fun _ h => h

theorem Lighter.trans (h : Lighter w before middle) (k : Lighter w middle after) :
    Lighter w before after :=
  fun p hp => (k p hp).elim (h p) .inr

/-- A request weighs what it has weighed before, or less than that. -/
theorem Lighter.weight (h : Lighter w before after) (hw : lightest < w) (r : Request) :
    after.weight r = before.weight r ∨ after.weight r < w := by
  cases onward : r.isOnward with
  | false => exact .inl (by rw [weight_of_not_isOnward onward, weight_of_not_isOnward onward])
  | true =>
    cases r with
    | start => cases onward
    | «continue» s mode event =>
      rw [weight_of_isOnward onward, weight_of_isOnward onward, weightOf, weightOf]
      cases found : after.instance? s.id with
      | none => exact .inr hw
      | some p =>
        obtain ⟨hp, hid⟩ := instance?_eq_some.1 found
        rcases h p hp with hp | light
        · rw [instance?_eq_some.2 ⟨hp, hid⟩]
          exact .inl rfl
        · exact .inr light

/-- The computation only adds light processes, whether it succeeds or not. -/
def Light (w : ℕ ×ₗ ℕ) (act : Run α) : Prop := Leads (Lighter w) act

theorem lighter_keep (server : Server) {p : Instance} (h : p.weight < w) :
    Lighter w server (server.keep p) := fun q hq => by
  rcases mem_keep.1 hq with rfl | ⟨hq, -⟩
  · exact .inr h
  · exact .inl hq

/-- Light processes may be kept. -/
theorem steady_lighter : Steady (fun p => p.weight < w) (Lighter w) where
  refl := .refl
  trans := .trans
  next _ := .of_subset fun _ h => h
  keep := lighter_keep

/-- What is started through `levels` more weighs as little as that allows. -/
theorem weight_newborn_lt {levels : Nat} (hle : levels ≤ spawnLimit) (hw : levels + 1 < (ofLex w).1)
    (input : Option Value) (parent : Option Uuid) (script : Script) (id : Uuid) :
    (newborn levels input parent script id).weight < w := by
  refine Prod.Lex.toLex_lt_toLex.2 (.inl ?_)
  show spawnLimit - (spawnLimit - levels) + 1 < (ofLex w).1
  omega

theorem light_start {levels : Nat} (hle : levels ≤ spawnLimit) (hw : levels + 1 < (ofLex w).1) :
    ∀ (name : String) (input : Option Value) (parent : Option Uuid),
      Light w (start levels name input parent) :=
  steady_lighter.start fun _ hl input parent script id _ =>
    weight_newborn_lt (Nat.le_trans hl hle) (by omega) input parent script id

/-- What a process spawns is started through fewer levels than the process weighs. -/
theorem exists_of_spawner_lt {p : Instance} (hp : p.weight < w) {f : String → Run Snapshot}
    (hf : spawner p = some f) : ∃ levels, levels ≤ spawnLimit ∧ levels + 1 < (ofLex w).1 ∧
      f = fun name => start levels name none (some p.id) := by
  obtain ⟨levels, hlevels, rfl⟩ := exists_of_spawner hf
  have hrank : spawnLimit - p.depth + 1 ≤ (ofLex w).1 := by
    rcases Prod.Lex.toLex_lt_toLex.1 hp with hlt | ⟨heq, -⟩
    · exact Nat.le_of_lt hlt
    · exact Nat.le_of_eq heq
  exact ⟨levels, by omega, by omega, rfl⟩

theorem light_spawner {p : Instance} (hp : p.weight < w) {f : String → Run Snapshot}
    (hf : spawner p = some f) (name : String) : Light w (f name) := by
  obtain ⟨levels, hle, hw, rfl⟩ := exists_of_spawner_lt hp hf
  exact light_start hle hw name none _

/-- Removing processes adds none. -/
theorem light_finish (p : Instance) (step : String) (cancelled : Bool) :
    Light w (finish p step cancelled) := fun server => by
  rw [run_finish]
  exact .of_subset fun _ hq => List.mem_of_mem_filter hq

/-- A process that enters its step, or is over, adds nothing heavier than itself. -/
theorem light_settle {p : Instance} (hp : p.weight < w) (step : String) :
    Light w (settle p step) := by
  unfold settle
  split
  · exact light_finish p step false
  · exact steady_lighter.enter (fun _ => hp) fun f hf => light_spawner hp hf

/-! ## What a snapshot shows -/

/-- The processes that a computation shows are light. -/
def ShowsLight (w : ℕ ×ₗ ℕ) (act : Run Snapshot) : Prop :=
  ∀ {before after : Server} {s : Snapshot}, before.run act = (.ok s, after) →
    ∀ p ∈ after.instances, p.id ∈ s.ids → p.weight < w

/-- The processes that were spawned are light. -/
theorem showsLight_spawnAll {f : String → Run Snapshot} (light : ∀ name, Light w (f name))
    (shows : ∀ name, ShowsLight w (f name)) {names : List String} {ss : List Snapshot}
    (h : before.run (spawnAll f names) = (.ok ss, after)) :
    ∀ p ∈ after.instances, p.id ∈ ss.flatMap Snapshot.ids → p.weight < w := by
  induction names generalizing before ss with
  | nil =>
    cases h
    exact fun p _ hid => by cases hid
  | cons name rest ih =>
    obtain ⟨s, middle, hs, hrest⟩ := run_bind_ok.1 h
    obtain ⟨others, _, hothers, hpure⟩ := run_bind_ok.1 hrest
    cases hpure
    intro p hp hid
    rcases List.mem_append.1 (List.flatMap_cons ▸ hid) with hid | hid
    · have hlight := steady_lighter.spawnAll light rest middle
      rw [hothers] at hlight
      exact (hlight p hp).elim (fun hp => shows name hs p hp hid) id
    · exact ih hothers p hp hid

theorem showsLight_enter {p : Instance} {spawn : Option (String → Run Snapshot)} (hp : p.weight < w)
    (light : ∀ f, spawn = some f → ∀ name, Light w (f name))
    (shows : ∀ f, spawn = some f → ∀ name, ShowsLight w (f name)) : ShowsLight w (enter p spawn) := by
  intro before after s h q hq hid
  obtain ⟨step, children, middle, -, rfl, rfl, hspawn⟩ := run_enter_ok h
  rcases mem_keep.1 hq with rfl | ⟨hq, hne⟩
  · exact hp
  · rw [Snapshot.ids_eq] at hid
    have hid := (List.mem_cons.1 hid).resolve_left hne
    rcases run_spawnings_ok hspawn with ⟨rfl, -⟩ | ⟨f, hf, -, hspawn⟩
    · cases hid
    · exact showsLight_spawnAll (light f hf) (shows f hf) hspawn q hq hid

theorem showsLight_start {levels : Nat} (hle : levels ≤ spawnLimit) (hw : levels + 1 < (ofLex w).1) :
    ∀ (name : String) (input : Option Value) (parent : Option Uuid),
      ShowsLight w (start levels name input parent) := by
  induction levels with
  | zero =>
    intro name input parent before after s h
    obtain ⟨script, -, h⟩ := run_start_ok h
    exact showsLight_enter (weight_newborn_lt hle hw input parent script _) (fun f hf => by cases hf)
      (fun f hf => by cases hf) h
  | succ levels ih =>
    intro name input parent before after s h
    obtain ⟨script, -, h⟩ := run_start_ok h
    refine showsLight_enter (weight_newborn_lt hle hw input parent script _) (fun f hf name => ?_)
      (fun f hf name => ?_) h
    · obtain rfl := Option.some.inj hf
      exact light_start (Nat.le_of_succ_le hle) (Nat.lt_of_succ_lt hw) name none _
    · obtain rfl := Option.some.inj hf
      exact ih (Nat.le_of_succ_le hle) (Nat.lt_of_succ_lt hw) name none _

/-- A process that is over is not there any more. -/
theorem showsLight_finish (p : Instance) (step : String) (cancelled : Bool) :
    ShowsLight w (finish p step cancelled) := by
  intro before after s h q hq hid
  rw [run_finish] at h
  cases h
  rw [Snapshot.ids_eq] at hid
  have hid : q.id = p.id := List.mem_singleton.1 hid
  obtain ⟨-, apart⟩ := List.mem_filter.1 hq
  cases hlinks : before.instances.length with
  | zero => simp [hlinks, isWithin, hid] at apart
  | succ links => simp [hlinks, isWithin, hid] at apart

theorem showsLight_settle {p : Instance} (hp : p.weight < w) (step : String) :
    ShowsLight w (settle p step) := by
  unfold settle
  split
  · exact showsLight_finish p step false
  · refine showsLight_enter hp (fun f hf => light_spawner hp hf) fun f hf name => ?_
    obtain ⟨levels, hle, hw, rfl⟩ := exists_of_spawner_lt hp hf
    exact showsLight_start hle hw name none _

/-! ## Requests -/

/-- After a request of some weight, all others weigh what they have weighed before, or less than that
request; and so do requests for the processes that its answer shows. -/
structure Weighed (w : ℕ ×ₗ ℕ) (before after : Server) (r : Except ServiceError Snapshot) : Prop where
  others : ∀ request, after.weight request = before.weight request ∨ after.weight request < w
  shown : ∀ s, r = .ok s → ∀ x ∈ s.ids, after.weightOf x < w

/-- A computation that adds and shows only light processes. -/
theorem Weighed.of_light {act : Run Snapshot} (hw : lightest < w) (light : Light w act)
    (shows : ShowsLight w act) {r : Except ServiceError Snapshot} (h : before.run act = (r, after)) :
    Weighed w before after r := by
  have hlighter := light before
  rw [h] at hlighter
  refine ⟨hlighter.weight hw, ?_⟩
  rintro s rfl x hx
  unfold weightOf
  cases found : after.instance? x with
  | none => exact hw
  | some p =>
    obtain ⟨hp, rfl⟩ := instance?_eq_some.1 found
    exact shows h p hp hx

/-- A request that fails without having changed a process. -/
theorem Weighed.of_same {e : ServiceError} (same : after.instances = before.instances) :
    Weighed w before after (.error e) := by
  refine ⟨fun r => .inl ?_, nofun⟩
  cases r with
  | start => rfl
  | «continue» s mode event => rw [weight, weight, weightOf, weightOf, instance?, instance?, same]

/-- What is not onward is heavier than whatever comes of it. -/
theorem weighed_heaviest (before after : Server) (r : Except ServiceError Snapshot) :
    Weighed heaviest before after r := by
  refine ⟨fun request => ?_, fun s _ x _ => weightOf_lt_heaviest after x⟩
  cases onward : request.isOnward with
  | false => exact .inl (by rw [weight_of_not_isOnward onward, weight_of_not_isOnward onward])
  | true =>
    cases request with
    | start => cases onward
    | «continue» s mode event =>
      rw [weight_of_isOnward onward after]
      exact .inr (weightOf_lt_heaviest after s.id)

/-- A process that leaves its step gets lighter. -/
theorem weight_lt_of_heads {p q : Instance} {s : Snapshot} {mode : Mode} {event : Option Interaction}
    (onward : (Request.continue s mode event).isOnward = true) (resumes : q.Resumes p)
    (heads : p.heads s mode (fieldChanged event) = some q.index) : q.weight < p.weight := by
  cases mode with
  | reload => cases onward
  | rollback => cases onward
  | cancel => cases heads
  | execute =>
    have unchanged : fieldChanged event = false := by simpa [Request.isOnward] using onward
    rw [unchanged] at heads
    obtain ⟨hlt, hindex⟩ := Instance.heads_execute heads
    refine Prod.Lex.toLex_lt_toLex.2 (.inr ⟨?_, ?_⟩)
    · dsimp only
      rw [resumes.depth]
    · dsimp only
      rw [resumes.script, hindex]
      omega

/-- Noting the mode of a request makes no process heavier or lighter. -/
theorem Weighed.of_noting {request : Request} {r : Except ServiceError Snapshot}
    (weighed : Weighed w (before.noting request) after r) : Weighed w before after r :=
  ⟨weighed.others, weighed.shown⟩

/-- Whatever comes of a request is lighter than the request. -/
theorem weighed_execute {request : Request} {r : Except ServiceError Snapshot}
    (h : before.run (execute request) = (r, after)) :
    Weighed (before.weight request) before after r := by
  cases onward : request.isOnward with
  | false =>
    rw [weight_of_not_isOnward onward]
    exact weighed_heaviest before after r
  | true =>
    cases executes h with
    | injected => exact .of_same rfl
    | started => cases onward
    | refused => exact .of_same rfl
    | @ended s mode event p _ _ _ found run =>
      rw [weight_of_found onward found]
      exact .of_noting (.of_light (lightest_lt p) (light_finish p s.step true)
        (showsLight_finish p s.step true) run)
    | @settled s mode event p q _ _ _ found resumes heads run =>
      have hlt : q.weight < p.weight := weight_lt_of_heads onward resumes heads
      rw [weight_of_found onward found]
      exact .of_noting (.of_light (lightest_lt p) (light_settle hlt s.step)
        (showsLight_settle hlt s.step) run)

end Server

end Stepwise
