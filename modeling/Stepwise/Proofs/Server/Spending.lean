/-
# How much a request can start

Scripts may spawn themselves and each other, but what has been spawned through four others spawns no
more. So a request starts only so many processes, however the scripts are tangled.

* `Script.SpawnsAtMost`, `Server.Costs` : how many processes a step names, and a computation starts;
* `Server.issued_execute_le` : how many a request starts at most.
-/
import Mathlib.Tactic.Ring
import Stepwise.Proofs.Server.Failing

namespace Stepwise

/-- No step names more than so many processes. -/
def Script.SpawnsAtMost (breadth : Nat) (script : Script) : Prop :=
  ∀ step ∈ script.steps, step.spawn.length ≤ breadth

namespace Server

variable {α β : Type} {breadth : Nat} {m n : Nat}

/-- All scripts of the server name at most so many processes in a step. -/
def SpawnsAtMost (breadth : Nat) (server : Server) : Prop :=
  ∀ name script, server.scripts.get? name = some script → script.SpawnsAtMost breadth

/-- The computation gives out at most so many identifiers, whether it succeeds or not. -/
def Costs (breadth n : Nat) (act : Run α) : Prop :=
  ∀ server : Server, server.SpawnsAtMost breadth → (server.run act).2.issued ≤ server.issued + n

theorem costs_pure (x : α) : Costs breadth 0 (pure x : Run α) := fun _ _ => Nat.le_refl _

theorem costs_throw (e : ServiceError) : Costs breadth 0 (throw e : Run α) :=
  fun _ _ => Nat.le_refl _

theorem costs_modify {g : Server → Server} (h : ∀ server : Server, (g server).issued = server.issued) :
    Costs breadth 0 (modify g : Run PUnit) := fun server _ => Nat.le_of_eq (h server)

theorem Costs.bind {a : Run α} {f : α → Run β} (forward : Forward a) (ha : Costs breadth m a)
    (hf : ∀ x, Costs breadth n (f x)) : Costs breadth (m + n) (a >>= f) := by
  intro server bounded
  have first := ha server bounded
  have hscripts := (forward server).scripts
  rw [run_bind]
  cases h : server.run a with
  | mk r middle =>
    rw [h] at first hscripts
    cases r with
    | error e => exact Nat.le_trans first (by omega)
    | ok x =>
      have hmiddle : middle.SpawnsAtMost breadth := by
        intro name script hscript
        rw [hscripts] at hscript
        exact bounded name script hscript
      have second := hf x middle hmiddle
      dsimp only at first ⊢
      omega

theorem Costs.mono {a : Run α} (h : Costs breadth m a) (hle : m ≤ n) : Costs breadth n a :=
  fun server bounded => Nat.le_trans (h server bounded) (by omega)

theorem costs_spawnAll {spawn : String → Run Snapshot} (forward : ∀ name, Forward (spawn name))
    (h : ∀ name, Costs breadth n (spawn name)) (names : List String) :
    Costs breadth (names.length * n) (spawnAll spawn names) := by
  induction names with
  | nil => exact (costs_pure _).mono (Nat.zero_le _)
  | cons name rest ih =>
    refine (Costs.bind (forward name) (h name) fun child =>
      ih.bind (forward_spawnAll forward rest) fun others => costs_pure _).mono ?_
    rw [List.length_cons, Nat.succ_mul]
    omega

/-- A process that enters a step spawns those that the step names. -/
theorem costs_enter {p : Instance} (hp : p.script.SpawnsAtMost breadth)
    {spawn : Option (String → Run Snapshot)} (forward : ∀ f, spawn = some f → ∀ name, Forward (f name))
    (h : ∀ f, spawn = some f → ∀ name, Costs breadth n (f name)) :
    Costs breadth (breadth * n) (enter p spawn) := by
  cases hstep : p.script.steps[p.index]? with
  | none =>
    rw [enter_none hstep]
    exact (costs_throw _).mono (Nat.zero_le _)
  | some step =>
    rw [enter_eq hstep]
    have hspawn : Costs breadth (breadth * n) (spawnings p spawn step) := by
      unfold spawnings
      split
      · split
        · exact (costs_pure _).mono (Nat.zero_le _)
        · exact (costs_spawnAll (forward _ rfl) (h _ rfl) _).mono
            (Nat.mul_le_mul_right n (hp step (List.mem_of_getElem? hstep)))
      · exact (costs_pure _).mono (Nat.zero_le _)
    exact hspawn.bind (forward_spawnings forward step) fun children =>
      Costs.bind (forward_modify fun server => precedes_keep server _) (costs_modify fun _ => rfl)
        fun _ => costs_pure _

/-- What is started through one level more costs at most so much more. -/
theorem succ_mul_pow_le (breadth levels : Nat) :
    1 + breadth * (breadth + 1) ^ levels ≤ (breadth + 1) ^ (levels + 1) := by
  have hpos : 0 < (breadth + 1) ^ levels := Nat.pow_pos (Nat.succ_pos _)
  calc 1 + breadth * (breadth + 1) ^ levels
      ≤ (breadth + 1) ^ levels + breadth * (breadth + 1) ^ levels := by omega
    _ = (breadth + 1) ^ (levels + 1) := by ring

/-- A process with all that it spawns. -/
theorem costs_start (levels : Nat) :
    ∀ (name : String) (input : Option Value) (parent : Option Uuid),
      Costs breadth ((breadth + 1) ^ levels) (start levels name input parent) := by
  -- a process that is not scripted costs nothing, and all others an identifier and what they spawn
  have scripted {levels : Nat} (count : Nat) (hcount : 1 + breadth * count ≤ (breadth + 1) ^ levels)
      (name : String) (input : Option Value) (parent : Option Uuid)
      (h : ∀ id f, spawnerAt levels id = some f → ∀ name, Costs breadth count (f name)) :
      Costs breadth ((breadth + 1) ^ levels) (start levels name input parent) := by
    intro server bounded
    rw [start_eq]
    cases hscript : server.scripts.get? name with
    | none =>
      rw [run_bind, run_script_none hscript]
      exact Nat.le_add_right _ _
    | some script =>
      rw [run_bind_of_ok (run_script hscript)]
      have hnext : server.next.SpawnsAtMost breadth := bounded
      have hcost := costs_enter (p := newborn levels input parent script (.issued server.issued))
        (bounded name script hscript) (fun f hf => forward_spawnerAt hf)
        (h (.issued server.issued)) server.next hnext
      have hissued : server.next.issued = server.issued + 1 := rfl
      rw [hissued] at hcost
      exact Nat.le_trans hcost (by omega)
  induction levels with
  | zero =>
    exact fun name input parent => scripted 0 (by simp) name input parent
      fun id f hf => by cases hf
  | succ levels ih =>
    intro name input parent
    refine scripted _ (succ_mul_pow_le breadth levels) name input parent fun id f hf name => ?_
    obtain rfl := Option.some.inj hf
    exact ih name none _

/-- A running process that goes on, or is over. -/
theorem costs_settle {p : Instance} (hp : p.script.SpawnsAtMost breadth) (step : String) :
    Costs breadth ((breadth + 1) ^ spawnLimit) (settle p step) := by
  unfold settle
  split
  · exact (costs_modify (fun _ => rfl)).bind (forward_modify fun server => precedes_remove server p.id)
      (fun _ => costs_pure _) |>.mono (Nat.zero_le _)
  · rw [spawner_eq]
    cases hlevels : spawnLimit - p.depth with
    | zero =>
      exact (costs_enter (n := 0) hp (fun f hf => forward_spawnerAt hf) fun f hf => by cases hf).mono
        (Nat.zero_le _)
    | succ levels =>
      have hspawn : Costs breadth (breadth * (breadth + 1) ^ levels)
          (enter p (spawnerAt (levels + 1) p.id)) := by
        refine costs_enter hp (fun f hf => forward_spawnerAt hf) fun f hf name => ?_
        obtain rfl := Option.some.inj hf
        exact costs_start levels name none _
      refine hspawn.mono ?_
      have hle : levels + 1 ≤ spawnLimit := by omega
      have hone := succ_mul_pow_le breadth levels
      have hmore : (breadth + 1) ^ (levels + 1) ≤ (breadth + 1) ^ spawnLimit :=
        Nat.pow_le_pow_right (Nat.succ_pos _) hle
      omega

/-- A request starts no more processes than there are names in four generations of steps, and one. -/
theorem issued_execute_le {before : Server} (bounded : before.SpawnsAtMost breadth)
    (running : ∀ p ∈ before.instances, p.script.SpawnsAtMost breadth) (request : Request) :
    (before.run (execute request)).2.issued ≤ before.issued + (breadth + 1) ^ spawnLimit := by
  cases hout : before.run (execute request) with
  | mk r after =>
    cases executes hout with
    | injected => exact Nat.le_add_right _ _
    | @started d _ _ _ run =>
      have cost : Costs breadth _ _ := costs_start spawnLimit d.name d.input none
      have hle := cost (before.noting (.start d)) bounded
      rwa [run] at hle
    | refused => exact Nat.le_add_right _ _
    | ended _ _ run =>
      rw [run_finish] at run
      cases run
      exact Nat.le_add_right _ _
    | @settled s mode event p q _ _ _ found resumes heads run =>
      have hq : q.script.SpawnsAtMost breadth := by
        rw [resumes.script]
        exact running p (List.mem_of_find?_eq_some found)
      have cost := costs_settle hq s.step (before.noting (.continue s mode event)) bounded
      rwa [run] at cost

end Server

end Stepwise
