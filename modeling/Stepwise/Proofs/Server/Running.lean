/-
# Computations on the scripted server

How the parts of a computation on the server follow one another, and what all of them have in common:
scripts stay, errors that were injected stay, and identifiers are only ever given out.

* `Server.run_bind`, `Server.run_bind_ok` : one part after the other;
* `Server.start_eq`, `Server.run_enter_ok` : a process is started by entering its first step, and
  enters a step once the processes of the step have been spawned;
* `Server.Steady` : what every start of a process keeps, if giving out identifiers and keeping
  processes does;
* `Server.Precedes`, `Server.Forward` : what no computation undoes;
* `Server.exists_run_start` : starting succeeds as long as everything is scripted.
-/
import Stepwise.Server.Execution

namespace Stepwise

/-- The process once it has entered its step. -/
def Instance.arrived (p : Instance) : Instance :=
  { p with entered := if p.entered.contains p.index then p.entered else p.index :: p.entered }

/-- The process has entered its step, and has entered no other one on the way. -/
theorem Instance.mem_entered_arrived {p : Instance} {k : Nat} :
    k ∈ p.arrived.entered ↔ k = p.index ∨ k ∈ p.entered := by
  unfold arrived
  dsimp only
  split
  · next old =>
    refine ⟨.inr, ?_⟩
    rintro (rfl | h)
    · exact List.contains_iff_mem.1 old
    · exact h
  · exact List.mem_cons

namespace Server

variable {α β : Type} {server after : Server}

/-! ## One part after the other -/

@[simp] theorem run_pure (server : Server) (x : α) :
    server.run (pure x : Run α) = (.ok x, server) := rfl

@[simp] theorem run_throw (server : Server) (e : ServiceError) :
    server.run (throw e : Run α) = (.error e, server) := rfl

theorem run_bind (server : Server) (a : Run α) (f : α → Run β) :
    server.run (a >>= f) =
      match server.run a with
      | (.ok x, after) => after.run (f x)
      | (.error e, after) => (.error e, after) := by
  cases h : server.run a with
  | mk r middle =>
    have hrun : StateT.run (ExceptT.run a) server = (r, middle) := h
    rw [run, ExceptT.run_bind, StateT.run_bind, hrun]
    cases r <;> rfl

/-- A computation succeeds if one part does and the rest does after it. -/
theorem run_bind_ok {a : Run α} {f : α → Run β} {y : β} :
    server.run (a >>= f) = (.ok y, after) ↔
      ∃ x middle, server.run a = (.ok x, middle) ∧ middle.run (f x) = (.ok y, after) := by
  rw [run_bind]
  cases h : server.run a with
  | mk r middle =>
    cases r with
    | error e => simp
    | ok x =>
      constructor
      · exact fun hrest => ⟨x, middle, rfl, hrest⟩
      · rintro ⟨x', middle', heq, hrest⟩
        cases heq
        exact hrest

theorem run_bind_of_ok {a : Run α} {x : α} (h : server.run a = (.ok x, after)) (f : α → Run β) :
    server.run (a >>= f) = after.run (f x) := by
  rw [run_bind, h]

@[simp] theorem run_bind_get (server : Server) (f : Server → Run β) :
    server.run (get >>= f) = server.run (f server) := rfl

@[simp] theorem run_bind_modify (server : Server) (g : Server → Server) (f : PUnit → Run β) :
    server.run (modify g >>= f) = (g server).run (f ⟨⟩) := rfl

/-! ## Entering a step and starting a process -/

/-- How the processes of a step are spawned. -/
def spawnings (p : Instance) (spawn : Option (String → Run Snapshot)) (step : ScriptStep) :
    Run (List Snapshot) :=
  match spawn with
  | some f => if p.entered.contains p.index then pure [] else spawnAll f step.spawn
  | none => pure []

/-- A process enters a step once the processes of the step are spawned. -/
theorem enter_eq {p : Instance} {step : ScriptStep} (hstep : p.script.steps[p.index]? = some step)
    (spawn : Option (String → Run Snapshot)) :
    enter p spawn =
      spawnings p spawn step >>= fun children =>
        modify (fun server => server.keep p.arrived) >>= fun _ =>
          pure { p.snapshot step with children } := by
  unfold enter spawnings Instance.arrived
  rw [hstep]
  cases spawn with
  | none => rfl
  | some f =>
    dsimp only
    split <;> rfl

theorem enter_none {p : Instance} (hstep : p.script.steps[p.index]? = none)
    (spawn : Option (String → Run Snapshot)) :
    enter p spawn =
      throw (.fault ("Process '" ++ p.script.name ++ "' has no step " ++ toString p.index)) := by
  unfold enter
  rw [hstep]

/-- How a process with `levels` more below it spawns others. -/
def spawnerAt (levels : Nat) (id : Uuid) : Option (String → Run Snapshot) :=
  match levels with
  | 0 => none
  | levels + 1 => some fun name => start levels name none (some id)

theorem spawner_eq (p : Instance) : spawner p = spawnerAt (spawnLimit - p.depth) p.id := rfl

/-- What is spawned is started without input, with one level less below it. -/
theorem exists_of_spawnerAt {levels : Nat} {id : Uuid} {f : String → Run Snapshot}
    (h : spawnerAt levels id = some f) :
    ∃ l, levels = l + 1 ∧ f = fun name => start l name none (some id) := by
  cases levels with
  | zero => cases h
  | succ l => exact ⟨l, rfl, (Option.some.inj h).symm⟩

/-- A process that can spawn others has some levels below it. -/
theorem exists_of_spawner {p : Instance} {f : String → Run Snapshot} (h : spawner p = some f) :
    ∃ levels, spawnLimit - p.depth = levels + 1 ∧
      f = fun name => start levels name none (some p.id) :=
  exists_of_spawnerAt h

/-- A process that can spawn no others is too far down. -/
theorem le_depth_of_spawner {p : Instance} (h : spawner p = none) : spawnLimit ≤ p.depth := by
  rw [spawner_eq] at h
  cases hlevels : spawnLimit - p.depth with
  | zero => exact Nat.le_of_sub_eq_zero hlevels
  | succ levels =>
    rw [hlevels] at h
    cases h

/-- A process on the first step of its script. -/
def newborn (levels : Nat) (input : Option Value) (parent : Option Uuid) (script : Script)
    (id : Uuid) : Instance where
  id
  script
  index := 0
  values := .ofList ((input.bind Value.entries?).getD [])
  parent
  depth := spawnLimit - levels
  entered := []

/-- A process is started by entering its first step. -/
theorem start_eq (levels : Nat) (name : String) (input : Option Value) (parent : Option Uuid) :
    start levels name input parent =
      script name >>= fun script => issue >>= fun id =>
        enter (newborn levels input parent script id) (spawnerAt levels id) := by
  cases levels <;> rfl

theorem run_script {name : String} {script : Script} (h : server.scripts.get? name = some script) :
    server.run (Server.script name) = (.ok script, server) := by
  rw [Server.script, run_bind_get, h, run_pure]

theorem run_script_none {name : String} (h : server.scripts.get? name = none) :
    server.run (Server.script name) =
      (.error (.fault ("Unknown process '" ++ name ++ "'")), server) := by
  rw [Server.script, run_bind_get, h, run_throw]

/-- A start that succeeds found the script and entered its first step. -/
theorem run_start_ok {levels : Nat} {name : String} {input : Option Value} {parent : Option Uuid}
    {s : Snapshot} (h : server.run (start levels name input parent) = (.ok s, after)) :
    ∃ script, server.scripts.get? name = some script ∧
      { server with issued := server.issued + 1 }.run
        (enter (newborn levels input parent script (.issued server.issued))
          (spawnerAt levels (.issued server.issued))) = (.ok s, after) := by
  rw [start_eq] at h
  cases hscript : server.scripts.get? name with
  | none =>
    rw [run_bind, run_script_none hscript] at h
    cases h
  | some script =>
    rw [run_bind_of_ok (run_script hscript)] at h
    exact ⟨script, rfl, h⟩

/-- The processes of a step are spawned if the step is new to the process, and it can spawn any. -/
theorem run_spawnings_ok {p : Instance} {spawn : Option (String → Run Snapshot)} {step : ScriptStep}
    {children : List Snapshot}
    (h : server.run (spawnings p spawn step) = (.ok children, after)) :
    (children = [] ∧ after = server ∧ (spawn = none ∨ p.index ∈ p.entered)) ∨
      ∃ f, spawn = some f ∧ p.index ∉ p.entered ∧
        server.run (spawnAll f step.spawn) = (.ok children, after) := by
  unfold spawnings at h
  split at h
  · split at h
    · next old =>
      cases h
      exact .inl ⟨rfl, rfl, .inr (List.contains_iff_mem.1 old)⟩
    · next new => exact .inr ⟨_, rfl, fun old => new (List.contains_iff_mem.2 old), h⟩
  · cases h
    exact .inl ⟨rfl, rfl, .inl rfl⟩

/-- A process that enters a step was kept after the processes of the step were spawned. -/
theorem run_enter_ok {p : Instance} {spawn : Option (String → Run Snapshot)} {s : Snapshot}
    (h : server.run (enter p spawn) = (.ok s, after)) :
    ∃ step children middle, p.script.steps[p.index]? = some step ∧
      s = { p.snapshot step with children } ∧ after = middle.keep p.arrived ∧
      server.run (spawnings p spawn step) = (.ok children, middle) := by
  cases hstep : p.script.steps[p.index]? with
  | none =>
    rw [enter_none hstep, run_throw] at h
    cases h
  | some step =>
    rw [enter_eq hstep] at h
    obtain ⟨children, middle, hspawn, hrest⟩ := run_bind_ok.1 h
    cases hrest
    exact ⟨step, children, middle, rfl, rfl, rfl, hspawn⟩

/-! ## What starting a process keeps -/

/-- The computation leads to a related server, whether it succeeds or not. -/
def Leads (R : Server → Server → Prop) (act : Run α) : Prop :=
  ∀ server : Server, R server (server.run act).2

/-- A relation that holds of computations which give out identifiers and keep processes of some kind. -/
structure Steady (Q : Instance → Prop) (R : Server → Server → Prop) : Prop where
  refl : ∀ server, R server server
  trans : ∀ {first second third : Server}, R first second → R second third → R first third
  next : ∀ server : Server, R server { server with issued := server.issued + 1 }
  keep : ∀ (server : Server) {p : Instance}, Q p → R server (server.keep p)

namespace Steady

variable {Q : Instance → Prop} {R : Server → Server → Prop}

theorem bind (steady : Steady Q R) {a : Run α} {f : α → Run β} (ha : Leads R a)
    (hf : ∀ x, Leads R (f x)) : Leads R (a >>= f) := by
  intro server
  have first := ha server
  rw [run_bind]
  cases h : server.run a with
  | mk r middle =>
    rw [h] at first
    cases r with
    | ok x => exact steady.trans first (hf x middle)
    | error e => exact first

theorem spawnAll (steady : Steady Q R) {spawn : String → Run Snapshot}
    (h : ∀ name, Leads R (spawn name)) (names : List String) :
    Leads R (Server.spawnAll spawn names) := by
  induction names with
  | nil => exact steady.refl
  | cons name rest ih =>
    exact steady.bind (h name) fun child => steady.bind ih fun others => steady.refl

theorem spawnings (steady : Steady Q R) {p : Instance} {spawn : Option (String → Run Snapshot)}
    (h : ∀ f, spawn = some f → ∀ name, Leads R (f name)) (step : ScriptStep) :
    Leads R (Server.spawnings p spawn step) := by
  unfold Server.spawnings
  split
  · split
    · exact steady.refl
    · exact steady.spawnAll (h _ rfl) _
  · exact steady.refl

/-- A process that enters a step is kept if there is such a step. -/
theorem enter (steady : Steady Q R) {p : Instance} {spawn : Option (String → Run Snapshot)}
    (hp : p.index < p.script.steps.length → Q p.arrived)
    (h : ∀ f, spawn = some f → ∀ name, Leads R (f name)) : Leads R (Server.enter p spawn) := by
  cases hstep : p.script.steps[p.index]? with
  | none =>
    rw [enter_none hstep]
    exact steady.refl
  | some step =>
    rw [enter_eq hstep]
    exact steady.bind (steady.spawnings h step) fun children =>
      steady.bind (fun server => steady.keep server (hp (List.getElem?_eq_some_iff.1 hstep).1))
        fun _ => steady.refl

/-- A process that is started is kept, with what it spawns. -/
theorem start_of_spawner (steady : Steady Q R) {levels : Nat} {input : Option Value}
    {parent : Option Uuid}
    (born : ∀ (script : Script) (id : Uuid), 0 < script.steps.length →
      Q (newborn levels input parent script id).arrived)
    (spawned : ∀ (id : Uuid) (f : String → Run Snapshot), Server.spawnerAt levels id = some f →
      ∀ name, Leads R (f name)) (name : String) : Leads R (Server.start levels name input parent) := by
  have found : Leads R (Server.script name) := fun server => by
    cases hscript : server.scripts.get? name with
    | none =>
      rw [run_script_none hscript]
      exact steady.refl server
    | some script =>
      rw [run_script hscript]
      exact steady.refl server
  rw [start_eq]
  exact steady.bind found fun script => steady.bind steady.next fun id =>
    steady.enter (born script id) (spawned id)

/-- A process that is started is kept, with all that it spawns, each on its first step. -/
theorem start (steady : Steady Q R) {levels : Nat}
    (newborns : ∀ l ≤ levels, ∀ (input : Option Value) (parent : Option Uuid) (script : Script)
      (id : Uuid), 0 < script.steps.length → Q (newborn l input parent script id).arrived) :
    ∀ (name : String) (input : Option Value) (parent : Option Uuid),
      Leads R (Server.start levels name input parent) := by
  induction levels using Nat.strongRecOn with
  | ind levels ih =>
    intro name input parent
    refine steady.start_of_spawner (newborns _ (Nat.le_refl _) input parent) (fun id f hf name => ?_) name
    obtain ⟨l, rfl, rfl⟩ := exists_of_spawnerAt hf
    exact ih l (Nat.lt_succ_self l) (fun k hk => newborns k (Nat.le_succ_of_le hk)) name none _

/-- What a process spawns is kept with fewer levels below it. -/
theorem spawnerAt (steady : Steady Q R) {levels : Nat} {id : Uuid}
    (newborns : ∀ l < levels, ∀ (input : Option Value) (parent : Option Uuid) (script : Script)
      (id : Uuid), 0 < script.steps.length → Q (newborn l input parent script id).arrived)
    {f : String → Run Snapshot} (hf : Server.spawnerAt levels id = some f) (name : String) :
    Leads R (f name) := by
  obtain ⟨l, rfl, rfl⟩ := exists_of_spawnerAt hf
  exact steady.start (fun k hk => newborns k (Nat.lt_succ_of_le hk)) name none _

/-- A process that shows its step is kept, with all that it spawns, and one that has come to its end is
removed. -/
theorem settle (steady : Steady Q R)
    (remove : ∀ (server : Server) (id : Uuid), R server (server.remove id)) {p : Instance}
    (hp : p.index < p.script.steps.length → Q p.arrived)
    (newborns : ∀ l < spawnLimit - p.depth, ∀ (input : Option Value) (parent : Option Uuid)
      (script : Script) (id : Uuid), 0 < script.steps.length →
        Q (newborn l input parent script id).arrived) (step : String) :
    Leads R (Server.settle p step) := by
  unfold Server.settle
  split
  · exact steady.bind (fun server => remove server p.id) fun _ => steady.refl
  · exact steady.enter hp fun f hf => steady.spawnerAt newborns hf

end Steady

/-! ## What no computation undoes -/

/-- The scripts and the injected errors are the same, and identifiers were only given out. -/
structure Precedes (before after : Server) : Prop where
  scripts : after.scripts = before.scripts
  injected : after.injected = before.injected
  issued : before.issued ≤ after.issued

theorem Precedes.refl (server : Server) : server.Precedes server := ⟨rfl, rfl, Nat.le_refl _⟩

theorem Precedes.trans {first second third : Server} (h : first.Precedes second)
    (k : second.Precedes third) : first.Precedes third :=
  ⟨k.scripts.trans h.scripts, k.injected.trans h.injected, Nat.le_trans h.issued k.issued⟩

/-- The computation only goes forward, whether it succeeds or not. -/
def Forward (act : Run α) : Prop := ∀ server : Server, server.Precedes (server.run act).2

theorem forward_pure (x : α) : Forward (pure x : Run α) := Precedes.refl

theorem forward_throw (e : ServiceError) : Forward (throw e : Run α) := Precedes.refl

theorem forward_get : Forward (get : Run Server) := Precedes.refl

theorem forward_modify {g : Server → Server} (h : ∀ server : Server, server.Precedes (g server)) :
    Forward (modify g : Run PUnit) := h

theorem precedes_keep (server : Server) (p : Instance) : server.Precedes (server.keep p) :=
  ⟨rfl, rfl, Nat.le_refl _⟩

theorem precedes_remove (server : Server) (id : Uuid) : server.Precedes (server.remove id) :=
  ⟨rfl, rfl, Nat.le_refl _⟩

/-- No start of a process undoes anything. -/
theorem steady_precedes : Steady (fun _ => True) Precedes where
  refl := Precedes.refl
  trans := Precedes.trans
  next _ := ⟨rfl, rfl, Nat.le_succ _⟩
  keep server {p} _ := precedes_keep server p

theorem Forward.bind {a : Run α} {f : α → Run β} (ha : Forward a) (hf : ∀ x, Forward (f x)) :
    Forward (a >>= f) := steady_precedes.bind ha hf

theorem forward_spawnAll {spawn : String → Run Snapshot} (h : ∀ name, Forward (spawn name))
    (names : List String) : Forward (spawnAll spawn names) := steady_precedes.spawnAll h names

theorem forward_spawnings {p : Instance} {spawn : Option (String → Run Snapshot)}
    (h : ∀ f, spawn = some f → ∀ name, Forward (f name)) (step : ScriptStep) :
    Forward (spawnings p spawn step) := steady_precedes.spawnings h step

theorem forward_enter {p : Instance} {spawn : Option (String → Run Snapshot)}
    (h : ∀ f, spawn = some f → ∀ name, Forward (f name)) : Forward (enter p spawn) :=
  steady_precedes.enter (fun _ => trivial) h

theorem forward_start (levels : Nat) (name : String) (input : Option Value)
    (parent : Option Uuid) : Forward (start levels name input parent) :=
  steady_precedes.start (fun _ _ _ _ _ _ _ => trivial) name input parent

theorem forward_spawnerAt {levels : Nat} {id : Uuid} {f : String → Run Snapshot}
    (hf : spawnerAt levels id = some f) (name : String) : Forward (f name) :=
  steady_precedes.spawnerAt (fun _ _ _ _ _ _ _ => trivial) hf name

/-! ## Starting succeeds -/

/-- Every script has steps, and what its steps spawn is scripted. -/
def Complete (scripts : KeyMap Script) : Prop :=
  ∀ name script, scripts.get? name = some script →
    script.steps ≠ [] ∧ ∀ step ∈ script.steps, ∀ n ∈ step.spawn, ∃ other, scripts.get? n = some other

theorem exists_run_spawnAll {spawn : String → Run Snapshot} (forward : ∀ name, Forward (spawn name))
    {names : List String} {scripts : KeyMap Script}
    (h : ∀ name ∈ names, ∀ server : Server, server.scripts = scripts →
      ∃ s after, server.run (spawn name) = (.ok s, after)) :
    ∀ server : Server, server.scripts = scripts →
      ∃ ss after, server.run (spawnAll spawn names) = (.ok ss, after) := by
  induction names with
  | nil => exact fun server _ => ⟨[], server, rfl⟩
  | cons name rest ih =>
    intro server hscripts
    obtain ⟨s, middle, hs⟩ := h name List.mem_cons_self server hscripts
    have hmiddle := (forward name server).scripts
    rw [hs] at hmiddle
    obtain ⟨ss, after, hss⟩ :=
      ih (fun n hn => h n (List.mem_cons_of_mem _ hn)) middle (hmiddle.trans hscripts)
    refine ⟨s :: ss, after, ?_⟩
    rw [spawnAll, run_bind_of_ok hs, run_bind_of_ok hss, run_pure]

/-- A process enters a step of its script if the processes of the step can be spawned. -/
theorem exists_run_enter {p : Instance} {step : ScriptStep}
    (hstep : p.script.steps[p.index]? = some step) {spawn : Option (String → Run Snapshot)}
    (h : ∀ f, spawn = some f → ∃ ss after, server.run (spawnAll f step.spawn) = (.ok ss, after)) :
    ∃ s after, server.run (enter p spawn) = (.ok s, after) := by
  rw [enter_eq hstep]
  have hchildren : ∃ ss after, server.run (spawnings p spawn step) = (.ok ss, after) := by
    unfold spawnings
    split
    · split
      · exact ⟨[], server, rfl⟩
      · exact h _ rfl
    · exact ⟨[], server, rfl⟩
  obtain ⟨ss, middle, hss⟩ := hchildren
  rw [run_bind_of_ok hss, run_bind_modify, run_pure]
  exact ⟨_, _, rfl⟩

/-- A script of a complete server has a first step. -/
theorem Complete.first_step {scripts : KeyMap Script} (complete : Complete scripts) {name : String}
    {script : Script} (h : scripts.get? name = some script) :
    ∃ step, script.steps[0]? = some step ∧
      ∀ n ∈ step.spawn, ∃ other, scripts.get? n = some other := by
  obtain ⟨hsteps, hspawn⟩ := complete name script h
  refine ⟨script.steps.head hsteps, ?_, hspawn _ (List.head_mem hsteps)⟩
  rw [← List.head?_eq_getElem?, List.head?_eq_some_head hsteps]

/-- Starting a scripted process succeeds as long as everything is scripted. -/
theorem exists_run_start (levels : Nat) :
    ∀ (server : Server) (name : String) (input : Option Value) (parent : Option Uuid),
      Complete server.scripts → (∃ script, server.scripts.get? name = some script) →
      ∃ s after, server.run (start levels name input parent) = (.ok s, after) := by
  induction levels with
  | zero =>
    rintro server name input parent complete ⟨script, hscript⟩
    obtain ⟨step, hstep, -⟩ := complete.first_step hscript
    rw [start_eq, run_bind_of_ok (run_script hscript), issue, run_bind]
    exact exists_run_enter (p := newborn 0 input parent script _) hstep nofun
  | succ levels ih =>
    rintro server name input parent complete ⟨script, hscript⟩
    obtain ⟨step, hstep, hspawn⟩ := complete.first_step hscript
    rw [start_eq, run_bind_of_ok (run_script hscript), issue, run_bind]
    apply exists_run_enter (p := newborn (levels + 1) input parent script _) hstep
    -- spawning keeps the scripts, so the induction applies to each child wherever it comes
    intro f hf
    obtain rfl := Option.some.inj hf
    refine exists_run_spawnAll (fun n => forward_start levels n none _)
      (fun n hn other hother => ih other n none _ (hother ▸ complete) ?_) _ rfl
    rw [hother]
    exact hspawn n hn

/-- What a process of a complete server spawns can be spawned. -/
theorem exists_run_spawner (complete : Complete server.scripts) {levels : Nat} {id : Uuid}
    {names : List String} (hnames : ∀ n ∈ names, ∃ script, server.scripts.get? n = some script)
    {f : String → Run Snapshot} (hf : spawnerAt levels id = some f) :
    ∃ ss after, server.run (spawnAll f names) = (.ok ss, after) := by
  obtain ⟨l, rfl, rfl⟩ := exists_of_spawnerAt hf
  exact exists_run_spawnAll (fun n => forward_start l n none _)
    (fun n hn other hother =>
      exists_run_start l other n none _ (hother ▸ complete) (hother ▸ hnames n hn)) _ rfl

end Server

end Stepwise
