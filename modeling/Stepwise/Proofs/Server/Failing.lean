/-
# What failed requests leave behind

A request that fails leaves every process that runs as it is. But it may leave more of them: the
processes of a step are started one after the other, and those that were started before one of them
failed go on running, below a process that is not there. How many these are can be read off the
scripts.

* `Server.startable`, `Server.population` : can a process be started, and how many run more then;
* `Server.Added`, `Server.adds_start` : what starting a process adds, whether it succeeds or not;
* `Server.proceeds_run`, `Server.executes` : what becomes of a request for a process, and of any;
* `Server.Reached` : the servers that there can be;
* `Server.failed_execute` : what a request that fails leaves behind.
-/
import Stepwise.Proofs.Server.Answering
import Stepwise.Server.Account

namespace Stepwise

namespace Server

variable {α : Type}

/-! ## What the scripts tell -/

section Scripts

variable (scripts : KeyMap Script)

/-- The step on which a process is started. -/
def firstStep? (name : String) : Option ScriptStep :=
  (scripts.get? name).bind (·.steps[0]?)

/-- A process can be started, with all that it spawns through `levels` more. -/
def startable : Nat → String → Bool
  | 0, name => (firstStep? scripts name).isSome
  | levels + 1, name =>
    (firstStep? scripts name).any fun step => step.spawn.all (startable levels)

/-- How many processes are added for several names, one after the other until one fails. -/
def tally (starts : String → Bool) (count : String → Nat) : List String → Nat
  | [] => 0
  | name :: rest => count name + if starts name then tally starts count rest else 0

/-- How many processes run more once one was to be started, whether this has succeeded or not. -/
def population : Nat → String → Nat
  | 0, name => (firstStep? scripts name).elim 0 fun _ => 1
  | levels + 1, name =>
    (firstStep? scripts name).elim 0 fun step =>
      tally (startable scripts levels) (population levels) step.spawn +
        (step.spawn.all (startable scripts levels)).toNat

/-- The processes of a step can be spawned. -/
def rears : Nat → ScriptStep → Bool
  | 0, _ => true
  | levels + 1, step => step.spawn.all (startable scripts levels)

/-- How many processes run more once those of a step were to be spawned. -/
def brood : Nat → ScriptStep → Nat
  | 0, _ => 0
  | levels + 1, step => tally (startable scripts levels) (population scripts levels) step.spawn

/-- A process can be started if those of its first step can be spawned. -/
theorem startable_eq (levels : Nat) (name : String) :
    startable scripts levels name = (firstStep? scripts name).any (rears scripts levels) := by
  cases levels with
  | zero =>
    rw [startable]
    cases firstStep? scripts name <;> rfl
  | succ levels => rfl

theorem population_eq (levels : Nat) (name : String) :
    population scripts levels name = (firstStep? scripts name).elim 0 fun step =>
      brood scripts levels step + (rears scripts levels step).toNat := by
  cases levels <;> rfl

end Scripts

/-! ## What is added -/

/-- The processes that run afterwards are new ones and those that ran before; nothing else that the
server remembers has changed. -/
structure Added (before after : Server) (new : List Instance) : Prop where
  instances : after.instances = new ++ before.instances
  fresh : ∀ p ∈ new, ∃ n, before.issued ≤ n ∧ n < after.issued ∧ p.id = .issued n
  sound : after.Sound
  passwords : after.passwords = before.passwords
  storage : after.storage = before.storage
  executed : after.executed = before.executed

section Added

variable {before middle after : Server} {new more : List Instance} {parent : Option Uuid}
  {scripts : KeyMap Script}

theorem Added.none (sound : before.Sound) : Added before before [] :=
  ⟨rfl, nofun, sound, rfl, rfl, rfl⟩

theorem Added.append (first : Added before middle new) (second : Added middle after more)
    (hfirst : before.Precedes middle) (hsecond : middle.Precedes after) :
    Added before after (more ++ new) := by
  refine ⟨?_, ?_, second.sound, second.passwords.trans first.passwords,
    second.storage.trans first.storage, second.executed.trans first.executed⟩
  · rw [second.instances, first.instances, List.append_assoc]
  · intro p hp
    have hle := hfirst.issued
    have hle' := hsecond.issued
    rcases List.mem_append.1 hp with hp | hp
    · obtain ⟨n, hn, hlt, hid⟩ := second.fresh p hp
      exact ⟨n, by omega, hlt, hid⟩
    · obtain ⟨n, hn, hlt, hid⟩ := first.fresh p hp
      exact ⟨n, hn, by omega, hid⟩

/-- What was added did not run before. -/
theorem Added.not_mem (added : Added before after new) (sound : before.Sound)
    (distinct : after.IdsDistinct) {p : Instance} (hp : p ∈ new) :
    p.id ∉ before.instances.map (·.id) := by
  obtain ⟨n, hn, hlt, hid⟩ := added.fresh p hp
  rw [hid]
  exact sound.not_mem_of_le distinct hn hlt

/-- A computation below a process adds so many processes, and succeeds or not. -/
def Adds (scripts : KeyMap Script) (parent : Option Uuid) (act : Run α) (count : Nat)
    (succeeds : Bool) : Prop :=
  ∀ ⦃before after : Server⦄ ⦃r : Except ServiceError α⦄, before.run act = (r, after) →
    before.scripts = scripts → before.Sound → before.Issued parent → after.IdsDistinct →
    ∃ new, Added before after new ∧ new.length = count ∧ r.isOk = succeeds

theorem adds_pure (x : α) : Adds scripts parent (pure x : Run α) 0 true := by
  rintro before after r h - sound - -
  cases h
  exact ⟨[], .none sound, rfl, rfl⟩

/-- Of several processes those are added that come before the first one that fails, and what this
one adds. -/
theorem adds_spawnAll {f : String → Run Snapshot} {count : String → Nat} {starts : String → Bool}
    (forward : ∀ name, Forward (f name))
    (h : ∀ name, Adds scripts parent (f name) (count name) (starts name)) (names : List String) :
    Adds scripts parent (spawnAll f names) (tally starts count names) (names.all starts) := by
  induction names with
  | nil => exact adds_pure []
  | cons name rest ih =>
    intro before after r hrun hscripts sound issued distinct
    rw [spawnAll, run_bind] at hrun
    rw [tally, List.all_cons]
    cases hfirst : before.run (f name) with
    | mk r₁ middle =>
      have hprecedes := forward name before
      rw [hfirst] at hrun hprecedes
      cases r₁ with
      | error e =>
        cases hrun
        obtain ⟨new, added, hlength, hok⟩ := h name hfirst hscripts sound issued distinct
        rw [← hok]
        exact ⟨new, added, hlength, rfl⟩
      | ok child =>
        dsimp only at hrun
        rw [run_bind] at hrun
        have hprecedes' := forward_spawnAll forward rest middle
        cases hrest : middle.run (spawnAll f rest) with
        | mk r₂ last =>
          rw [hrest] at hrun hprecedes'
          have hlast : last = after := by
            cases r₂ <;> exact (Prod.ext_iff.1 hrun).2
          subst hlast
          obtain ⟨new, added, hlength, hok⟩ := h name hfirst hscripts sound issued
            (distinct.of_le hprecedes'.issued)
          obtain ⟨more, added', hlength', hok'⟩ := ih hrest (hprecedes.scripts.trans hscripts)
            added.sound (issued.forward hprecedes) distinct
          refine ⟨more ++ new, added.append added' hprecedes hprecedes', ?_, ?_⟩
          · rw [List.length_append, hlength, hlength', ← hok]
            exact Nat.add_comm _ _
          · rw [← hok, ← hok']
            cases r₂ <;> cases hrun <;> rfl

/-- The processes of a step are spawned, unless it was entered before. -/
theorem adds_spawnings {p : Instance} {step : ScriptStep} (levels : Nat)
    (h : ∀ l, levels = l + 1 → ∀ name, Adds scripts (some p.id) (start l name none (some p.id))
      (population scripts l name) (startable scripts l name))
    (fresh : p.entered.contains p.index = false) :
    Adds scripts (some p.id) (spawnings p (spawnerAt levels p.id) step)
      (brood scripts levels step) (rears scripts levels step) := by
  cases levels with
  | zero => exact adds_pure []
  | succ levels =>
    have hspawn : spawnings p (spawnerAt (levels + 1) p.id) step =
        spawnAll (fun name => start levels name none (some p.id)) step.spawn := by
      unfold spawnings spawnerAt
      dsimp only
      rw [fresh]
      rfl
    rw [hspawn]
    exact adds_spawnAll (fun name => forward_start levels name none _) (h levels rfl) step.spawn

/-- The server that has given one more identifier out. -/
def next (server : Server) : Server := { server with issued := server.issued + 1 }

theorem precedes_next (server : Server) : server.Precedes server.next :=
  ⟨rfl, rfl, Nat.le_succ _⟩

theorem Added.of_next (added : Added before.next after new) : Added before after new := by
  refine ⟨added.instances, fun p hp => ?_, added.sound, added.passwords, added.storage,
    added.executed⟩
  obtain ⟨n, hn, hlt, hid⟩ := added.fresh p hp
  exact ⟨n, Nat.le_of_succ_le hn, hlt, hid⟩

/-- A new process is kept once those that it spawns are there. -/
theorem Added.keep (added : Added before.next middle new) (sound : before.Sound)
    (precedes : before.next.Precedes middle) (distinct : middle.IdsDistinct) {p : Instance}
    (hid : p.id = .issued before.issued) (fits : p.Fits middle) :
    Added before (middle.keep p) (p :: new) := by
  have hlt : before.issued < middle.issued := precedes.issued
  -- nobody else has the identifier of the new process, not even what it spawns
  have alone : p.id ∉ middle.instances.map (·.id) := by
    rw [added.instances, List.map_append, List.mem_append, hid]
    rintro (hmem | hmem)
    · obtain ⟨q, hq, hqid⟩ := List.mem_map.1 hmem
      exact distinct.not_new ⟨before.issued, Nat.lt_succ_self _, hqid⟩ (added.fresh q hq)
    · exact sound.not_mem_of_le distinct (Nat.le_refl _) hlt hmem
  refine ⟨?_, ?_, ?_, added.passwords, added.storage, added.executed⟩
  · rw [instances_keep_new alone, added.instances]
    rfl
  · intro q hq
    rcases List.mem_cons.1 hq with rfl | hq
    · exact ⟨before.issued, Nat.le_refl _, hlt, hid⟩
    · exact added.of_next.fresh q hq
  · intro q hq
    rcases mem_keep.1 hq with rfl | ⟨hq, -⟩
    · exact fits.forward (precedes_keep middle _)
    · exact (added.sound q hq).forward (precedes_keep middle _)

/-- A process on its first step is kept once the processes of the step are spawned; if one of them
fails, it is not. -/
theorem adds_enter {levels : Nat} {input : Option Value} {script : Script} {name : String}
    {step : ScriptStep} (hscript : before.scripts.get? name = some script)
    (hstep : script.steps[0]? = some step)
    (h : ∀ l, levels = l + 1 → ∀ name, Adds before.scripts (some (.issued before.issued))
      (start l name none (some (.issued before.issued))) (population before.scripts l name)
      (startable before.scripts l name))
    {r : Except ServiceError Snapshot}
    (hrun : before.next.run (enter (newborn levels input parent script (.issued before.issued))
      (spawnerAt levels (.issued before.issued))) = (r, after))
    (sound : before.Sound) (issued : before.Issued parent) (distinct : after.IdsDistinct) :
    ∃ new, Added before after new ∧ new.length = brood before.scripts levels step +
      (rears before.scripts levels step).toNat ∧ r.isOk = rears before.scripts levels step := by
  generalize hp : newborn levels input parent script (.issued before.issued) = p at hrun
  have hpid : p.id = .issued before.issued := hp ▸ rfl
  have hpstep : p.script.steps[p.index]? = some step := hp ▸ hstep
  have hpentered : p.entered.contains p.index = false := hp ▸ rfl
  rw [enter_eq hpstep, run_bind] at hrun
  rw [← hpid] at h hrun
  have forward : Forward (spawnings p (spawnerAt levels p.id) step) :=
    forward_spawnings (fun f hf => forward_spawnerAt hf) step
  have hprecedes := forward before.next
  cases hspawn : before.next.run (spawnings p (spawnerAt levels p.id) step) with
  | mk r₁ middle =>
    rw [hspawn] at hrun hprecedes
    have hissued : middle.issued = after.issued := by
      cases r₁ <;> cases hrun <;> rfl
    have hself : before.next.Issued (some p.id) := fun x hx =>
      ⟨before.issued, Nat.lt_succ_self _, (Option.some.inj hx).symm.trans hpid⟩
    have distinct' : middle.IdsDistinct := distinct.of_le (Nat.le_of_eq hissued)
    obtain ⟨new, added, hlength, hok⟩ := adds_spawnings levels h hpentered hspawn rfl
      (sound.of_subset (precedes_next before) fun _ hq => hq) hself distinct'
    rw [← hok, ← hlength]
    cases r₁ with
    | error e =>
      cases hrun
      exact ⟨new, added.of_next, rfl, rfl⟩
    | ok children =>
      cases hrun
      refine ⟨_, added.keep sound hprecedes distinct' hpid ⟨?_, ⟨name, ?_⟩, before.issued,
        hprecedes.issued, hpid, ?_⟩, rfl, rfl⟩
      · exact (List.getElem?_eq_some_iff.1 hpstep).1
      · rw [hprecedes.scripts, ← hp]
        exact hscript
      · rw [← hp]
        exact issued

/-- What starting a process adds, if it is known for those that it spawns. -/
theorem adds_start_of {levels : Nat} (name : String) (input : Option Value) (parent : Option Uuid)
    (h : ∀ (id : Uuid) (l : Nat), levels = l + 1 → ∀ name, Adds scripts (some id)
      (start l name none (some id)) (population scripts l name) (startable scripts l name)) :
    Adds scripts parent (start levels name input parent) (population scripts levels name)
      (startable scripts levels name) := by
  rintro before after r hrun rfl sound issued distinct
  rw [start_eq] at hrun
  rw [startable_eq, population_eq, firstStep?]
  cases hscript : before.scripts.get? name with
  | none =>
    rw [run_bind, run_script_none hscript] at hrun
    cases hrun
    exact ⟨[], .none sound, rfl, rfl⟩
  | some script =>
    rw [run_bind_of_ok (run_script hscript)] at hrun
    have hrun : before.next.run (enter (newborn levels input parent script
      (.issued before.issued)) (spawnerAt levels (.issued before.issued))) = (r, after) := hrun
    rw [Option.bind_some]
    cases hstep : script.steps[0]? with
    | none =>
      rw [enter_none hstep, run_throw] at hrun
      cases hrun
      refine ⟨[], ⟨rfl, nofun, ?_, rfl, rfl, rfl⟩, rfl, rfl⟩
      exact sound.of_subset (precedes_next before) fun _ hq => hq
    | some step => exact adds_enter hscript hstep (h _) hrun sound issued distinct

/-- What starting a process adds, whether it succeeds or not. -/
theorem adds_start (levels : Nat) :
    ∀ (name : String) (input : Option Value) (parent : Option Uuid),
      Adds scripts parent (start levels name input parent) (population scripts levels name)
        (startable scripts levels name) := by
  induction levels with
  | zero => exact fun name input parent => adds_start_of name input parent fun id l hl => by cases hl
  | succ levels ih =>
    intro name input parent
    refine adds_start_of name input parent fun id l hl name => ?_
    obtain rfl := Nat.succ.inj hl
    exact ih name none _

end Added

/-! ## Requests for running processes -/

end Server

/-- The number of the step that a process enters for a request; none if it enters none, because it is
cancelled or the request is refused. -/
def Instance.heads (p : Instance) (s : Snapshot) : Mode → Bool → Option Nat
  | .cancel, _ => none
  | .reload, _ => some p.index
  | .rollback, _ =>
    if p.index = 0 || !(p.script.steps[p.index]?).any (·.canRollback) then none
    else some (p.index - 1)
  | .execute, changed =>
    (p.script.steps[p.index]?).bind fun step =>
      if changed then some p.index
      else match step.validate
          (s.parameters.foldl (fun values q => values.insert q.name q.value) p.values) with
        | .error _ => none
        | .ok () => some (p.index + 1)

/-- A process that goes on leaves its step for the next one. -/
theorem Instance.heads_execute {p : Instance} {s : Snapshot} {k : Nat}
    (heads : p.heads s .execute false = some k) :
    p.index < p.script.steps.length ∧ k = p.index + 1 := by
  rw [Instance.heads] at heads
  obtain ⟨step, hstep, heads⟩ := Option.bind_eq_some_iff.1 heads
  refine ⟨(List.getElem?_eq_some_iff.1 hstep).1, ?_⟩
  rw [if_neg Bool.false_ne_true] at heads
  split at heads
  · cases heads
  · exact (Option.some.inj heads).symm

/-- How many processes run more once a process has tried to enter a step: none if it was there before. -/
def Instance.litter (p : Instance) (scripts : KeyMap Script) (index : Nat) : Nat :=
  if p.entered.contains index then 0
  else (p.script.steps[index]?).elim 0 (Server.brood scripts (Server.spawnLimit - p.depth))

/-- The process is the same one, with other values or on another step. -/
structure Instance.Resumes (q p : Instance) : Prop where
  id : q.id = p.id
  script : q.script = p.script
  parent : q.parent = p.parent
  depth : q.depth = p.depth
  entered : q.entered = p.entered

namespace Server

section Requests

variable {before after : Server} {r : Except ServiceError Snapshot}

/-- How a request for a process goes on: it is refused, or it ends the process, or the process with
other values or on another step comes to its end or enters its step. -/
inductive Proceeds (before : Server) (s : Snapshot) (mode : Mode) (changed : Bool) :
    Except ServiceError Snapshot × Server → Prop where
  | refused (e : ServiceError)
      (none : ∀ p, before.instance? s.id = some p → p.heads s mode changed = none) :
    Proceeds before s mode changed (.error e, before)
  | ended {p : Instance} (found : before.instance? s.id = some p) (asked : mode = .cancel) :
    Proceeds before s mode changed (before.run (finish p s.step true))
  | settled {p q : Instance} (found : before.instance? s.id = some p) (resumes : q.Resumes p)
      (heads : p.heads s mode changed = some q.index) :
    Proceeds before s mode changed (before.run (settle q s.step))

/-- A request for a process goes on in one of these ways. -/
theorem proceeds_run (before : Server) (s : Snapshot) (mode : Mode) (changed : Bool) :
    Proceeds before s mode changed (before.run (proceed s mode changed)) := by
  rw [proceed, run_bind_get]
  cases found : before.instance? s.id with
  | none => exact .refused _ fun p hp => by rw [found] at hp; cases hp
  | some p =>
    have refused (e : ServiceError) (h : p.heads s mode changed = none) :
        Proceeds before s mode changed (.error e, before) :=
      .refused e fun q hq => Option.some.inj (found.symm.trans hq) ▸ h
    cases mode with
    | cancel => exact .ended found rfl
    | reload => exact .settled found ⟨rfl, rfl, rfl, rfl, rfl⟩ rfl
    | rollback =>
      dsimp only
      unfold goBack
      split
      · next stuck => exact refused _ (if_pos stuck)
      · next free => exact .settled found ⟨rfl, rfl, rfl, rfl, rfl⟩ (if_neg free)
    | execute =>
      dsimp only
      unfold advance
      cases hstep : p.script.steps[p.index]? with
      | none =>
        refine refused _ ?_
        rw [Instance.heads, hstep]
        rfl
      | some step =>
        have heads : p.heads s .execute changed = if changed then some p.index
            else match step.validate
                (s.parameters.foldl (fun values q => values.insert q.name q.value) p.values) with
              | .error _ => none
              | .ok () => some (p.index + 1) := by
          rw [Instance.heads, hstep]
          rfl
        dsimp only
        split
        · next hchanged =>
          refine .settled found ⟨rfl, rfl, rfl, rfl, rfl⟩ ?_
          rw [heads, if_pos hchanged]
        · next hchanged =>
          rw [if_neg hchanged] at heads
          split
          · next e he =>
            refine refused e ?_
            rw [heads, he]
          · next he =>
            refine .settled found ⟨rfl, rfl, rfl, rfl, rfl⟩ ?_
            rw [heads, he]

/-- A process that cannot enter its step leaves those that it has spawned so far. -/
theorem added_settle {p q : Instance} {step : String} {e : ServiceError} (sound : before.Sound)
    (hp : p ∈ before.instances) (resumes : q.Resumes p)
    (h : before.run (settle q step) = (.error e, after)) (distinct : after.IdsDistinct) :
    ∃ new, Added before after new ∧ new.length = p.litter before.scripts q.index := by
  unfold settle at h
  split at h
  · rw [run_finish] at h
    cases h
  · next hindex =>
    have hstep := List.getElem?_eq_getElem (Nat.lt_of_not_le hindex)
    rw [enter_eq hstep, run_bind, spawner_eq] at h
    rw [Instance.litter, ← resumes.entered, ← resumes.script, ← resumes.depth, hstep]
    cases hentered : q.entered.contains q.index with
    | true =>
      -- the process was on this step before, so nothing is spawned and nothing fails
      have hspawn : spawnings q (spawnerAt (spawnLimit - q.depth) q.id) q.script.steps[q.index] =
          pure [] := by
        unfold spawnings
        split
        · exact if_pos hentered
        · rfl
      rw [hspawn, run_pure] at h
      cases h
    | false =>
      have hself : before.Issued (some q.id) := by
        obtain ⟨n, hn, hpn, -⟩ := (sound p hp).numbered
        exact fun x hx => ⟨n, hn, (Option.some.inj hx).symm.trans (resumes.id.trans hpn)⟩
      cases hspawn : before.run (spawnings q (spawnerAt (spawnLimit - q.depth) q.id)
          q.script.steps[q.index]) with
      | mk r middle =>
        rw [hspawn] at h
        cases r with
        | ok children => cases h
        | error e' =>
          cases h
          obtain ⟨new, added, hlength, -⟩ := adds_spawnings (spawnLimit - q.depth)
            (fun l _ name => adds_start l name none _) hentered hspawn rfl sound hself distinct
          exact ⟨new, added, hlength⟩

end Requests

/-! ## Servers that there can be -/

/-- A server with scripts, after whatever it was told and asked. -/
inductive Reached (scripts : List Script) : Server → Prop where
  | new : Reached scripts (ofScripts scripts)
  | withUser {server : Server} (reached : Reached scripts server) (user password : String) :
    Reached scripts (server.withUser user password)
  | store {server : Server} (reached : Reached scripts server) (key value : String) :
    Reached scripts (server.store key value)
  | failNext {server : Server} (reached : Reached scripts server) (e : ServiceError) :
    Reached scripts (server.failNext e)
  | execute {server : Server} (reached : Reached scripts server) (request : Request) :
    Reached scripts (server.run (execute request)).2

section Reached

variable {before after : Server} {r : Except ServiceError Snapshot} {request : Request}

/-- Only scripts, processes and identifiers matter. -/
theorem Sound.same (sound : before.Sound) (hscripts : after.scripts = before.scripts)
    (hissued : after.issued = before.issued) (hinstances : after.instances = before.instances) :
    after.Sound := by
  intro p hp
  have fits := sound p (hinstances ▸ hp)
  exact ⟨fits.placed, hscripts ▸ fits.scripted, hissued ▸ fits.numbered⟩

/-- A request that fails as it was told to is noted, and does nothing. -/
theorem run_execute_injected {e : ServiceError} {rest : List ServiceError}
    (injected : before.injected = e :: rest) (request : Request) :
    before.run (execute request) = (.error e, { before.noting request with injected := rest }) := by
  unfold execute
  rw [run_bind_modify, run_bind_get]
  simp only [injected, noting]
  rfl

/-- What becomes of a request: an error that was injected, a start, or what becomes of the process that
it is for. -/
inductive Executes (before : Server) : Request → Except ServiceError Snapshot → Server → Prop where
  | injected {request : Request} {e : ServiceError} {rest : List ServiceError}
      (injected : before.injected = e :: rest) :
    Executes before request (.error e) { before.noting request with injected := rest }
  | started {d : Descriptor} {r : Except ServiceError Snapshot} {after : Server}
      (calm : before.injected = [])
      (run : (before.noting (.start d)).run (start spawnLimit d.name d.input none) = (r, after)) :
    Executes before (.start d) r after
  | refused {s : Snapshot} {mode : Mode} {event : Option Interaction} {e : ServiceError}
      (calm : before.injected = [])
      (none : ∀ p, before.instance? s.id = some p → p.heads s mode (fieldChanged event) = none) :
    Executes before (.continue s mode event) (.error e) (before.noting (.continue s mode event))
  | ended {s : Snapshot} {mode : Mode} {event : Option Interaction} {p : Instance}
      {r : Except ServiceError Snapshot} {after : Server} (calm : before.injected = [])
      (found : before.instance? s.id = some p)
      (run : (before.noting (.continue s mode event)).run (finish p s.step true) = (r, after))
      (asked : mode = .cancel) : Executes before (.continue s mode event) r after
  | settled {s : Snapshot} {mode : Mode} {event : Option Interaction} {p q : Instance}
      {r : Except ServiceError Snapshot} {after : Server} (calm : before.injected = [])
      (found : before.instance? s.id = some p) (resumes : q.Resumes p)
      (heads : p.heads s mode (fieldChanged event) = some q.index)
      (run : (before.noting (.continue s mode event)).run (settle q s.step) = (r, after)) :
    Executes before (.continue s mode event) r after

theorem executes (h : before.run (execute request) = (r, after)) :
    Executes before request r after := by
  cases injected : before.injected with
  | cons e rest =>
    rw [run_execute_injected injected] at h
    cases h
    exact .injected injected
  | nil =>
    cases request with
    | start d =>
      rw [run_execute_start injected] at h
      exact .started injected h
    | «continue» s mode event =>
      rw [run_execute_continue injected] at h
      have proceeds := proceeds_run (before.noting (.continue s mode event)) s mode
        (fieldChanged event)
      rw [h] at proceeds
      generalize hout : (r, after) = out at proceeds
      cases proceeds with
      | refused _ none =>
        cases hout
        exact .refused injected none
      | ended found asked => exact .ended injected found hout.symm asked
      | settled found resumes heads => exact .settled injected found resumes heads hout.symm

theorem issued_le_execute (before : Server) (request : Request) :
    before.issued ≤ (before.run (execute request)).2.issued := by
  cases injected : before.injected with
  | nil => exact (precedes_execute injected request).issued
  | cons e rest =>
    rw [run_execute_injected injected]
    exact Nat.le_refl _

/-- The server stays sound, whether the process comes to its end, enters its step or cannot. -/
theorem Sound.settle {p q : Instance} {step : String} (sound : before.Sound)
    (hp : p ∈ before.instances) (resumes : q.Resumes p)
    (h : before.run (Server.settle q step) = (r, after)) (distinct : after.IdsDistinct) :
    after.Sound := by
  cases r with
  | error e =>
    obtain ⟨new, added, -⟩ := added_settle sound hp resumes h distinct
    exact added.sound
  | ok s =>
    unfold Server.settle at h
    split at h
    · rw [run_finish] at h
      cases h
      exact sound.of_subset (precedes_remove before q.id) fun p hp => List.mem_of_mem_filter hp
    · exact (entered_of_run hp resumes.id resumes.parent resumes.script h sound distinct).sound

/-- The server stays sound, whatever it is asked. -/
theorem Sound.execute (sound : before.Sound) (h : before.run (Server.execute request) = (r, after))
    (distinct : after.IdsDistinct) : after.Sound := by
  cases executes h with
  | injected => exact sound.same rfl rfl rfl
  | started _ run =>
    obtain ⟨new, added, -⟩ := adds_start spawnLimit _ _ none run rfl (sound.noting _) nofun distinct
    exact added.sound
  | refused => exact sound.noting _
  | @ended s mode event p _ _ _ _ run =>
    rw [run_finish] at run
    cases run
    exact (sound.noting _).of_subset (precedes_remove _ p.id) fun p hp => List.mem_of_mem_filter hp
  | settled _ found resumes _ run =>
    exact (sound.noting _).settle (List.mem_of_find?_eq_some found) resumes run distinct

/-- A server that there can be is sound, as long as no identifier was given out twice. -/
theorem Reached.sound {scripts : List Script} {server : Server} (reached : Reached scripts server)
    (distinct : server.IdsDistinct) : server.Sound := by
  induction reached with
  | new => exact fun p hp => by cases hp
  | withUser _ user password ih => exact (ih distinct).same rfl rfl rfl
  | store _ key value ih => exact (ih distinct).same rfl rfl rfl
  | failNext _ e ih => exact (ih distinct).same rfl rfl rfl
  | @execute server _ request ih =>
    exact (ih (distinct.of_le (issued_le_execute server request))).execute rfl distinct

end Reached

/-! ## Requests that fail -/

/-- How many processes a request leaves behind if it fails. -/
def strays (server : Server) (request : Request) : Nat :=
  if server.injected.isEmpty then
    match request with
    | .start d => population server.scripts spawnLimit d.name
    | .continue s mode event =>
      (server.instance? s.id).elim 0 fun p =>
        (p.heads s mode (fieldChanged event)).elim 0 (p.litter server.scripts)
  else 0

section Failed

variable {before after : Server} {request : Request} {e : ServiceError}

/-- What a request that fails adds to a sound server. -/
theorem added_execute (sound : before.Sound) (calm : before.injected = [])
    (h : before.run (execute request) = (.error e, after)) (distinct : after.IdsDistinct) :
    ∃ new, Added (before.noting request) after new ∧ new.length = before.strays request := by
  have hcalm : before.injected.isEmpty = true := List.isEmpty_iff.2 calm
  unfold strays
  rw [if_pos hcalm]
  cases executes h with
  | injected injected =>
    rw [calm] at injected
    cases injected
  | started _ run =>
    obtain ⟨new, added, hlength, -⟩ := adds_start spawnLimit _ _ none run rfl (sound.noting _) nofun
      distinct
    exact ⟨new, added, hlength⟩
  | @refused s mode event _ _ none =>
    refine ⟨[], .none (sound.noting _), ?_⟩
    dsimp only
    cases found : before.instance? s.id with
    | none => rfl
    | some p =>
      rw [Option.elim_some, none p found]
      rfl
  | ended _ _ run =>
    rw [run_finish] at run
    cases run
  | settled _ found resumes heads run =>
    obtain ⟨new, added, hlength⟩ := added_settle (sound.noting _)
      (List.mem_of_find?_eq_some found) resumes run distinct
    refine ⟨new, added, hlength.trans ?_⟩
    dsimp only
    rw [found, Option.elim_some, heads]
    rfl

/-- A request that fails adds nothing where every script has steps and spawns only what is scripted. -/
theorem Complete.instances_of_error (complete : Complete before.scripts) (sound : before.Sound)
    (h : before.run (execute request) = (.error e, after)) (distinct : before.IdsDistinct) :
    after.instances = before.instances := by
  cases injected : before.injected with
  | cons e' rest =>
    rw [run_execute_injected injected] at h
    cases h
    rfl
  | nil =>
    cases answered_execute injected sound complete h distinct with
    | unscripted _ same => exact same
    | unknown _ _ _ _ same => exact same
    | invalid _ _ _ _ _ same => exact same
    | stuck _ _ _ _ _ same => exact same

/-- What a request that fails leaves behind, on any server that there can be. Every process that runs
is left as it is. There are more of them, with new identifiers, exactly as many as the scripts tell;
and none where every script has steps and spawns only what is scripted. Scripts, passwords and what
is stored stay; the mode of the request is noted, and an error that the server was told is used up. -/
theorem failed_execute {scripts : List Script} (reached : Reached scripts before)
    (h : before.run (execute request) = (.error e, after)) (distinct : after.IdsDistinct) :
    (∃ strays, after.instances = strays ++ before.instances ∧
      strays.length = before.strays request ∧
      ∀ p ∈ strays, p.id ∉ before.instances.map (·.id)) ∧
    (after.instances = before.instances ↔ before.strays request = 0) ∧
    (Complete before.scripts → after.instances = before.instances) ∧
    after.scripts = before.scripts ∧ after.passwords = before.passwords ∧
    after.storage = before.storage ∧ after.executed = before.executed ++ [request.mode] ∧
    after.injected = before.injected.tail := by
  have distinct' : before.IdsDistinct := by
    have hle := issued_le_execute before request
    rw [h] at hle
    exact distinct.of_le hle
  have sound := reached.sound distinct'
  have unchanged (complete : Complete before.scripts) : after.instances = before.instances :=
    complete.instances_of_error sound h distinct'
  cases injected : before.injected with
  | cons e' rest =>
    rw [run_execute_injected injected] at h
    cases h
    have none : before.strays request = 0 := by
      unfold strays
      rw [injected]
      rfl
    exact ⟨⟨[], rfl, none.symm, nofun⟩, ⟨fun _ => none, fun _ => rfl⟩, unchanged, rfl, rfl, rfl,
      rfl, rfl⟩
  | nil =>
    obtain ⟨new, added, hlength⟩ := added_execute sound injected h distinct
    have precedes := precedes_execute injected request
    rw [h] at precedes
    have instances : after.instances = new ++ before.instances := added.instances
    refine ⟨⟨new, instances, hlength, fun p hp => ?_⟩, ?_, unchanged, precedes.scripts,
      added.passwords, added.storage, added.executed, ?_⟩
    · exact added.not_mem (sound.noting request) distinct hp
    · rw [← hlength, instances, List.length_eq_zero_iff]
      exact ⟨fun same => List.append_left_eq_self.1 same, fun none => by rw [none]; rfl⟩
    · rw [precedes.injected, injected]
      rfl

/-- An order that spawns a note, and then something that is not scripted. -/
def strayScripts : List Script :=
  [⟨"Order", "", [⟨"Address", none, [], false, false, false, ["Note", "Missing"]⟩]⟩,
    ⟨"Note", "", [⟨"Text", none, [], false, false, false, []⟩]⟩]

/-- The request that starts it. -/
def strayRequest : Request := .start ⟨"Order", none, "en-US", .none⟩

/-- An order that spawns these on its second step. -/
def lateScripts : List Script :=
  [⟨"Order", "", [⟨"Address", none, [], false, false, false, []⟩,
      ⟨"Bundles", none, [], false, false, false, ["Note", "Missing"]⟩]⟩,
    ⟨"Note", "", [⟨"Text", none, [], false, false, false, []⟩]⟩]

/-- The order runs, on its first step. -/
def orderRuns : Server := ((ofScripts lateScripts).run (execute strayRequest)).2

/-- The request that takes it to the second one. -/
def orderGoesOn : Request := .continue (.ofStep (.issued 0) "Order" "Address") .execute none

/-- The order cannot go on. It is left as it is, and a note runs that did not run before. -/
theorem failed_execute_orderGoesOn :
    orderRuns.instances.length = 1 ∧
      ∃ after, orderRuns.run (execute orderGoesOn) =
          (.error (.fault "Unknown process 'Missing'"), after) ∧
        (∃ strays, after.instances = strays ++ orderRuns.instances ∧ strays.length = 1 ∧
          ∀ p ∈ strays, p.id ∉ orderRuns.instances.map (·.id)) ∧
        after.executed = [.execute, .execute] := by
  have h : orderRuns.run (execute orderGoesOn) = (.error (.fault "Unknown process 'Missing'"), _) := rfl
  obtain ⟨strays, -, -, -, -, -, executed, -⟩ :=
    failed_execute (.execute .new strayRequest) h (idsDistinct_of_le (by decide))
  exact ⟨rfl, _, h, strays, executed⟩

/-- The start of the order fails, and the note runs on. -/
theorem failed_execute_strays :
    ((ofScripts strayScripts).run (execute strayRequest)).1 =
        .error (.fault "Unknown process 'Missing'") ∧
      (ofScripts strayScripts).instances.length = 0 ∧
      ((ofScripts strayScripts).run (execute strayRequest)).2.instances.length = 1 :=
  ⟨rfl, rfl, rfl⟩

end Failed

end Server

end Stepwise
