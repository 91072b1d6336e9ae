/-
# What becomes of a request

A request to a sound server fails, starts a process, ends the process that it is for, or lets that
process enter a step. What happens to the processes that run can be told in each case, whatever the
scripts are.

* `Request.subject?` : the process that a request is for;
* `Server.Outcome`, `Server.outcome_execute` : what becomes of a request;
* `Server.Steady.execute` : what requests keep;
* `Server.fresh_execute` : what a request adds has entered one step only, even if the request fails.
-/
import Stepwise.Proofs.Server.Failing

namespace Stepwise

/-- The process that a request is for; none if it starts one. -/
def Request.subject? : Request → Option Uuid
  | .start _ => none
  | .continue s _ _ => some s.id

/-- The process is over: it is cancelled, or goes on from its last step. -/
inductive Instance.IsOver (q p : Instance) (s : Snapshot) (mode : Mode) (changed : Bool) : Bool → Prop
  where
  | cancelled (asked : mode = .cancel) : q.IsOver p s mode changed true
  | past (heads : p.heads s mode changed = some q.index)
      (last : q.script.steps.length ≤ q.index) : q.IsOver p s mode changed false

/-- The process has entered the step that it is on, and no other one. -/
def Instance.Fresh (p : Instance) : Prop := ∀ k, k ∈ p.entered ↔ k = p.index

namespace Server

variable {before after : Server} {r : Except ServiceError Snapshot} {request : Request}

/-! ## The outcomes -/

/-- What becomes of a request. The last two arguments are the answer and the server afterwards. -/
inductive Outcome (before : Server) :
    Request → Except ServiceError Snapshot → Server → Prop where
  /-- Some processes may be left behind that were started on the way. -/
  | failed {request : Request} {e : ServiceError} {after : Server} {new : List Instance}
      (added : Added (before.noting request) after new) : Outcome before request (.error e) after
  | started {d : Descriptor} {s : Snapshot} {after : Server}
      (run : (before.noting (.start d)).run (start spawnLimit d.name d.input none) = (.ok s, after))
      (grown : Grown none before after [s]) : Outcome before (.start d) (.ok s) after
  /-- All that the process has spawned is gone as well. -/
  | ended {u : Snapshot} {mode : Mode} {event : Option Interaction} {p q : Instance}
      {cancelled : Bool} {after : Server} (found : before.instance? u.id = some p)
      (resumes : q.Resumes p) (stops : q.IsOver p u mode (fieldChanged event) cancelled)
      (left : ∀ x, x ∈ after.instances ↔
        x ∈ before.instances ∧ ¬ Descends before.instances p.id x.id)
      (run : after = (before.noting (.continue u mode event)).remove p.id) :
    Outcome before (.continue u mode event) (.ok (q.lastSnapshot u.step cancelled)) after
  | entered {u : Snapshot} {mode : Mode} {event : Option Interaction} {p q : Instance}
      {s : Snapshot} {after : Server} (found : before.instance? u.id = some p)
      (resumes : q.Resumes p) (heads : p.heads u mode (fieldChanged event) = some q.index)
      (run : (before.noting (.continue u mode event)).run (enter q (spawner q)) = (.ok s, after))
      (entered : Entered before after p s s.children) :
    Outcome before (.continue u mode event) (.ok s) after

/-- Identifiers are distinct before a request if they are afterwards. -/
theorem IdsDistinct.of_execute (h : before.run (execute request) = (r, after))
    (distinct : after.IdsDistinct) : before.IdsDistinct := by
  have hle := issued_le_execute before request
  rw [h] at hle
  exact distinct.of_le hle

/-- A request that fails leaves all processes as they are, whether it was told to fail or not. -/
theorem outcome_error {e : ServiceError} (sound : before.Sound)
    (h : before.run (execute request) = (.error e, after)) (distinct : after.IdsDistinct) :
    Outcome before request (.error e) after := by
  cases injected : before.injected with
  | cons e' rest =>
    rw [run_execute_injected injected] at h
    cases h
    have added : Added (before.noting request) { before.noting request with injected := rest } [] :=
      ⟨rfl, nofun, sound.same rfl rfl rfl, rfl, rfl, rfl⟩
    exact .failed added
  | nil =>
    obtain ⟨new, added, -⟩ := added_execute sound injected h distinct
    exact .failed added

/-- There is nothing else that can become of a request. -/
theorem outcome_execute (sound : before.Sound) (h : before.run (execute request) = (r, after))
    (distinct : after.IdsDistinct) : Outcome before request r after := by
  have earlier : before.IdsDistinct := .of_execute h distinct
  cases r with
  | error e => exact outcome_error sound h distinct
  | ok s =>
    cases executes h with
    | started _ run =>
      have g := grown_start spawnLimit _ _ none run (sound.noting _) nofun distinct
      exact .started run ⟨g.kept, g.ids, g.new, g.planted, g.sound⟩
    | @ended u mode event p _ _ _ found run asked =>
      rw [run_finish] at run
      cases run
      refine .ended found ⟨rfl, rfl, rfl, rfl, rfl⟩ (.cancelled asked) (fun x => ?_) rfl
      have hp : p ∈ (before.noting (.continue u mode event)).instances := (instance?_eq_some.1 found).1
      exact mem_remove (sound.noting _).numbered earlier (List.mem_map_of_mem hp)
    | @settled u mode event p q _ _ _ found resumes heads run =>
      have hp : p ∈ (before.noting (.continue u mode event)).instances := (instance?_eq_some.1 found).1
      unfold settle at run
      split at run
      · next last =>
        rw [run_finish, resumes.id] at run
        cases run
        refine .ended found resumes (.past heads last) (fun x => ?_) rfl
        exact mem_remove (sound.noting _).numbered earlier (List.mem_map_of_mem hp)
      · have e := entered_of_run hp resumes.id resumes.parent
          resumes.script run (sound.noting _) distinct
        exact .entered found resumes heads run ⟨e.shown, e.kept, e.ids, e.new, e.planted, e.sound⟩

/-! ## What happens to the processes that run -/

/-- All processes that run before a request run on as they are, but for the one that it is for and
those that this one has spawned. -/
theorem Outcome.kept (outcome : Outcome before request r after) {q : Instance}
    (hq : q ∈ before.instances)
    (apart : ∀ x, request.subject? = some x → ¬ Descends before.instances x q.id) :
    q ∈ after.instances := by
  cases outcome with
  | failed added =>
    rw [added.instances]
    exact List.mem_append_right _ hq
  | started _ grown => exact grown.kept q hq
  | ended found _ _ left =>
    rw [left, (instance?_eq_some.1 found).2]
    exact ⟨hq, apart _ rfl⟩
  | entered found _ _ _ entered =>
    refine entered.kept q hq fun hid => apart _ rfl ?_
    rw [← (instance?_eq_some.1 found).2, hid]
    exact .self

/-- A process is shown as finished when it has come to its end. It was running, was dropped with all that
it has spawned, and is shown alone. -/
theorem Outcome.dropped {s : Snapshot} (outcome : Outcome before request (.ok s) after)
    (last : s.finished = true) :
    request.subject? = some s.id ∧ s.id ∈ before.instances.map (·.id) ∧ s.children = [] ∧
      ∀ q, q ∈ after.instances ↔ q ∈ before.instances ∧ ¬ Descends before.instances s.id q.id := by
  cases outcome with
  | started _ grown =>
    cases grown.planted s List.mem_cons_self with
    | mk _ agrees =>
      rw [agrees.unfinished] at last
      cases last
  | @ended u _ _ p q cancelled _ found resumes _ left =>
    obtain ⟨hp, hid⟩ := instance?_eq_some.1 found
    have same : (q.lastSnapshot u.step cancelled).id = p.id := resumes.id
    rw [same]
    exact ⟨congrArg some hid.symm, List.mem_map_of_mem hp, rfl, left⟩
  | entered _ _ _ _ entered =>
    obtain ⟨q, -, -, -, agrees⟩ := entered.shown
    rw [agrees.unfinished] at last
    cases last

/-- If no process has come to its end, all run on, and all but the one that the request is for are as
they were. -/
theorem Outcome.going (outcome : Outcome before request r after)
    (going : ∀ s, r = .ok s → s.finished = false) {q : Instance} (hq : q ∈ before.instances) :
    q.id ∈ after.instances.map (·.id) ∧ (request.subject? ≠ some q.id → q ∈ after.instances) := by
  cases outcome with
  | failed added =>
    have kept : q ∈ after.instances := by
      rw [added.instances]
      exact List.mem_append_right _ hq
    exact ⟨List.mem_map_of_mem kept, fun _ => kept⟩
  | started _ grown => exact ⟨List.mem_map_of_mem (grown.kept q hq), fun _ => grown.kept q hq⟩
  | ended => cases going _ rfl
  | entered found _ _ _ entered =>
    refine ⟨entered.ids.mem_iff.2 (List.mem_append_right _ (List.mem_map_of_mem hq)), fun other => ?_⟩
    refine entered.kept q hq fun hid => other ?_
    rw [hid, (instance?_eq_some.1 found).2]
    rfl

/-! ## What no request changes -/

/-- What every start of a process keeps, and every way in which a running one goes on, is kept by a
request. -/
theorem Steady.execute {Q : Instance → Prop} {R : Server → Server → Prop} (steady : Steady Q R)
    (noting : ∀ (server : Server) (request : Request), R server (server.noting request))
    (calmer : ∀ (server : Server) (rest : List ServiceError),
      R server { server with injected := rest })
    (remove : ∀ (server : Server) (id : Uuid), R server (server.remove id))
    (newborns : ∀ (levels : Nat) (input : Option Value) (parent : Option Uuid) (script : Script)
      (id : Uuid), 0 < script.steps.length → Q (newborn levels input parent script id).arrived)
    (resumed : ∀ p ∈ before.instances, ∀ q : Instance, q.Resumes p →
      (∃ u mode changed, p.heads u mode changed = some q.index) →
        q.index < q.script.steps.length → Q q.arrived) (request : Request) :
    R before (before.run (Server.execute request)).2 := by
  cases h : before.run (Server.execute request) with
  | mk r after =>
    cases executes h with
    | injected => exact steady.trans (noting before _) (calmer _ _)
    | @started d _ _ _ run =>
      have starts : Leads R (Server.start spawnLimit d.name d.input none) :=
        steady.start (fun l _ => newborns l) d.name d.input none
      have starts := starts (before.noting (.start d))
      rw [run] at starts
      exact steady.trans (noting before _) starts
    | refused => exact noting before _
    | ended _ _ run =>
      rw [run_finish] at run
      cases run
      exact steady.trans (noting before _) (remove _ _)
    | @settled u mode event p q _ _ _ found resumes heads run =>
      have settles := steady.settle remove
        (resumed p (instance?_eq_some.1 found).1 q resumes ⟨u, mode, _, heads⟩)
        (fun l _ => newborns l) u.step (before.noting (.continue u mode event))
      rw [run] at settles
      exact steady.trans (noting before _) settles

theorem fresh_newborn (levels : Nat) (input : Option Value) (parent : Option Uuid) (script : Script)
    (id : Uuid) : (newborn levels input parent script id).arrived.Fresh := by
  intro k
  rw [Instance.mem_entered_arrived]
  exact or_iff_left List.not_mem_nil

/-- What runs after a request and did not run before has entered one step only, whether the request
succeeds or fails. -/
theorem fresh_execute {p : Instance} (hp : p ∈ (before.run (execute request)).2.instances)
    (new : p.id ∉ before.instances.map (·.id)) : p.Fresh := by
  -- the process of the request is kept again, but under the identifier that it had before
  have steady : Steady (fun q => q.id ∈ before.instances.map (·.id) ∨ q.Fresh)
      fun first second => ∀ q ∈ second.instances, q ∈ first.instances ∨
        q.id ∈ before.instances.map (·.id) ∨ q.Fresh :=
    { refl := fun _ _ hq => .inl hq
      trans := fun h k q hq => (k q hq).elim (h q) .inr
      next := fun _ _ hq => .inl hq
      keep := fun _ q hq r hr => (mem_keep.1 hr).elim (fun heq => .inr (heq ▸ hq)) fun h => .inl h.1 }
  have kept := steady.execute (fun _ _ _ hq => .inl hq) (fun _ _ _ hq => .inl hq)
    (fun _ _ _ hq => .inl (List.mem_of_mem_filter hq))
    (fun levels input parent script id _ => .inr (fresh_newborn levels input parent script id))
    (fun q hq r resumes _ _ => .inl (resumes.id ▸ List.mem_map_of_mem hq)) request
  rcases kept p hp with running | running | fresh
  · exact absurd (List.mem_map_of_mem running) new
  · exact absurd running new
  · exact fresh

/-- Nothing but a call to store it changes what is stored. -/
theorem storage_execute (before : Server) (request : Request) :
    (before.run (execute request)).2.storage = before.storage := by
  have steady : Steady (fun _ => True) fun before after => after.storage = before.storage :=
    { refl := fun _ => rfl, trans := fun h k => k.trans h, next := fun _ => rfl,
      keep := fun _ _ _ => rfl }
  exact steady.execute (fun _ _ => rfl) (fun _ _ => rfl) (fun _ _ => rfl)
    (fun _ _ _ _ _ _ => trivial) (fun _ _ _ _ _ _ => trivial) request

/-- Requests do not change scripts. -/
theorem scripts_execute (before : Server) (request : Request) :
    (before.run (execute request)).2.scripts = before.scripts := by
  have steady : Steady (fun _ => True) fun before after => after.scripts = before.scripts :=
    { refl := fun _ => rfl, trans := fun h k => k.trans h, next := fun _ => rfl,
      keep := fun _ _ _ => rfl }
  exact steady.execute (fun _ _ => rfl) (fun _ _ => rfl) (fun _ _ => rfl)
    (fun _ _ _ _ _ _ => trivial) (fun _ _ _ _ _ _ => trivial) request

end Server

end Stepwise
