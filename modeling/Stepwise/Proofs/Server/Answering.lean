/-
# What the scripted server answers

On a sound server without injected errors whose scripts are complete, a request has one of a few
outcomes, and each of them changes the processes that run in one way.

* `ScriptStep.validate_eq` : what is said about values;
* `Answered` : the outcomes, with the conditions under which they occur;
* `Server.answered_execute` : there are no others;
* `Server.Sound.answered` : the server stays sound.
-/
import Stepwise.Proofs.Server.Spawning

namespace Stepwise

/-- The outcomes of a request. The last two arguments are the answer and the server afterwards. -/
inductive Answered (before : Server) :
    Request → Except ServiceError Snapshot → Server → Prop where
  | unscripted (d : Descriptor) {after : Server} (same : after.instances = before.instances) :
    Answered before (.start d) (.error (.fault ("Unknown process '" ++ d.name ++ "'"))) after
  | started (d : Descriptor) {s : Snapshot} {after : Server}
      (grown : after.IdsDistinct → Server.Grown none before after [s]) :
    Answered before (.start d) (.ok s) after
  | unknown (t : Snapshot) (mode : Mode) (event : Option Interaction) {after : Server}
      (missing : ∀ p ∈ before.instances, p.id ≠ t.id) (same : after.instances = before.instances) :
    Answered before (.continue t mode event)
      (.error (.fault ("Unknown process instance " ++ t.id.text))) after
  /-- The submitted values are wrong. -/
  | invalid (t : Snapshot) (event : Option Interaction) {p : Instance} (hp : p ∈ before.instances)
      (hid : p.id = t.id) (fieldErrors : KeyMap String) {after : Server}
      (same : after.instances = before.instances) :
    Answered before (.continue t .execute event)
      (.error (.recoverable "Validation failed" fieldErrors none)) after
  /-- There is no way back. -/
  | stuck (t : Snapshot) (event : Option Interaction) {p : Instance} (hp : p ∈ before.instances)
      (hid : p.id = t.id) (back : ∀ s : Snapshot, s.Agrees p → s.canRollback = false)
      {after : Server} (same : after.instances = before.instances) :
    Answered before (.continue t .rollback event)
      (.error (.rejected "Rollback is not possible here")) after
  | ended (t : Snapshot) (mode : Mode) (event : Option Interaction) {p : Instance}
      (hp : p ∈ before.instances) (hid : p.id = t.id) {s : Snapshot} (last : s.finished = true)
      (alone : s.children = []) {after : Server}
      (left : ∀ q, q ∈ after.instances ↔
        q ∈ before.instances ∧ ¬ Descends before.instances p.id q.id) :
    Answered before (.continue t mode event) (.ok s) after
  | entered (t : Snapshot) (mode : Mode) (event : Option Interaction) {p : Instance}
      (hp : p ∈ before.instances) (hid : p.id = t.id) (going : mode ≠ .cancel) {s : Snapshot}
      {after : Server}
      (entered : after.IdsDistinct → Server.Entered before after p s s.children) :
    Answered before (.continue t mode event) (.ok s) after

namespace ScriptStep

/-- Messages for fields make a recoverable error that replaces nothing. -/
theorem foldl_withFieldError (complaints : List (String × Complaint)) (fields : KeyMap String) :
    complaints.foldl (fun e c => e.withFieldError c.1 c.2.text)
        (ServiceError.recoverable "Validation failed" fields none) =
      ServiceError.recoverable "Validation failed"
        ((complaints.map fun c => (c.1, c.2.text)).foldl (fun m e => m.insert e.1 e.2) fields) none := by
  induction complaints generalizing fields with
  | nil => rfl
  | cons c rest ih => exact ih _

/-- Values are taken if there is no complaint. Otherwise the error has a message for each. -/
theorem validate_eq (step : ScriptStep) (values : KeyMap Value) :
    step.validate values =
      if step.complaints values = [] then .ok ()
      else .error (.recoverable "Validation failed"
        (.ofList ((step.complaints values).map fun c => (c.1, c.2.text))) none) := by
  unfold validate
  split
  next h => rw [if_pos h]
  next h => rw [if_neg h, ServiceError.rejected, foldl_withFieldError, KeyMap.ofList]

/-- Values are refused with a recoverable error that replaces nothing. -/
theorem validate_error {step : ScriptStep} {values : KeyMap Value} {e : ServiceError}
    (h : step.validate values = .error e) :
    ∃ fieldErrors, e = .recoverable "Validation failed" fieldErrors none := by
  rw [validate_eq] at h
  split at h
  · cases h
  · exact ⟨_, (Except.error.inj h).symm⟩

end ScriptStep

namespace Server

variable {before after : Server} {p q : Instance} {r : Except ServiceError Snapshot}

/-! ## Only forward -/

theorem forward_finish (p : Instance) (step : String) (cancelled : Bool) :
    Forward (finish p step cancelled) :=
  (forward_modify fun server => precedes_remove server p.id).bind fun _ => forward_pure _

theorem forward_settle (p : Instance) (step : String) : Forward (settle p step) := by
  unfold settle
  split
  · exact forward_finish p step false
  · exact forward_enter fun f hf => forward_spawnerAt hf

theorem forward_advance (p : Instance) (s : Snapshot) (changed : Bool) :
    Forward (advance p s changed) := by
  unfold advance
  split
  · exact forward_throw _
  · dsimp only
    split
    · exact forward_settle _ _
    · split
      · exact forward_throw _
      · exact forward_settle _ _

theorem forward_goBack (p : Instance) (s : Snapshot) : Forward (goBack p s) := by
  unfold goBack
  split
  · exact forward_throw _
  · exact forward_settle _ _

theorem forward_proceed (s : Snapshot) (mode : Mode) (changed : Bool) :
    Forward (proceed s mode changed) := by
  apply forward_get.bind
  intro server
  cases server.instance? s.id with
  | none => exact forward_throw _
  | some p =>
    cases mode with
    | cancel => exact forward_finish p s.step true
    | reload => exact forward_settle p s.step
    | rollback => exact forward_goBack p s
    | execute => exact forward_advance p s changed

/-- The server that has noted the mode of a request. -/
def noting (server : Server) (request : Request) : Server :=
  { server with executed := server.executed ++ [request.mode] }

/-- Without injected errors a request is noted, and a process starts. -/
theorem run_execute_start (calm : before.injected = []) (d : Descriptor) :
    before.run (execute (.start d)) =
      (before.noting (.start d)).run (start spawnLimit d.name d.input none) := by
  unfold execute
  rw [run_bind_modify, run_bind_get]
  simp only [calm, noting]

/-- Without injected errors a request is noted, and a process proceeds. -/
theorem run_execute_continue (calm : before.injected = []) (s : Snapshot) (mode : Mode)
    (event : Option Interaction) :
    before.run (execute (.continue s mode event)) =
      (before.noting (.continue s mode event)).run (proceed s mode (fieldChanged event)) := by
  unfold execute
  rw [run_bind_modify, run_bind_get]
  simp only [calm, noting]

/-- A process that does not run cannot proceed. -/
theorem run_execute_unknown (calm : before.injected = []) {s : Snapshot} {mode : Mode}
    {event : Option Interaction} (missing : before.instance? s.id = none) :
    before.run (execute (.continue s mode event)) =
      (.error (.fault ("Unknown process instance " ++ s.id.text)),
        before.noting (.continue s mode event)) := by
  have missing' : (before.noting (.continue s mode event)).instance? s.id = none := missing
  rw [run_execute_continue calm, proceed, run_bind_get, missing', run_throw]

/-- A process that runs does what is asked for. -/
theorem run_execute_found (calm : before.injected = []) {s : Snapshot} {mode : Mode}
    {event : Option Interaction} (found : before.instance? s.id = some p) :
    before.run (execute (.continue s mode event)) =
      (before.noting (.continue s mode event)).run
        (match mode with
        | .cancel => finish p s.step true
        | .reload => settle p s.step
        | .rollback => goBack p s
        | .execute => advance p s (fieldChanged event)) := by
  have found' : (before.noting (.continue s mode event)).instance? s.id = some p := found
  rw [run_execute_continue calm]
  cases mode <;> simp only [proceed, run_bind_get, found']

theorem precedes_noting (server : Server) (request : Request) :
    server.Precedes (server.noting request) := ⟨rfl, rfl, Nat.le_refl _⟩

theorem Sound.noting (sound : before.Sound) (request : Request) : (before.noting request).Sound :=
  sound.of_subset (precedes_noting before request) fun _ hp => hp

theorem precedes_execute (calm : before.injected = []) (request : Request) :
    before.Precedes (before.run (execute request)).2 := by
  refine (precedes_noting before request).trans ?_
  cases request with
  | start d =>
    rw [run_execute_start calm]
    exact forward_start spawnLimit d.name d.input none _
  | «continue» s mode event =>
    rw [run_execute_continue calm]
    exact forward_proceed s mode (fieldChanged event) _

/-! ## What becomes of a running process -/

/-- A process has come to its end, with all that it has spawned, or has entered a step. -/
inductive Settled (before : Server) (p : Instance) :
    Except ServiceError Snapshot → Server → Prop where
  | ended {s : Snapshot} (last : s.finished = true) (alone : s.children = []) {after : Server}
      (left : ∀ q, q ∈ after.instances ↔
        q ∈ before.instances ∧ ¬ Descends before.instances p.id q.id) :
    Settled before p (.ok s) after
  | entered {s : Snapshot} {after : Server}
      (entered : after.IdsDistinct → Entered before after p s s.children) :
    Settled before p (.ok s) after

theorem run_finish (before : Server) (p : Instance) (step : String) (cancelled : Bool) :
    before.run (finish p step cancelled) =
      (.ok (p.lastSnapshot step cancelled), before.remove p.id) := by
  rw [finish, run_bind_modify, run_pure]

/-- A process that is finished is removed with all that it has spawned. -/
theorem settled_finish (sound : before.Sound) (distinct : before.IdsDistinct)
    (hp : p ∈ before.instances) (hid : q.id = p.id) (step : String) (cancelled : Bool) :
    Settled before p (.ok (q.lastSnapshot step cancelled)) (before.remove q.id) := by
  refine .ended rfl rfl fun r => ?_
  rw [hid]
  exact mem_remove sound.numbered distinct (List.mem_map_of_mem hp)

/-- A running process with other values, or on another step, comes to its end or enters its step. -/
theorem settled_settle (sound : before.Sound) (complete : Complete before.scripts)
    (hp : p ∈ before.instances) (hid : q.id = p.id) (hparent : q.parent = p.parent)
    (hscript : q.script = p.script) {step : String} (h : before.run (settle q step) = (r, after))
    (distinct : before.IdsDistinct) : Settled before p r after := by
  unfold settle at h
  split at h
  · rw [run_finish] at h
    cases h
    exact settled_finish sound distinct hp hid step false
  · next hindex =>
    -- the script of a running process is one of the server's, so what the step spawns is scripted
    obtain ⟨name, hname⟩ := (sound p hp).scripted
    have hlt := Nat.lt_of_not_le hindex
    have hstep := List.getElem?_eq_getElem hlt
    have hspawn : ∀ n ∈ q.script.steps[q.index].spawn,
        ∃ other, before.scripts.get? n = some other := by
      refine (complete name p.script hname).2 _ ?_
      rw [← hscript]
      exact List.getElem_mem _
    have hrun : ∃ s other, before.run (enter q (spawner q)) = (.ok s, other) :=
      exists_run_enter hstep fun f hf => exists_run_spawner complete hspawn (spawner_eq q ▸ hf)
    obtain ⟨s, other, hrun⟩ := hrun
    rw [hrun] at h
    cases h
    exact .entered (entered_of_run hp hid hparent hscript hrun sound)

/-- A request that starts a process. -/
theorem answered_start (calm : before.injected = []) (sound : before.Sound)
    (complete : Complete before.scripts) {d : Descriptor}
    (h : before.run (execute (.start d)) = (r, after)) : Answered before (.start d) r after := by
  rw [run_execute_start calm] at h
  cases hscript : before.scripts.get? d.name with
  | none =>
    have hnone : (before.noting (.start d)).scripts.get? d.name = none := hscript
    rw [start_eq, run_bind, run_script_none hnone] at h
    cases h
    exact .unscripted d rfl
  | some script =>
    obtain ⟨s, other, hrun⟩ := exists_run_start spawnLimit (before.noting (.start d)) d.name d.input
      none complete ⟨script, hscript⟩
    rw [hrun] at h
    cases h
    refine .started d fun distinct => ?_
    have grown := grown_start spawnLimit d.name d.input none hrun (sound.noting _) nofun distinct
    exact ⟨grown.kept, grown.ids, grown.new, grown.planted, grown.sound⟩

section Continue

variable {t : Snapshot} {mode : Mode} {event : Option Interaction}

/-- The process has other values, or is on another step. -/
theorem answered_settle (sound : before.Sound) (complete : Complete before.scripts)
    (distinct : before.IdsDistinct) (hp : p ∈ before.instances) (hid : p.id = t.id) {step : String}
    (h : (before.noting (.continue t mode event)).run (settle q step) = (r, after))
    (hq : q.id = p.id ∧ q.parent = p.parent ∧ q.script = p.script) (going : mode ≠ .cancel) :
    Answered before (.continue t mode event) r after := by
  obtain ⟨hqid, hparent, hscript⟩ := hq
  cases settled_settle (sound.noting _) complete hp hqid hparent hscript h distinct with
  | ended last alone left => exact .ended t mode event hp hid last alone left
  | entered entered =>
    refine .entered t mode event hp hid going fun distinct => ?_
    have e := entered distinct
    exact ⟨e.shown, e.kept, e.ids, e.new, e.planted, e.sound⟩

/-- The process returns to the step before, unless there is no way back. -/
theorem answered_goBack (sound : before.Sound) (complete : Complete before.scripts)
    (distinct : before.IdsDistinct) (hp : p ∈ before.instances) (hid : p.id = t.id)
    (h : (before.noting (.continue t .rollback event)).run (goBack p t) = (r, after)) :
    Answered before (.continue t .rollback event) r after := by
  unfold goBack at h
  split at h
  · next hback =>
    cases h
    -- the server looks at what a snapshot of the process says about the way back
    refine .stuck t event hp hid (fun s hs => ?_) rfl
    obtain ⟨step, hs⟩ := hs
    rw [hs.canRollback]
    rw [hs.positioned, Option.any_some, Bool.or_eq_true, decide_eq_true_eq] at hback
    rcases hback with hzero | hno
    · simp [hzero]
    · simpa using fun hyes => absurd hyes (by simpa using hno)
  · exact answered_settle sound complete distinct hp hid h ⟨rfl, rfl, rfl⟩ (by decide)

/-- The process takes the submitted values, unless they are wrong. -/
theorem answered_advance (sound : before.Sound) (complete : Complete before.scripts)
    (distinct : before.IdsDistinct) (hp : p ∈ before.instances) (hid : p.id = t.id) {changed : Bool}
    (h : (before.noting (.continue t .execute event)).run (advance p t changed) = (r, after)) :
    Answered before (.continue t .execute event) r after := by
  unfold advance at h
  have hstep := List.getElem?_eq_getElem (sound p hp).placed
  rw [hstep] at h
  dsimp only at h
  split at h
  · exact answered_settle sound complete distinct hp hid h ⟨rfl, rfl, rfl⟩ (by decide)
  · split at h
    · next e he =>
      cases h
      obtain ⟨fieldErrors, rfl⟩ := ScriptStep.validate_error he
      exact .invalid t event hp hid fieldErrors rfl
    · exact answered_settle sound complete distinct hp hid h ⟨rfl, rfl, rfl⟩ (by decide)

/-- A request that lets a running process proceed. -/
theorem answered_continue (calm : before.injected = []) (sound : before.Sound)
    (complete : Complete before.scripts)
    (h : before.run (execute (.continue t mode event)) = (r, after)) (distinct : before.IdsDistinct) :
    Answered before (.continue t mode event) r after := by
  rw [run_execute_continue calm] at h
  dsimp only [proceed] at h
  rw [run_bind_get] at h
  cases hfind : (before.noting (.continue t mode event)).instance? t.id with
  | none =>
    rw [hfind] at h
    cases h
    refine .unknown t mode event (fun p hp hid => ?_) rfl
    have := List.find?_eq_none.1 hfind p hp
    simp [hid] at this
  | some p =>
    rw [hfind] at h
    have hp : p ∈ before.instances := List.mem_of_find?_eq_some hfind
    have hid : p.id = t.id := by simpa using List.find?_some hfind
    cases mode with
    | cancel =>
      dsimp only at h
      rw [run_finish] at h
      cases h
      refine .ended t .cancel event hp hid rfl rfl fun q => ?_
      exact mem_remove sound.numbered distinct (List.mem_map_of_mem hp)
    | reload => exact answered_settle sound complete distinct hp hid h ⟨rfl, rfl, rfl⟩ (by decide)
    | rollback => exact answered_goBack sound complete distinct hp hid h
    | execute => exact answered_advance sound complete distinct hp hid h

end Continue

/-- There are no other outcomes. -/
theorem answered_execute (calm : before.injected = []) (sound : before.Sound)
    (complete : Complete before.scripts) {request : Request}
    (h : before.run (execute request) = (r, after)) (distinct : before.IdsDistinct) :
    Answered before request r after := by
  cases request with
  | start d => exact answered_start calm sound complete h
  | «continue» t mode event => exact answered_continue calm sound complete h distinct

/-- The server stays sound. -/
theorem Sound.answered (sound : before.Sound) {request : Request}
    (answered : Answered before request r after) (precedes : before.Precedes after)
    (distinct : after.IdsDistinct) : after.Sound := by
  have ofSame (same : after.instances = before.instances) : after.Sound :=
    sound.of_subset precedes fun p hp => same ▸ hp
  cases answered with
  | unscripted _ same => exact ofSame same
  | started _ grown => exact (grown distinct).sound
  | unknown _ _ _ _ same => exact ofSame same
  | invalid _ _ _ _ _ same => exact ofSame same
  | stuck _ _ _ _ _ same => exact ofSame same
  | ended _ _ _ _ _ _ _ left => exact sound.of_subset precedes fun p hp => ((left p).1 hp).1
  | entered _ _ _ _ _ _ entered => exact (entered distinct).sound

end Server

end Stepwise
