/-
# What snapshots promise

A snapshot tells whether a process can go back and whether it is on its last step. The server works
this out when it makes the snapshot, and decides about a request when it comes. Both agree, as a process
never leaves the steps of its script, and has entered all steps up to the one on which it is.

* `Instance.OnTrack`, `Reached.onTrack` : where processes are, and where they have been;
* `Server.Stands` : a snapshot shows a process on a step;
* `Server.Promised`, `Server.promised_of_served` : what comes of a request for a process.
-/
import Stepwise.Proofs.Server.Refusing
import Stepwise.Proofs.Server.Replies

namespace Stepwise

/-! ## Where processes are -/

/-- The process is on a step of its script, and has entered it and all steps before. -/
structure Instance.OnTrack (p : Instance) : Prop where
  placed : p.index < p.script.steps.length
  trodden : ∀ k ≤ p.index, k ∈ p.entered

/-- A request lets a process go on by one step at most. -/
theorem Instance.heads_le {p : Instance} {s : Snapshot} {mode : Mode} {changed : Bool} {k : Nat}
    (heads : p.heads s mode changed = some k) : k ≤ p.index + 1 := by
  cases mode with
  | cancel => cases heads
  | reload =>
    obtain rfl := Option.some.inj heads
    exact Nat.le_succ _
  | rollback =>
    rw [Instance.heads] at heads
    split at heads
    · cases heads
    · obtain rfl := Option.some.inj heads
      omega
  | execute =>
    obtain ⟨step, -, heads⟩ := Option.bind_eq_some_iff.1 heads
    split at heads
    · obtain rfl := Option.some.inj heads
      exact Nat.le_succ _
    · split at heads
      · cases heads
      · exact Nat.le_of_eq (Option.some.inj heads).symm

/-- A process that goes on by one step at most, or back, stays on track. -/
theorem Instance.OnTrack.arrived {p q : Instance} (onTrack : p.OnTrack) (resumes : q.Resumes p)
    (hle : q.index ≤ p.index + 1) (placed : q.index < q.script.steps.length) :
    q.arrived.OnTrack := by
  refine ⟨placed, fun k hk => Instance.mem_entered_arrived.2 ?_⟩
  have hk : k ≤ q.index := hk
  rcases Nat.eq_or_lt_of_le hk with rfl | hlt
  · exact .inl rfl
  · rw [resumes.entered]
    exact .inr (onTrack.trodden k (by omega))

namespace Server

/-- Processes that are on track are joined only by others that are. -/
def StaysOnTrack (before after : Server) : Prop :=
  (∀ p ∈ before.instances, p.OnTrack) → ∀ p ∈ after.instances, p.OnTrack

theorem steady_staysOnTrack : Steady Instance.OnTrack StaysOnTrack where
  refl _ h := h
  trans h k onTrack := k (h onTrack)
  next _ h := h
  keep server p hp h q hq := by
    rcases mem_keep.1 hq with rfl | ⟨hq, -⟩
    · exact hp
    · exact h q hq

/-- A process that has just been started is on track. -/
theorem onTrack_newborn (levels : Nat) (input : Option Value) (parent : Option Uuid) {script : Script}
    (id : Uuid) (hsteps : 0 < script.steps.length) :
    (newborn levels input parent script id).arrived.OnTrack := by
  refine ⟨hsteps, fun k hk => Instance.mem_entered_arrived.2 (.inl ?_)⟩
  exact Nat.le_zero.1 hk

/-- Requests keep processes on track, whatever comes of them. -/
theorem staysOnTrack_execute (before : Server) (request : Request) :
    StaysOnTrack before (before.run (execute request)).2 := by
  intro onTrack
  refine steady_staysOnTrack.execute (fun _ _ h => h) (fun _ _ h => h)
    (fun server id h p hp => h p (List.mem_of_mem_filter hp))
    (fun levels input parent script id => onTrack_newborn levels input parent id)
    (fun p hp q resumes heads placed => ?_) request onTrack
  obtain ⟨u, mode, changed, heads⟩ := heads
  exact (onTrack p hp).arrived resumes (Instance.heads_le heads) placed

/-- The processes of a server that there can be are on track. -/
theorem Reached.onTrack {scripts : List Script} {server : Server} (reached : Reached scripts server) :
    ∀ p ∈ server.instances, p.OnTrack := by
  induction reached with
  | new => exact fun p hp => by cases hp
  | withUser _ _ _ ih => exact ih
  | store _ _ _ ih => exact ih
  | failNext _ _ ih => exact ih
  | @execute server _ request ih => exact staysOnTrack_execute server request ih

/-! ## What comes of requests -/

/-- The snapshot shows a process on one of its steps. -/
def Stands (server : Server) (p : Instance) (k : Nat) (t : Snapshot) : Prop :=
  ∃ q ∈ server.instances, q.id = p.id ∧ q.script = p.script ∧ q.index = k ∧ t.Agrees q

section Requests

variable {before after : Server} {p q : Instance} {s t u : Snapshot} {event : Option Interaction}

/-- A process that enters a step stands on it. -/
theorem stands_of_run (resumes : q.Resumes p) {spawn : Option (String → Run Snapshot)}
    (h : before.run (enter q spawn) = (.ok t, after)) :
    Stands after p q.index t ∧ t.cancelled = false := by
  obtain ⟨step, children, middle, hstep, rfl, rfl, -⟩ := run_enter_ok h
  exact ⟨⟨q.arrived, mem_keep.2 (.inl rfl), resumes.id, resumes.script, rfl, .snapshot hstep children⟩,
    rfl⟩

/-- A process shows a step once more that it has entered before. Nothing is spawned, so that nothing
can fail. -/
theorem exists_run_settle (resumes : q.Resumes p) (placed : q.index < q.script.steps.length)
    (trodden : q.index ∈ q.entered) (step : String) :
    ∃ t after, before.run (settle q step) = (.ok t, after) ∧ Stands after p q.index t := by
  have hspawn : spawnings q (spawner q) q.script.steps[q.index] = pure [] := by
    unfold spawnings
    split
    · exact if_pos (List.contains_iff_mem.2 trodden)
    · rfl
  have hrun : ∃ t after, before.run (enter q (spawner q)) = (.ok t, after) := by
    rw [enter_eq (List.getElem?_eq_getElem placed), hspawn]
    exact ⟨_, _, rfl⟩
  obtain ⟨t, after, hrun⟩ := hrun
  refine ⟨t, after, ?_, (stands_of_run resumes hrun).1⟩
  rw [settle, if_neg (Nat.not_le_of_lt placed), hrun]

/-- A process can go back if its snapshot says so, and shows the step before then. -/
theorem rollback_of_agrees (calm : before.injected = []) (onTrack : p.OnTrack) (agrees : s.Agrees p)
    (found : before.instance? u.id = some p) (event : Option Interaction) :
    (s.canRollback = true ∧ ∃ t after, before.run (execute (.continue u .rollback event)) =
        (.ok t, after) ∧ ∃ k, k + 1 = p.index ∧ Stands after p k t) ∨
      s.canRollback = false ∧ ∃ e after, before.run (execute (.continue u .rollback event)) =
        (.error e, after) := by
  obtain ⟨step, shows⟩ := agrees
  rw [run_execute_found calm found, shows.canRollback]
  dsimp only
  unfold goBack
  rw [shows.positioned, Option.any_some]
  split
  · next stuck =>
    refine .inr ⟨?_, _, _, rfl⟩
    rw [Bool.or_eq_true, decide_eq_true_eq, Bool.not_eq_true'] at stuck
    rcases stuck with first | no
    · simp [first]
    · simp [no]
  · next free =>
    rw [Bool.or_eq_true, not_or, decide_eq_true_eq, Bool.not_eq_true', Bool.not_eq_false] at free
    have hpos : 0 < p.index := Nat.pos_of_ne_zero free.1
    have placed := onTrack.placed
    refine .inl ⟨by simp [free.2, hpos], ?_⟩
    have resumes : { p with index := p.index - 1 }.Resumes p := ⟨rfl, rfl, rfl, rfl, rfl⟩
    obtain ⟨t, after, hrun, stands⟩ := exists_run_settle resumes
      (Nat.lt_of_le_of_lt (Nat.sub_le _ _) placed) (onTrack.trodden _ (Nat.sub_le _ _)) u.step
    exact ⟨t, after, hrun, p.index - 1, Nat.sub_add_cancel hpos, stands⟩

/-- A process that goes on is over if its snapshot has called the step the last one, and shows the next
step otherwise. -/
theorem execute_of_agrees (onTrack : p.OnTrack) (agrees : s.Agrees p)
    (found : before.instance? u.id = some p) (unchanged : fieldChanged event = false)
    (h : before.run (execute (.continue u .execute event)) = (.ok t, after)) :
    (t.finished = true ↔ s.finalStep = true) ∧ t.cancelled = false ∧
      (s.finalStep = false → Stands after p (p.index + 1) t) := by
  obtain ⟨step, shows⟩ := agrees
  have placed := onTrack.placed
  rw [shows.finalStep, decide_eq_true_eq, decide_eq_false_iff_not]
  cases executes h with
  | ended _ _ _ asked => cases asked
  | @settled _ _ _ p' q _ _ _ found' resumes heads run =>
    obtain rfl := Option.some.inj (found.symm.trans found')
    rw [unchanged] at heads
    obtain ⟨-, hindex⟩ := Instance.heads_execute heads
    unfold settle at run
    rw [hindex, resumes.script] at run
    split at run
    · next last =>
      rw [run_finish] at run
      cases run
      have hlast : p.index + 1 = p.script.steps.length := by omega
      exact ⟨⟨fun _ => hlast, fun _ => rfl⟩, rfl, fun going => absurd hlast going⟩
    · next going =>
      obtain ⟨stands, kept⟩ := stands_of_run resumes run
      have hgoing : p.index + 1 ≠ p.script.steps.length := fun last => going (Nat.le_of_eq last.symm)
      have unfinished : t.finished = false := by
        obtain ⟨_, -, -, -, -, agrees⟩ := stands
        exact agrees.unfinished
      rw [hindex] at stands
      exact ⟨⟨fun last => absurd (unfinished.symm.trans last) Bool.false_ne_true,
        fun last => absurd last hgoing⟩, kept, fun _ => stands⟩

end Requests

/-- What a snapshot of a process promises. The way back is there exactly if it says so, and leads to the
step before. The step can be shown once more, and the process can be cancelled. A process that goes on
is over exactly if the snapshot has called the step the last one, and shows the next one otherwise. -/
structure Promised (server : Server) (p : Instance) (s : Snapshot) : Prop where
  agrees : s.Agrees p
  rollback : ∀ (u : Snapshot) (event : Option Interaction), u.id = p.id →
    ((∃ t after, server.run (execute (.continue u .rollback event)) = (.ok t, after)) ↔
      s.canRollback = true) ∧
    ∀ t after, server.run (execute (.continue u .rollback event)) = (.ok t, after) →
      ∃ k, k + 1 = p.index ∧ Stands after p k t
  reload : ∀ (u : Snapshot) (event : Option Interaction), u.id = p.id →
    ∃ t after, server.run (execute (.continue u .reload event)) = (.ok t, after) ∧
      Stands after p p.index t
  cancel : ∀ (u : Snapshot) (event : Option Interaction), u.id = p.id →
    ∃ t after, server.run (execute (.continue u .cancel event)) = (.ok t, after) ∧ t.id = p.id ∧
      t.finished = true ∧ t.cancelled = true
  execute : ∀ (u : Snapshot) (event : Option Interaction), u.id = p.id →
    fieldChanged event = false →
    ∀ t after, server.run (execute (.continue u .execute event)) = (.ok t, after) →
      (t.finished = true ↔ s.finalStep = true) ∧ t.cancelled = false ∧
        (s.finalStep = false → Stands after p (p.index + 1) t)

/-- A server without injected errors keeps what a snapshot of a process promises, if it shows where the
process is. -/
theorem promised_of_agrees {server : Server} {p : Instance} {s : Snapshot}
    (calm : server.injected = []) (onTrack : p.OnTrack) (hp : p ∈ server.instances)
    (agrees : s.Agrees p) : Promised server p s := by
  have found (u : Snapshot) (hid : u.id = p.id) : server.instance? u.id = some p :=
    instance?_eq_some.2 ⟨hp, hid.symm⟩
  refine ⟨agrees, fun u event hid => ?_, fun u event hid => ?_, fun u event hid => ?_,
    fun u event hid unchanged t after h => execute_of_agrees onTrack agrees (found u hid) unchanged h⟩
  · obtain ⟨can, t, after, h, stands⟩ | ⟨cannot, e, after, h⟩ :=
      rollback_of_agrees calm onTrack agrees (found u hid) event
    · refine ⟨⟨fun _ => can, fun _ => ⟨t, after, h⟩⟩, fun t' after' h' => ?_⟩
      cases h.symm.trans h'
      exact stands
    · rw [h, cannot]
      exact ⟨⟨nofun, nofun⟩, nofun⟩
  · rw [run_execute_found calm (found u hid)]
    exact exists_run_settle ⟨rfl, rfl, rfl, rfl, rfl⟩ onTrack.placed
      (onTrack.trodden _ (Nat.le_refl _)) u.step
  · rw [run_execute_found calm (found u hid)]
    exact ⟨_, _, rfl, rfl, rfl, rfl⟩

/-- A server keeps the promises of its snapshots, in every run. All processes are positioned on steps of
their scripts. So no request is told that a process is out of steps, and none that a running process
lacks a step, unless the server was told to say so. And the last answer for a running process tells what
will come of a request for it. -/
theorem promised_of_served {scripts : List Script} {log : List Reply} {server : Server}
    (served : Served scripts log server) (distinct : server.IdsDistinct) :
    (∀ p ∈ server.instances, p.index < p.script.steps.length) ∧
    (∀ (request : Request) (e : ServiceError) (after : Server),
      server.run (execute request) = (.error e, after) → server.injected.head? = some e ∨
        (∀ name, e ≠ .fault ("Process '" ++ name ++ "' is out of steps")) ∧
        ∀ p ∈ server.instances, ∀ k : Nat,
          e ≠ .fault ("Process '" ++ p.script.name ++ "' has no step " ++ toString k)) ∧
    ∀ p ∈ server.instances, ∀ s, lastShown log p.id = some s → server.injected = [] →
      Promised server p s := by
  have onTrack := served.reached.onTrack
  have placed := fun p hp => (onTrack p hp).placed
  refine ⟨placed, fun request e after h => ?_, fun p hp s shown calm =>
    promised_of_agrees calm (onTrack p hp) hp (served.agrees_of_lastShown distinct hp shown)⟩
  cases injected : server.injected with
  | cons e' rest =>
    rw [run_execute_injected injected] at h
    cases h
    exact .inl rfl
  | nil =>
    have refusal := refusal_execute placed injected h
    refine .inr ⟨refusal.ne_outOfSteps, fun p hp k heq => ?_⟩
    -- the script of a running process has steps, and there is no other script of that name
    obtain ⟨key, script, found, named, none⟩ := refusal.of_hasNoStep heq
    obtain ⟨name, scripted⟩ := (served.reached.sound distinct p hp).scripted
    have hkey : key = name := by
      rw [← served.name_of_script found, ← served.name_of_script scripted, named]
    obtain rfl : script = p.script := Option.some.inj (found.symm.trans (hkey ▸ scripted))
    have := placed p hp
    rw [none] at this
    cases this

/-- An order with two steps; the second one leads back. -/
def pacedScripts : List Script :=
  [⟨"Order", "", [⟨"Address", none, [], false, false, false, []⟩,
    ⟨"Payment", none, [], false, true, false, []⟩]⟩]

/-- The order was started, and has gone on to its second step. -/
def pacedLog : List Reply :=
  let start : Reply := ⟨ofScripts pacedScripts, .start ⟨"Order", none, "en-US", .none⟩⟩
  [start, ⟨start.after, .continue (.ofStep (.issued 0) "Order" "Address") .execute none⟩]

/-- The way back from the second step of the order leads to the first. -/
theorem promised_of_served_rollback :
    ∃ server, Served pacedScripts pacedLog server ∧ ∃ p ∈ server.instances, p.index = 1 ∧
      (∃ s, lastShown pacedLog p.id = some s ∧ s.canRollback = true ∧ s.finalStep = true) ∧
      ∃ t after, server.run (execute (.continue (.ofStep (.issued 0) "Order" "Payment") .rollback none)) =
        (.ok t, after) ∧ Stands after p 0 t := by
  have served : Served pacedScripts pacedLog _ := .execute (.execute .new _) _
  obtain ⟨-, -, promised⟩ := promised_of_served served (idsDistinct_of_le (by decide))
  have promised := promised _ List.mem_cons_self _ rfl rfl
  obtain ⟨can, leads⟩ := promised.rollback (.ofStep (.issued 0) "Order" "Payment") none rfl
  obtain ⟨t, after, h⟩ := can.2 rfl
  obtain ⟨k, hk, stands⟩ := leads t after h
  obtain rfl : k = 0 := Nat.succ.inj hk
  exact ⟨_, served, _, List.mem_cons_self, rfl, ⟨_, rfl, rfl, rfl⟩, t, after, h, stands⟩

end Server

end Stepwise
