/-
# The values with which processes answer

A process that is started has the members of its input as values, and what is submitted with a request
that goes well joins them. What a step shows is looked up there, and is the default of the step
otherwise. Processes that are spawned begin with nothing.

* `Snapshot.submitted`, `Value.member?`, `Instance.valuesAfter` : the values in a request;
* `Server.Bare`, `Server.bare_start`, `Server.blank_start` : what is spawned has no values;
* `Server.Remembers`, `Server.Holds`, `Server.holds_execute` : the values with which a process shows its
  step;
* `Server.Outcome.bare` : processes that an answer is not about.
-/
import Stepwise.Proofs.Server.Replies

namespace Stepwise

/-! ## The values in a request -/

/-- The value of the last entry of a name. -/
def Snapshot.submitted (u : Snapshot) (name : String) : Option Value :=
  (u.parameters.reverse.find? (·.name == name)).map (·.value)

/-- The member of an object; none of any other value. -/
def Value.member? (v : Value) (name : String) : Option Value :=
  v.entries?.bind fun entries => (entries.find? (·.1 == name)).map (·.2)

/-- The value that a request submits for a process. -/
def Request.submitted (request : Request) (x : Uuid) (name : String) : Option Value :=
  match request with
  | .continue u .execute _ => if u.id = x then u.submitted name else none
  | _ => none

/-- The input of a request that starts a process. -/
def Request.input? : Request → Option Value
  | .start d => d.input
  | .continue _ _ _ => none

/-- The values of a process once it has done what is asked for. -/
def Instance.valuesAfter (p : Instance) (u : Snapshot) : Mode → KeyMap Value
  | .execute => u.parameters.foldl (fun values q => values.insert q.name q.value) p.values
  | _ => p.values

/-- The members of an object are in key order, so that the map made of them has no others. -/
theorem Value.get?_ofList_entries (input : Option Value) (name : String) :
    (KeyMap.ofList ((input.bind Value.entries?).getD [])).get? name = input.bind (·.member? name) := by
  cases input with
  | none => rfl
  | some v =>
    rw [Option.bind_some, Option.bind_some, member?]
    obtain ⟨tree, normal⟩ := v
    cases tree with
    | obj members =>
      have ordered : InKeyOrder (members.map fun e => (e.1, ofTree e.2)) := by
        rw [Json.normalize] at normal
        refine List.pairwise_map.2 ?_
        rw [← Json.obj.inj normal]
        exact Json.inKeyOrder_normalizeMembers members
      exact congrArg (·.get? name) (KeyMap.ofList_entries ⟨_, ordered⟩)
    | null => rfl
    | bool => rfl
    | num => rfl
    | str => rfl
    | arr => rfl

/-- A value that is submitted takes the place of the one that the process had. -/
theorem Instance.get?_valuesAfter (p : Instance) (u : Snapshot) (mode : Mode)
    (event : Option Interaction) (name : String) :
    (p.valuesAfter u mode).get? name =
      ((Request.continue u mode event).submitted u.id name).or (p.values.get? name) := by
  cases mode with
  | execute =>
    have pairs : p.valuesAfter u .execute =
        (u.parameters.map fun q => (q.name, q.value)).foldl (fun m e => m.insert e.1 e.2) p.values := by
      rw [List.foldl_map]
      rfl
    rw [pairs, KeyMap.get?_foldl_insert, ← List.map_reverse, List.find?_map, Option.map_map,
      Request.submitted, if_pos rfl]
    rfl
  | rollback => rfl
  | cancel => rfl
  | reload => rfl

/-- The parameters of a step for a process that was given no values. -/
def ScriptStep.defaults (step : ScriptStep) : List Parameter :=
  step.parameters.map fun d => ⟨d.name, d.label, d.default, d.required, false⟩

theorem Instance.map_parameter_of_empty {p : Instance} (h : p.values = .empty) (step : ScriptStep) :
    step.parameters.map p.parameter = step.defaults := by
  refine List.map_congr_left fun d _ => ?_
  rw [parameter, h]
  rfl

/-- The snapshot shows the first step of a script with the values that the script names. -/
def Snapshot.IsBlank (scripts : KeyMap Script) (t : Snapshot) : Prop :=
  ∃ name script step, scripts.get? name = some script ∧ script.steps[0]? = some step ∧
    t.processName = script.name ∧ t.parameters = step.defaults

namespace Server

section Values

variable {before after : Server} {request : Request} {p : Instance} {s t u : Snapshot}

/-! ## What is spawned -/

/-- Every process that runs afterwards has run before as it is, or has no values. -/
def Bare (before after : Server) : Prop :=
  ∀ p ∈ after.instances, p ∈ before.instances ∨ p.values = .empty

theorem steady_bare : Steady (fun p => p.values = .empty) Bare where
  refl _ _ hp := .inl hp
  trans h k p hp := (k p hp).elim (h p) .inr
  next _ _ hp := .inl hp
  keep server p hp q hq := by
    rcases mem_keep.1 hq with rfl | ⟨hq, -⟩
    · exact .inr hp
    · exact .inl hq

/-- What is started without input has no values, and neither has what it spawns. -/
theorem bare_start (levels : Nat) :
    ∀ (name : String) (parent : Option Uuid), Leads Bare (start levels name none parent) := by
  induction levels using Nat.strongRecOn with
  | ind levels ih =>
    intro name parent
    refine steady_bare.start_of_spawner (fun _ _ _ => rfl) (fun id f hf name => ?_) name
    obtain ⟨l, rfl, rfl⟩ := exists_of_spawnerAt hf
    exact ih l (Nat.lt_succ_self l) name _

theorem bare_spawnings (q : Instance) (levels : Nat) (id : Uuid) (step : ScriptStep) :
    Leads Bare (spawnings q (spawnerAt levels id) step) := by
  refine steady_bare.spawnings (fun f hf name => ?_) step
  obtain ⟨l, -, rfl⟩ := exists_of_spawnerAt hf
  exact bare_start l name _

/-- With certain scripts, the computation shows nothing but processes on the first steps of their scripts,
with the values that the scripts name. -/
def Blank (scripts : KeyMap Script) (act : Run Snapshot) : Prop :=
  ∀ ⦃before after : Server⦄ ⦃s : Snapshot⦄, before.run act = (.ok s, after) →
    before.scripts = scripts → ∀ t ∈ s.nodes, t.IsBlank scripts

theorem blank_spawnAll {scripts : KeyMap Script} {f : String → Run Snapshot}
    (forward : ∀ name, Forward (f name)) (blank : ∀ name, Blank scripts (f name)) {names : List String}
    {ss : List Snapshot} (h : before.run (spawnAll f names) = (.ok ss, after))
    (hscripts : before.scripts = scripts) : ∀ c ∈ ss, ∀ t ∈ c.nodes, t.IsBlank scripts := by
  induction names generalizing before ss with
  | nil =>
    cases h
    exact nofun
  | cons name rest ih =>
    obtain ⟨s, middle, hs, hrest⟩ := run_bind_ok.1 h
    obtain ⟨others, _, hothers, hpure⟩ := run_bind_ok.1 hrest
    cases hpure
    have hmiddle := (forward name before).scripts
    rw [hs] at hmiddle
    intro c hc
    rcases List.mem_cons.1 hc with rfl | hc
    · exact blank name hs hscripts
    · exact ih hothers (hmiddle.trans hscripts) c hc

/-- A process that enters a step shows blank children. -/
theorem blank_children {scripts : KeyMap Script} {q : Instance}
    {spawn : Option (String → Run Snapshot)} (forward : ∀ f, spawn = some f → ∀ name, Forward (f name))
    (blank : ∀ f, spawn = some f → ∀ name, Blank scripts (f name))
    (h : before.run (enter q spawn) = (.ok s, after)) (hscripts : before.scripts = scripts) :
    ∀ c ∈ s.children, ∀ t ∈ c.nodes, t.IsBlank scripts := by
  obtain ⟨step, children, middle, -, rfl, -, hspawn⟩ := run_enter_ok h
  rcases run_spawnings_ok hspawn with ⟨rfl, -, -⟩ | ⟨f, hf, -, hspawn⟩
  · exact nofun
  · exact blank_spawnAll (forward f hf) (blank f hf) hspawn hscripts

/-- What is started without input shows what its script says, and so does what it spawns. -/
theorem blank_start (scripts : KeyMap Script) (levels : Nat) :
    ∀ (name : String) (parent : Option Uuid), Blank scripts (start levels name none parent) := by
  induction levels using Nat.strongRecOn with
  | ind levels ih =>
    rintro name parent before after s h rfl
    obtain ⟨script, found, h⟩ := run_start_ok h
    have children : ∀ c ∈ s.children, ∀ t ∈ c.nodes, t.IsBlank before.scripts := by
      refine blank_children (fun f hf => forward_spawnerAt hf) (fun f hf name => ?_) h rfl
      obtain ⟨l, rfl, rfl⟩ := exists_of_spawnerAt hf
      exact ih l (Nat.lt_succ_self l) name _
    obtain ⟨step, _, _, hstep, rfl, -, -⟩ := run_enter_ok h
    intro t ht
    rcases Snapshot.mem_nodes.1 ht with rfl | ⟨c, hc, ht⟩
    · exact ⟨name, script, step, found, hstep, rfl, rfl⟩
    · exact children c hc t ht

theorem blank_spawnerAt {scripts : KeyMap Script} {levels : Nat} {id : Uuid}
    {f : String → Run Snapshot} (hf : spawnerAt levels id = some f) (name : String) :
    Blank scripts (f name) := by
  obtain ⟨l, -, rfl⟩ := exists_of_spawnerAt hf
  exact blank_start scripts l name _

/-! ## What an answer shows -/

/-- A process shows its step with the values that it has. The processes that it has spawned on the way
have none. -/
structure Remembers (before after : Server) (values : KeyMap Value) (s : Snapshot) : Prop where
  shown : ∃ q ∈ after.instances, ∃ step, q.values = values ∧ s.Shows q step ∧
    s.processName = q.script.name ∧ s.parameters = step.parameters.map q.parameter
  others : ∀ p ∈ after.instances, p.id ≠ s.id → p ∈ before.instances ∨ p.values = .empty
  children : ∀ c ∈ s.children, ∀ t ∈ c.nodes, t.IsBlank before.scripts

theorem remembers_enter {q : Instance} {levels : Nat} {id : Uuid}
    (h : before.run (enter q (spawnerAt levels id)) = (.ok s, after)) :
    Remembers before after q.values s := by
  have children :=
    blank_children (fun f hf => forward_spawnerAt hf) (fun f hf => blank_spawnerAt hf) h rfl
  obtain ⟨step, ss, middle, hstep, rfl, rfl, hspawn⟩ := run_enter_ok h
  have bare := bare_spawnings q levels id step before
  rw [hspawn] at bare
  refine ⟨⟨q.arrived, mem_keep.2 (.inl rfl), step, rfl, .snapshot hstep ss, rfl, rfl⟩,
    fun p hp other => ?_, children⟩
  rcases mem_keep.1 hp with rfl | ⟨hp, -⟩
  · exact absurd rfl other
  · exact bare p hp

/-- A process that goes on for a request has the values that the request gives it. -/
theorem run_proceed_of_heads (found : before.instance? u.id = some p) {mode : Mode} {changed : Bool}
    {k : Nat} (heads : p.heads u mode changed = some k) :
    before.run (proceed u mode changed) =
      before.run (settle { p with values := p.valuesAfter u mode, index := k } u.step) := by
  rw [proceed, run_bind_get, found]
  cases mode with
  | cancel => cases heads
  | reload =>
    obtain rfl := Option.some.inj heads
    rfl
  | rollback =>
    rw [Instance.heads] at heads
    dsimp only
    unfold goBack
    split at heads
    · cases heads
    · next free =>
      obtain rfl := Option.some.inj heads
      rw [if_neg free]
      rfl
  | execute =>
    obtain ⟨step, hstep, heads⟩ := Option.bind_eq_some_iff.1 heads
    dsimp only
    unfold advance
    rw [hstep]
    dsimp only
    by_cases hchanged : changed = true
    · rw [if_pos hchanged] at heads ⊢
      obtain rfl := Option.some.inj heads
      rfl
    · rw [if_neg hchanged] at heads ⊢
      cases valid : step.validate
          (u.parameters.foldl (fun values q => values.insert q.name q.value) p.values) with
      | error e =>
        rw [valid] at heads
        cases heads
      | ok =>
        rw [valid] at heads
        obtain rfl := Option.some.inj heads
        rfl

/-- A process that is started shows the members of its input. -/
theorem remembers_start {levels : Nat} {name : String} {input : Option Value} {parent : Option Uuid}
    (h : before.run (start levels name input parent) = (.ok s, after)) :
    Remembers before after (.ofList ((input.bind Value.entries?).getD [])) s := by
  obtain ⟨script, -, h⟩ := run_start_ok h
  have remembers := remembers_enter h
  exact ⟨remembers.shown, remembers.others, remembers.children⟩

/-- A process answers a request with values that it has from the request, and from before it. -/
inductive Holds (before after : Server) (s : Snapshot) : Request → Prop where
  | started {d : Descriptor}
      (remembers : Remembers before after (.ofList ((d.input.bind Value.entries?).getD [])) s) :
    Holds before after s (.start d)
  | resumed {u : Snapshot} {mode : Mode} {event : Option Interaction} {p : Instance}
      (found : before.instance? u.id = some p)
      (remembers : Remembers before after (p.valuesAfter u mode) s) :
    Holds before after s (.continue u mode event)

theorem Holds.remembers (holds : Holds before after s request) :
    ∃ values, Remembers before after values s := by
  cases holds with
  | started remembers => exact ⟨_, remembers⟩
  | resumed _ remembers => exact ⟨_, remembers⟩

theorem holds_execute (h : before.run (execute request) = (.ok s, after))
    (going : s.finished = false) : Holds before after s request := by
  cases executes h with
  | started _ run =>
    have remembers := remembers_start run
    exact .started ⟨remembers.shown, remembers.others, remembers.children⟩
  | ended _ _ run =>
    rw [run_finish] at run
    cases run
    cases going
  | @settled u mode event p q _ _ calm found _ heads =>
    have found' : (before.noting (.continue u mode event)).instance? u.id = some p := found
    rw [run_execute_continue calm, run_proceed_of_heads found' heads] at h
    unfold settle at h
    split at h
    · rw [run_finish] at h
      cases h
      cases going
    · have remembers := remembers_enter h
      exact .resumed found ⟨remembers.shown, remembers.others, remembers.children⟩

/-- The answer to a request for a process is about that process. -/
theorem id_of_execute (h : before.run (execute request) = (.ok s, after)) {x : Uuid}
    (subject : request.subject? = some x) : s.id = x := by
  cases executes h with
  | started => cases subject
  | ended _ found run =>
    obtain rfl := Option.some.inj subject
    rw [run_finish] at run
    cases run
    exact (instance?_eq_some.1 found).2
  | settled _ found resumes _ run =>
    obtain rfl := Option.some.inj subject
    have same := resumes.id.trans (instance?_eq_some.1 found).2
    unfold settle at run
    split at run
    · rw [run_finish] at run
      cases run
      exact same
    · obtain ⟨step, ss, middle, -, rfl, -, -⟩ := run_enter_ok run
      exact same

/-- A process that cannot enter its step is not kept. -/
theorem bare_of_enter_error {q : Instance} {levels : Nat} {id : Uuid} {e : ServiceError}
    (h : before.run (enter q (spawnerAt levels id)) = (.error e, after)) : Bare before after := by
  cases hstep : q.script.steps[q.index]? with
  | none =>
    rw [enter_none hstep, run_throw] at h
    cases h
    exact steady_bare.refl before
  | some step =>
    have bare := bare_spawnings q levels id step before
    rw [enter_eq hstep, run_bind] at h
    cases hspawn : before.run (spawnings q (spawnerAt levels id) step) with
    | mk r middle =>
      rw [hspawn] at h bare
      cases r with
      | ok ss => cases h
      | error e' =>
        cases h
        exact bare

/-- A process that cannot be started is not kept, whatever its input is. -/
theorem bare_of_start_error {levels : Nat} {name : String} {input : Option Value}
    {parent : Option Uuid} {e : ServiceError}
    (h : before.run (start levels name input parent) = (.error e, after)) : Bare before after := by
  rw [start_eq] at h
  cases found : before.scripts.get? name with
  | none =>
    rw [run_bind, run_script_none found] at h
    cases h
    exact steady_bare.refl before
  | some script =>
    rw [run_bind_of_ok (run_script found)] at h
    have h : before.next.run (enter (newborn levels input parent script (.issued before.issued))
      (spawnerAt levels (.issued before.issued))) = (.error e, after) := h
    exact steady_bare.trans (steady_bare.next before) (bare_of_enter_error h)

/-- A request that fails leaves nobody behind with values that were not there before. -/
theorem bare_of_error {e : ServiceError} (h : before.run (execute request) = (.error e, after)) :
    Bare before after := by
  cases executes h with
  | injected => exact steady_bare.refl before
  | started _ run =>
    have bare := bare_of_start_error run
    exact bare
  | refused => exact steady_bare.refl before
  | ended _ _ run =>
    rw [run_finish] at run
    cases run
  | settled _ _ _ _ run =>
    unfold settle at run
    split at run
    · rw [run_finish] at run
      cases run
    · have bare := bare_of_enter_error run
      exact bare

/-- A process that the answer is not about has run before as it is, or has no values. -/
theorem Outcome.bare {r : Except ServiceError Snapshot} (outcome : Outcome before request r after)
    (h : before.run (execute request) = (r, after)) (hp : p ∈ after.instances)
    (other : ∀ s, r = .ok s → s.id ≠ p.id) : p ∈ before.instances ∨ p.values = .empty := by
  cases r with
  | error e => exact bare_of_error h p hp
  | ok s =>
    have other := (other s rfl).symm
    cases last : s.finished with
    | true => exact .inl (((outcome.dropped last).2.2.2 p).1 hp).1
    | false =>
      obtain ⟨values, remembers⟩ := (holds_execute h last).remembers
      exact remembers.others p hp other

end Values

end Server

end Stepwise
