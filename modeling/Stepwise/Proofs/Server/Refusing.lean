/-
# What the scripted server refuses

A server refuses to start what is not scripted or has no steps, and to continue what does not run, what
has wrong values or cannot go back. As every process that runs is positioned on a step of its script,
there is nothing else that it refuses.

* `Refusal` : the errors that come from the server itself;
* `Refusal.ne_outOfSteps`, `Refusal.of_hasNoStep` : what their texts say about steps;
* `Server.FailsOnly`, `Server.failsOnly_start` : computations that fail with such errors only;
* `Server.refusal_execute` : a request fails with such an error only.
-/
import Stepwise.Proofs.Server.Outcome

namespace Stepwise

/-- The errors of a server that come from itself. -/
inductive Refusal (scripts : KeyMap Script) : ServiceError → Prop where
  | unscripted {name : String} (none : scripts.get? name = none) :
    Refusal scripts (.fault ("Unknown process '" ++ name ++ "'"))
  | stepless {name : String} {script : Script} (found : scripts.get? name = some script)
      (none : script.steps = []) :
    Refusal scripts (.fault ("Process '" ++ script.name ++ "' has no step " ++ toString 0))
  | unknown (id : Uuid) : Refusal scripts (.fault ("Unknown process instance " ++ id.text))
  | invalid (fieldErrors : KeyMap String) :
    Refusal scripts (.recoverable "Validation failed" fieldErrors none)
  | stuck : Refusal scripts (.rejected "Rollback is not possible here")

/-! ## Their texts -/

/-- What stands before the last quote, and what stands after it. -/
theorem append_quote_inj {a b c d : List Char} (hb : '\'' ∉ b) (hd : '\'' ∉ d)
    (h : a ++ '\'' :: b = c ++ '\'' :: d) : a = c ∧ b = d := by
  rcases List.append_eq_append_iff.1 h with ⟨x, rfl, hx⟩ | ⟨x, rfl, hx⟩
  · cases x with
    | nil => exact ⟨(List.append_nil a).symm, (List.cons.inj hx).2⟩
    | cons y x =>
      refine absurd ?_ hb
      rw [(List.cons.inj hx).2]
      exact List.mem_append_right x List.mem_cons_self
  · cases x with
    | nil => exact ⟨List.append_nil c, (List.cons.inj hx).2.symm⟩
    | cons y x =>
      refine absurd ?_ hd
      rw [(List.cons.inj hx).2]
      exact List.mem_append_right x List.mem_cons_self

/-- Numbers are written without quotes. -/
theorem quote_not_mem_toString (k : Nat) : '\'' ∉ (toString k).toList := by
  rw [Nat.toString_eq_repr, Nat.toList_repr]
  intro h
  have := Nat.isDigit_of_mem_toDigits (by decide) (by decide) h
  exact absurd this (by decide)

/-- What is said of a process tells its name, if there are no quotes in the rest. -/
theorem saidOf_inj {m n x y : List Char} (hx : '\'' ∉ x) (hy : '\'' ∉ y)
    (h : "Process '".toList ++ m ++ '\'' :: x = "Process '".toList ++ n ++ '\'' :: y) :
    m = n ∧ x = y := by
  obtain ⟨hname, hrest⟩ := append_quote_inj hx hy h
  exact ⟨List.append_cancel_left hname, hrest⟩

theorem toList_hasNoStep (name : String) (k : Nat) :
    ("Process '" ++ name ++ "' has no step " ++ toString k).toList =
      "Process '".toList ++ name.toList ++ '\'' :: (" has no step ".toList ++ (toString k).toList) := by
  simp

theorem toList_outOfSteps (name : String) :
    ("Process '" ++ name ++ "' is out of steps").toList =
      "Process '".toList ++ name.toList ++ '\'' :: " is out of steps".toList := by
  simp

theorem quote_not_mem_hasNoStep (k : Nat) :
    '\'' ∉ " has no step ".toList ++ (toString k).toList := by
  rw [List.mem_append, not_or]
  exact ⟨by decide, quote_not_mem_toString k⟩

namespace Refusal

variable {scripts : KeyMap Script} {e : ServiceError}

/-- No process is out of steps. -/
theorem ne_outOfSteps (h : Refusal scripts e) (name : String) :
    e ≠ .fault ("Process '" ++ name ++ "' is out of steps") := by
  intro heq
  cases h with
  | unscripted =>
    have := congrArg (·.toList.head?) (ServiceError.unrecoverable.inj heq).1
    simp at this
  | stepless =>
    have text := congrArg String.toList (ServiceError.unrecoverable.inj heq).1
    rw [toList_hasNoStep, toList_outOfSteps] at text
    obtain ⟨-, rest⟩ := saidOf_inj (quote_not_mem_hasNoStep 0) (by decide) text
    exact absurd rest (by decide)
  | unknown =>
    have := congrArg (·.toList.head?) (ServiceError.unrecoverable.inj heq).1
    simp at this
  | invalid => cases heq
  | stuck => cases heq

/-- A process that is said to have no such step has no steps at all. -/
theorem of_hasNoStep (h : Refusal scripts e) {name : String} {k : Nat}
    (heq : e = .fault ("Process '" ++ name ++ "' has no step " ++ toString k)) :
    ∃ key script, scripts.get? key = some script ∧ script.name = name ∧
      script.steps = [] := by
  cases h with
  | unscripted =>
    have := congrArg (·.toList.head?) (ServiceError.unrecoverable.inj heq).1
    simp at this
  | @stepless key script found none =>
    have text := congrArg String.toList (ServiceError.unrecoverable.inj heq).1
    rw [toList_hasNoStep, toList_hasNoStep] at text
    obtain ⟨named, -⟩ := saidOf_inj (quote_not_mem_hasNoStep 0) (quote_not_mem_hasNoStep k) text
    exact ⟨key, script, found, String.toList_inj.1 named, none⟩
  | unknown =>
    have := congrArg (·.toList.head?) (ServiceError.unrecoverable.inj heq).1
    simp at this
  | invalid => cases heq
  | stuck => cases heq

end Refusal

namespace Server

variable {α β : Type} {scripts : KeyMap Script} {P : ServiceError → Prop}

/-! ## Computations that fail with such errors only -/

/-- With certain scripts the computation fails with errors of a kind only. -/
def FailsOnly (scripts : KeyMap Script) (P : ServiceError → Prop) (act : Run α) : Prop :=
  ∀ ⦃server after : Server⦄ ⦃e : ServiceError⦄, server.run act = (.error e, after) →
    server.scripts = scripts → P e

theorem failsOnly_pure (x : α) : FailsOnly scripts P (pure x : Run α) := by
  rintro server after e h -
  cases h

theorem failsOnly_throw {e : ServiceError} (he : P e) : FailsOnly scripts P (throw e : Run α) := by
  rintro server after _ h -
  cases h
  exact he

theorem failsOnly_modify (g : Server → Server) : FailsOnly scripts P (modify g : Run PUnit) := by
  rintro server after e h -
  cases h

theorem FailsOnly.bind {a : Run α} {f : α → Run β} (forward : Forward a) (ha : FailsOnly scripts P a)
    (hf : ∀ x, FailsOnly scripts P (f x)) : FailsOnly scripts P (a >>= f) := by
  intro server after e h hscripts
  have hmiddle := (forward server).scripts
  rw [run_bind] at h
  cases hrun : server.run a with
  | mk r middle =>
    rw [hrun] at h hmiddle
    cases r with
    | ok x => exact hf x h (hmiddle.trans hscripts)
    | error e' =>
      cases h
      exact ha hrun hscripts

theorem failsOnly_spawnAll {f : String → Run Snapshot} (forward : ∀ name, Forward (f name))
    (h : ∀ name, FailsOnly scripts P (f name)) (names : List String) :
    FailsOnly scripts P (spawnAll f names) := by
  induction names with
  | nil => exact failsOnly_pure _
  | cons name rest ih =>
    exact (h name).bind (forward name) fun child =>
      ih.bind (forward_spawnAll forward rest) fun others => failsOnly_pure _

/-- A process that has the step that it enters fails only as those that it spawns. -/
theorem failsOnly_enter {p : Instance} {spawn : Option (String → Run Snapshot)}
    (placed : p.index < p.script.steps.length)
    (forward : ∀ f, spawn = some f → ∀ name, Forward (f name))
    (h : ∀ f, spawn = some f → ∀ name, FailsOnly scripts P (f name)) :
    FailsOnly scripts P (enter p spawn) := by
  rw [enter_eq (List.getElem?_eq_getElem placed)]
  refine FailsOnly.bind (forward_spawnings forward _) ?_ fun children =>
    (failsOnly_modify _).bind (forward_modify fun server => precedes_keep server _) fun _ =>
      failsOnly_pure _
  unfold spawnings
  split
  · split
    · exact failsOnly_pure _
    · exact failsOnly_spawnAll (forward _ rfl) (h _ rfl) _
  · exact failsOnly_pure _

/-- A process that is started is not scripted or has no steps, if it is not one that it spawns which
fails. -/
theorem failsOnly_newborn {levels : Nat} (h : ∀ id f, spawnerAt levels id = some f →
      ∀ name, FailsOnly scripts (Refusal scripts) (f name))
    (name : String) (input : Option Value) (parent : Option Uuid) :
    FailsOnly scripts (Refusal scripts) (start levels name input parent) := by
  rintro server after e hrun rfl
  rw [start_eq] at hrun
  cases found : server.scripts.get? name with
  | none =>
    rw [run_bind, run_script_none found] at hrun
    cases hrun
    exact .unscripted found
  | some script =>
    rw [run_bind_of_ok (run_script found)] at hrun
    have hrun : server.next.run (enter (newborn levels input parent script (.issued server.issued))
      (spawnerAt levels (.issued server.issued))) = (.error e, after) := hrun
    by_cases none : script.steps = []
    · have hstep : script.steps[0]? = Option.none := by rw [none]; rfl
      rw [enter_none (p := newborn levels input parent script (.issued server.issued)) hstep,
        run_throw] at hrun
      cases hrun
      exact .stepless found none
    · exact failsOnly_enter (p := newborn levels input parent script (.issued server.issued))
        (List.length_pos_of_ne_nil none) (fun f hf => forward_spawnerAt hf) (h _) hrun rfl

theorem failsOnly_start (levels : Nat) :
    ∀ (name : String) (input : Option Value) (parent : Option Uuid),
      FailsOnly scripts (Refusal scripts) (start levels name input parent) := by
  induction levels using Nat.strongRecOn with
  | ind levels ih =>
    refine failsOnly_newborn fun id f hf name => ?_
    obtain ⟨l, rfl, rfl⟩ := exists_of_spawnerAt hf
    exact ih l (Nat.lt_succ_self l) name none _

/-- A process that goes past its last step ends, so that it lacks no step. -/
theorem failsOnly_settle (p : Instance) (step : String) :
    FailsOnly scripts (Refusal scripts) (settle p step) := by
  unfold settle
  split
  · exact (failsOnly_modify _).bind (forward_modify fun server => precedes_remove server p.id)
      fun _ => failsOnly_pure _
  · next placed =>
    refine failsOnly_enter (Nat.lt_of_not_le placed) (fun f hf => forward_spawnerAt hf)
      fun f hf name => ?_
    obtain ⟨levels, -, rfl⟩ := exists_of_spawner hf
    exact failsOnly_start levels name none _

theorem failsOnly_goBack (p : Instance) (s : Snapshot) :
    FailsOnly scripts (Refusal scripts) (goBack p s) := by
  unfold goBack
  split
  · exact failsOnly_throw .stuck
  · exact failsOnly_settle _ _

theorem failsOnly_advance {p : Instance} (placed : p.index < p.script.steps.length) (s : Snapshot)
    (changed : Bool) : FailsOnly scripts (Refusal scripts) (advance p s changed) := by
  unfold advance
  rw [List.getElem?_eq_getElem placed]
  dsimp only
  split
  · exact failsOnly_settle _ _
  · split
    · next e he =>
      obtain ⟨fieldErrors, rfl⟩ := ScriptStep.validate_error he
      exact failsOnly_throw (.invalid fieldErrors)
    · exact failsOnly_settle _ _

/-! ## Requests -/

/-- A server whose processes are positioned on steps fails only with errors of its own, unless it was told
to fail. -/
theorem refusal_execute {before after : Server} {request : Request} {e : ServiceError}
    (placed : ∀ p ∈ before.instances, p.index < p.script.steps.length)
    (calm : before.injected = []) (h : before.run (execute request) = (.error e, after)) :
    Refusal before.scripts e := by
  cases request with
  | start d =>
    rw [run_execute_start calm] at h
    exact failsOnly_start spawnLimit d.name d.input none h rfl
  | «continue» s mode event =>
    cases found : before.instance? s.id with
    | none =>
      rw [run_execute_unknown calm found] at h
      cases h
      exact .unknown s.id
    | some p =>
      rw [run_execute_found calm found] at h
      have hp := placed p (instance?_eq_some.1 found).1
      cases mode with
      | cancel => cases h
      | reload => exact failsOnly_settle p s.step h rfl
      | rollback => exact failsOnly_goBack p s h rfl
      | execute => exact failsOnly_advance hp s _ h rfl

end Server

end Stepwise
