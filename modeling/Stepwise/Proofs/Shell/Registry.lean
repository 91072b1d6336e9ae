/-
# The registry of a session

A session keeps the latest snapshot of every process that a client has shown, until that client's child
process finishes and tells so. A client that fails tells nothing about its process, and neither does one
that is let go together with a client above it; their snapshots stay behind. So does a snapshot whose
client goes on with another process. All of them are gone when the session ends.

* `Registers` : by what the clients have told, a snapshot is in the registry;
* `Shell.snapshot?_sessionAfter` : these are exactly the snapshots in it;
* `Client.Runs` : a client of the tree goes on with a process;
* `registry_accounted` : which processes of the registry run;
* `registry_holds_stale_leaf` : not all of them do.
-/
import Mathlib.Data.List.Induction
import Mathlib.Data.List.Nodup
import Stepwise.Proofs.Client.Survival
import Stepwise.Proofs.Shell.Calls
import Stepwise.Server.Services

namespace Stepwise

/-! ## What is registered -/

/-- The registry has one snapshot of each process. -/
theorem Session.mem_snapshots_iff (session : Session) (s : Snapshot) :
    s ∈ session.snapshots ↔ session.snapshot? s.id = some s := by
  refine ⟨fun hs => ?_, List.mem_of_find?_eq_some⟩
  unfold snapshot?
  cases h : session.snapshots.find? (·.id = s.id) with
  | none => simpa using List.find?_eq_none.1 h s hs
  | some t =>
    have hid : t.id = s.id := by simpa using List.find?_some h
    rw [List.inj_on_of_nodup_map session.distinct (List.mem_of_find?_eq_some h) hs hid]

/-- The event takes what the registry has of a process out of it, or puts something else in its place. -/
def LifecycleEvent.Replaces (main : ClientId) (x : Uuid) : LifecycleEvent ClientId → Prop
  | .updated _ s => s.id = x
  | .finished id _ s => id ≠ main ∧ s.id = x
  | _ => False

/-- The client has told last of the process of a snapshot: it has shown the snapshot, and since then
nobody has shown that process, and no child process has told that it was that one and is finished. -/
def Registers (main : ClientId) (es : List (LifecycleEvent ClientId)) (id : ClientId) (s : Snapshot) :
    Prop :=
  ∃ earlier later, es = earlier ++ .updated id s :: later ∧ ∀ e ∈ later, ¬ e.Replaces main s.id

section Registers

variable {main id : ClientId} {es : List (LifecycleEvent ClientId)} {e : LifecycleEvent ClientId}
  {s : Snapshot}

theorem Registers.mem (registers : Registers main es id s) : .updated id s ∈ es := by
  obtain ⟨earlier, later, rfl, -⟩ := registers
  exact List.mem_append_right _ List.mem_cons_self

theorem not_registers_nil : ¬ Registers main [] id s := fun registers => by
  cases registers.mem

/-- One more event is told. -/
theorem registers_concat : Registers main (es ++ [e]) id s ↔
    e = .updated id s ∨ (Registers main es id s ∧ ¬ e.Replaces main s.id) := by
  constructor
  · rintro ⟨earlier, later, heq, silent⟩
    induction later using List.reverseRecOn with
    | nil =>
      obtain ⟨-, h⟩ := List.append_inj' heq rfl
      exact .inl (List.cons.inj h).1
    | append_singleton later last =>
      rw [← List.cons_append, ← List.append_assoc] at heq
      obtain ⟨rfl, h⟩ := List.append_inj' heq rfl
      obtain rfl := (List.cons.inj h).1
      refine .inr ⟨⟨earlier, later, rfl, fun e he => silent e (List.mem_append_left _ he)⟩, ?_⟩
      exact silent e (List.mem_append_right _ (List.mem_singleton_self e))
  · rintro (rfl | ⟨⟨earlier, later, rfl, silent⟩, kept⟩)
    · exact ⟨es, [], rfl, nofun⟩
    · refine ⟨earlier, later ++ [e], by simp, fun e' he' => ?_⟩
      rcases List.mem_append.1 he' with he' | he'
      · exact silent e' he'
      · rwa [List.mem_singleton.1 he']

/-- Exactly the snapshots that the clients have told of last are in the registry. -/
theorem Shell.snapshot?_sessionAfter (user : User)
    (going : ∀ e ∈ es, e.client = main → e.isFinished = false) (x : Uuid) :
    (sessionAfter main user es).snapshot? x = some s ↔
      s.id = x ∧ ∃ id, Registers main es id s := by
  induction es using List.reverseRecOn with
  | nil => exact ⟨nofun, fun ⟨_, _, registers⟩ => absurd registers not_registers_nil⟩
  | append_singleton es e ih =>
    have ih := ih fun e he => going e (List.mem_append_left _ he)
    have going := going e (List.mem_append_right _ (List.mem_singleton_self e))
    rw [sessionAfter_concat]
    simp only [registers_concat]
    -- an event about another process changes nothing
    have other (apart : ∀ s : Snapshot, s.id = x → e.Replaces main s.id → False)
        (unshown : ∀ id s, s.id = x → e ≠ .updated id s) :
        (sessionAfter main user es).snapshot? x = some s ↔ s.id = x ∧
          ∃ id, e = .updated id s ∨ (Registers main es id s ∧ ¬ e.Replaces main s.id) := by
      rw [ih]
      refine and_congr_right fun hid => exists_congr fun id => ?_
      rw [or_iff_right (unshown id s hid), and_iff_left (apart s hid)]
    cases e with
    | started => exact other (fun _ _ h => h) nofun
    | failed => exact other (fun _ _ h => h) nofun
    | updated id t =>
      rw [hear, Session.snapshot?_remember]
      by_cases hx : t.id = x
      · rw [if_pos hx, Option.some_inj]
        constructor
        · rintro rfl
          exact ⟨hx, id, .inl rfl⟩
        · rintro ⟨hid, _, h | ⟨-, kept⟩⟩
          · cases h
            rfl
          · exact absurd (hx.trans hid.symm) kept
      · rw [if_neg hx]
        refine other (fun s hid replaced => hx (replaced.trans hid)) fun d s hid h => ?_
        cases h
        exact hx hid
    | finished id parent t =>
      have child : id ≠ main := fun h => by cases going h
      have unequal : decide (LifecycleEvent.client (.finished id parent t) = main) = false :=
        decide_eq_false child
      rw [unequal, hear, if_neg Bool.false_ne_true, Session.snapshot?_forget]
      by_cases hx : t.id = x
      · rw [if_pos hx]
        refine ⟨nofun, ?_⟩
        rintro ⟨hid, _, h | ⟨-, kept⟩⟩
        · cases h
        · exact absurd ⟨child, hx.trans hid.symm⟩ kept
      · rw [if_neg hx]
        exact other (fun s hid replaced => hx (replaced.2.trans hid)) nofun

end Registers

/-! ## What runs -/

section Runs

variable {V : Type}

/-- The client goes on with the process. -/
structure ClientState.RunsOn (o : ClientState V) (x : Uuid) : Prop where
  going : o.phase.isTerminal = false
  current : o.current.map (·.id) = some x

/-- Some client of the tree goes on with the process. -/
def Client.Runs (c : Client V) (x : Uuid) : Prop := ∃ o ∈ c.states, o.RunsOn x

/-- In the whole run of a tree the clients have told this, and no request waits. -/
def Client.HasTold [ProcessView V] (c : Client V) (es : List (LifecycleEvent ClientId)) : Prop :=
  ∃ id view enabled log,
    TreeRun .open ((Client.idle id view).withAutoContinue enabled) ⟨c, [], log⟩ ∧ eventsOf log = es

/-- Which processes run, of those that some client has shown: those of clients that were not let go, have
not failed, and are still with that process; and those that another client has taken over. -/
theorem Client.HasTold.runs_iff [ProcessView V] {c : Client V} {es : List (LifecycleEvent ClientId)}
    (told : c.HasTold es) (open' : c.phase ≠ .finished) {id : ClientId} {s : Snapshot}
    (shown : .updated id s ∈ es) :
    c.Runs s.id ↔
      (¬ LetGo c.id es id ∧ (id = c.id → c.phase ≠ .failed) ∧
        ∀ o ∈ c.states, o.id = id → o.current.map (·.id) = some s.id) ∨
      ∃ o ∈ c.states, o.id ≠ id ∧ o.RunsOn s.id := by
  obtain ⟨_, _, _, log, run, rfl⟩ := told
  have chron := run.chronicle rfl
  have peopled := run.peopled rfl rfl
  have present : (∃ o ∈ c.states, o.id = id) ↔ ¬ LetGo c.id (eventsOf log) id :=
    peopled.present_iff rfl rfl chron shown
  constructor
  · rintro ⟨o, ho, runs⟩
    by_cases hid : o.id = id
    · refine .inl ⟨present.1 ⟨o, ho, hid⟩, fun top failed => ?_, fun p hp hpid => ?_⟩
      · obtain rfl := chron.placed.state_eq_of_id ho c.mem_states_self (hid.trans top)
        have going := runs.going
        rw [failed] at going
        cases going
      · rw [chron.placed.state_eq_of_id hp ho (hpid.trans hid.symm)]
        exact runs.current
    · exact .inr ⟨o, ho, hid, runs⟩
  · rintro (⟨kept, unfailed, current⟩ | ⟨o, ho, -, runs⟩)
    · obtain ⟨o, ho, hid⟩ := present.2 kept
      refine ⟨o, ho, ?_, current o ho hid⟩
      by_cases top : o.id = c.id
      · obtain rfl := chron.placed.state_eq_of_id ho c.mem_states_self top
        have unfailed := unfailed hid.symm
        cases hphase : c.phase with
        | finished => exact absurd hphase open'
        | failed => exact absurd hphase unfailed
        | _ => rfl
      · exact (peopled.going o ho top).1
    · exact ⟨o, ho, runs⟩

end Runs

section Sessions

variable {V σ : Type} [Toolkit V] {settings : Settings} {services : Services σ} {server : σ}
  {shell : Shell V σ}

/-- **The registry, accounted for.** After every call that returns, whatever the server answers: without a
main process the registry is empty. Otherwise it holds exactly the snapshots that the clients of the tree
have told of last, and the process of such a snapshot runs exactly if the client that has shown it was not
let go, has not failed and has not gone on with another process, or if another client has taken the
process over. -/
theorem registry_accounted (run : ShellRun settings services server shell) :
    (shell.client = none → shell.desk.session.snapshots = []) ∧
    ∀ c, shell.client = some c → ∃ es, c.HasTold es ∧
      (∀ s, s ∈ shell.desk.session.snapshots ↔ ∃ id, Registers c.id es id s) ∧
      ∀ id s, Registers c.id es id s →
        (c.Runs s.id ↔
          (¬ LetGo c.id es id ∧ (id = c.id → c.phase ≠ .failed) ∧
            ∀ o ∈ c.states, o.id = id → o.current.map (·.id) = some s.id) ∨
          ∃ o ∈ c.states, o.id ≠ id ∧ o.RunsOn s.id) := by
  obtain ⟨seated, still⟩ := run.seated
  cases seated with
  | vacant _ vacant =>
    refine ⟨fun _ => ?_, fun c hc => ?_⟩
    · rw [vacant.desk]
      rfl
    · rw [vacant.client] at hc
      cases hc
  | @occupied main handled occupied =>
    refine ⟨fun none => ?_, fun c hc => ?_⟩
    · rw [occupied.client] at none
      cases none
    obtain rfl := Option.some.inj (occupied.client.symm.trans hc)
    obtain ⟨id, view, enabled, log, run, hlog⟩ := occupied.told
    obtain ⟨user, hsession⟩ := occupied.session
    rw [still.pending] at run
    rw [still.events, List.append_nil] at hlog
    have told : main.HasTold handled := ⟨id, view, enabled, log, run, hlog⟩
    refine ⟨handled, told, fun s => ?_, fun id s registers => ?_⟩
    · rw [Session.mem_snapshots_iff, hsession,
        Shell.snapshot?_sessionAfter user occupied.going, eq_self, true_and]
    · exact told.runs_iff (occupied.shown still).1 registers.mem

end Sessions

/-! ## A process that is forgotten too late -/

/-- A snapshot of the registry whose process no client of the tree is with. -/
def Shell.unattended? {V σ : Type} (shell : Shell V σ) : Option Snapshot :=
  shell.client.bind fun c => shell.desk.session.snapshots.find? fun s =>
    c.states.all fun o => o.current.map (·.id) ≠ some s.id

theorem Shell.not_runs_of_unattended? {V σ : Type} {shell : Shell V σ} {s : Snapshot}
    (h : shell.unattended? = some s) :
    ∃ c, shell.client = some c ∧ s ∈ shell.desk.session.snapshots ∧ ¬ c.Runs s.id := by
  obtain ⟨c, hc, hfind⟩ := Option.bind_eq_some_iff.1 h
  refine ⟨c, hc, List.mem_of_find?_eq_some hfind, ?_⟩
  rintro ⟨o, ho, runs⟩
  have nobody := List.find?_some hfind
  exact of_decide_eq_true (List.all_eq_true.1 nobody o ho) runs.current

/-- A main process whose only step spawns a process that goes on by itself, and that spawns a note. -/
def nestedScripts : List Script :=
  [⟨"Main", "", [⟨"Home", none, [⟨"note", "Note", .null, false, none⟩], false, false, false,
      ["Mid"]⟩]⟩,
    ⟨"Mid", "", [⟨"Wait", none, [], true, false, false, ["Leaf"]⟩]⟩,
    ⟨"Leaf", "", [⟨"Text", none, [⟨"text", "Text", .null, false, none⟩], false, false, false, []⟩]⟩]

/-- Once a user has logged in, the process in the middle has finished, and the note is gone with it. -/
theorem exists_unattended_leaf : ∃ (shell : Shell Recording Server) (s : Snapshot),
    ShellRun .standard (Server.services .epoch) (Server.ofScripts nestedScripts) shell ∧
      shell.unattended? = some s ∧ s.processName = "Leaf" := by
  have h : ((Shell.run (.start .standard (Server.services .epoch) (Server.ofScripts nestedScripts) :
      Shell Recording Server) ((ShellCall.login ⟨"alice", "secret"⟩).act 3)).bind
        (·.2.unattended?)).map (·.processName) = some "Leaf" := by
    decide +kernel
  obtain ⟨s, h, name⟩ := Option.map_eq_some_iff.1 h
  obtain ⟨⟨r, shell⟩, hrun, h⟩ := Option.bind_eq_some_iff.1 h
  exact ⟨shell, s, ShellRun.start.call _ 3 hrun, h, name⟩

/-- The registry holds a process that does not run. -/
theorem registry_holds_stale_leaf : ∃ (shell : Shell Recording Server) (c : Client Recording),
    ShellRun .standard (Server.services .epoch) (Server.ofScripts nestedScripts) shell ∧
      shell.client = some c ∧
      ∃ s ∈ shell.desk.session.snapshots, s.processName = "Leaf" ∧ ¬ c.Runs s.id := by
  obtain ⟨shell, s, run, unattended, name⟩ := exists_unattended_leaf
  obtain ⟨c, hc, hs, stale⟩ := Shell.not_runs_of_unattended? unattended
  exact ⟨shell, c, run, hc, s, hs, name, stale⟩

/-- The client that has shown it was let go, if it is not in the tree with another process. -/
theorem registry_accounted_leaf : ∃ (shell : Shell Recording Server) (c : Client Recording),
    ShellRun .standard (Server.services .epoch) (Server.ofScripts nestedScripts) shell ∧
      shell.client = some c ∧
      ∃ es id s, c.HasTold es ∧ s ∈ shell.desk.session.snapshots ∧ Registers c.id es id s ∧
        ((∀ o ∈ c.states, o.id ≠ id) → LetGo c.id es id) := by
  obtain ⟨shell, s, run, unattended, -⟩ := exists_unattended_leaf
  obtain ⟨c, hc, hs, stale⟩ := Shell.not_runs_of_unattended? unattended
  obtain ⟨es, told, holds, runs⟩ := (registry_accounted run).2 c hc
  obtain ⟨id, registers⟩ := (holds s).1 hs
  refine ⟨shell, c, run, hc, es, id, s, told, hs, registers, fun gone => ?_⟩
  by_contra kept
  refine stale ((runs id s registers).2 (.inl ⟨kept, fun top => ?_, fun o ho hid => ?_⟩))
  · exact absurd top.symm (gone _ c.mem_states_self)
  · exact absurd hid (gone o ho)

end Stepwise
