/-
# Clients take over what a server has started

The snapshots that a client gets or keeps show the step of its process, whatever the client does with
them: values and marks may change, nothing else. The clients of new children take over the processes
inside the snapshot, all of them, one client for each.

* `Received.shows`, `Rejected.shows`, `Reaction.shows` : the snapshot shows the step afterwards;
* `Hosted` : clients have taken over the processes inside some snapshots;
* `hosted_newcomers` : the clients of new children have.
-/
import Stepwise.Proofs.Client.Carrying
import Stepwise.Proofs.Joint.Mirror

namespace Stepwise

/-- Whatever process the first snapshot agrees with, the second does as well. -/
def Snapshot.Passes (s t : Snapshot) : Prop := ∀ p, s.Agrees p → t.Agrees p

namespace Snapshot.Passes

variable {s t u : Snapshot}

theorem refl (s : Snapshot) : s.Passes s := fun _ h => h

theorem trans (hst : s.Passes t) (htu : t.Passes u) : s.Passes u := fun p h => htu p (hst p h)

theorem clearModified (s : Snapshot) : s.Passes s.clearModified := fun _ h => h.clearModified

theorem edit {name : String} {value : Value} (h : s.edit? name value = some t) : s.Passes t :=
  fun _ agrees => agrees.edit h

theorem editAll {edits : List (String × Value)} (h : s.editAll edits = some t) : s.Passes t := by
  induction edits generalizing s with
  | nil =>
    obtain rfl : s = t := Option.some.inj h
    exact refl s
  | cons e rest ih =>
    obtain ⟨u, hu, hrest⟩ := Option.bind_eq_some_iff.1 h
    exact (edit hu).trans (ih hrest)

end Snapshot.Passes

variable {V : Type}

/-- The client still has a snapshot that passes for the old one. -/
def ClientState.Shows (o : ClientState V) (s : Snapshot) : Prop :=
  ∃ t, o.current = some t ∧ s.Passes t

variable [ProcessView V] {ch : Channels} {o o' : ClientState V} {s : Snapshot}

/-! ## Snapshots -/

/-- What a user does leaves the snapshot on its step. -/
theorem Reaction.shows {a : UserAction} {r : Except ClientError (Option Outcome)} {own : List Effect}
    (reaction : Reaction ch o (.action a) r o' own) (current : o.current = some s)
    (begun : o.phase ≠ .idle) : o'.Shows s := by
  have same {o' : ClientState V} (h : o'.current = o.current) : o'.Shows s :=
    ⟨s, h.trans current, .refl s⟩
  have passed {o : ClientState V} {t : Snapshot} (mode : Mode) (h : s.Passes t) :
      (o.proceeded t mode).Shows s := ⟨t.clearModified, rfl, h.trans (.clearModified t)⟩
  have own {t : Snapshot} (h : o.current = some t) : s.Passes t := by
    obtain rfl := Option.some.inj (current.symm.trans h)
    exact .refl s
  have ofResumed {o o' : ClientState V} {x : Outcome} {effects : List Effect}
      (h : o.current = some s) (resumed : Resumed o x o' effects) : o'.Shows s := by
    cases resumed with
    | stayed => exact ⟨s, h, .refl s⟩
    | continued _ _ t ht =>
      obtain rfl := Option.some.inj (h.symm.trans ht)
      exact ⟨s.clearModified, rfl, .clearModified s⟩
  cases reaction with
  | started d idle => exact absurd idle begun
  | attached s idle => exact absurd idle begun
  | edited _ _ _ _ t u ht hedit => exact ⟨u, rfl, (own ht).trans (.edit hedit)⟩
  | navigated offers navigates =>
    cases navigates with
    | submitted _ _ t u ht hedit => exact passed _ ((own ht).trans (.editAll hedit))
    | advanced t ht => exact passed _ (own ht)
    | rolledBack t ht => exact passed _ (own ht)
    | reloaded t ht => exact passed _ (own ht)
  | cancelled _ _ _ t ht => exact passed _ (own ht)
  | accepted _ _ _ t ht => exact passed _ (own ht)
  | declinedResumed _ _ _ resumed => exact ofResumed (o := o.settled) current resumed
  | resumed resumed => exact ofResumed current resumed
  | refused | ignored | deferred | asked | answerLost | acceptedLocked | declined | paused =>
    exact same rfl

/-- Without a snapshot a user gets none, unless the client takes over a process. -/
theorem Reaction.fresh {a : UserAction} {r : Except ClientError (Option Outcome)} {own : List Effect}
    (reaction : Reaction ch o (.action a) r o' own) (fresh : o.current = none)
    (begun : o.phase ≠ .idle ∨ ∀ s, a ≠ .attach s) : o'.current = none := by
  have nobody {s : Snapshot} {P : Prop} (h : o.current = some s) : P := by
    rw [fresh] at h
    cases h
  have ofResumed {o o' : ClientState V} {x : Outcome} {effects : List Effect}
      (fresh : o.current = none) (resumed : Resumed o x o' effects) : o'.current = none := by
    cases resumed with
    | stayed => exact fresh
    | continued _ _ t ht => rw [fresh] at ht; cases ht
  cases reaction with
  | attached s idle =>
    rcases begun with begun | other
    · exact absurd idle begun
    · exact absurd rfl (other s)
  | edited _ _ _ _ t u ht => exact nobody ht
  | navigated offers navigates =>
    cases navigates with
    | submitted _ _ t u ht => exact nobody ht
    | advanced t ht => exact nobody ht
    | rolledBack t ht => exact nobody ht
    | reloaded t ht => exact nobody ht
  | cancelled _ _ _ t ht => exact nobody ht
  | accepted _ _ _ t ht => exact nobody ht
  | declinedResumed _ _ _ resumed => exact ofResumed (o := o.settled) fresh resumed
  | resumed resumed => exact ofResumed fresh resumed
  | started | refused | ignored | deferred | asked | answerLost | acceptedLocked | declined | paused =>
    exact fresh

/-- An error that replaces nothing leaves the snapshot on its step. -/
theorem Rejected.shows {message : String} {fieldErrors : KeyMap String} {effects : List Effect}
    (rejected : Rejected ch o (.recoverable message fieldErrors none) o' effects)
    (going : o.phase.isTerminal = false) (current : o.current = some s) :
    o'.phase.isTerminal = false ∧ o'.Shows s := by
  cases rejected with
  | closed _ ended => rw [going] at ended; cases ended
  | cancelled _ _ _ _ _ t subject =>
    obtain rfl : s = t := Option.some.inj (current.symm.trans subject)
    refine ⟨?_, s.clearModified, rfl, .clearModified s⟩
    rw [ClientState.isTerminal_proceeded]
    exact going
  | withdrawn _ _ _ none => rw [none] at current; cases current
  | rejected => exact ⟨rfl, s, current, .refl s⟩

/-- There is no way on after an error from which nothing recovers. -/
theorem Rejected.fails {message : String} {cause : Option String} {effects : List Effect}
    (rejected : Rejected ch o (.unrecoverable message cause) o' effects)
    (going : o.phase.isTerminal = false) : o'.phase = .failed ∧ requestsOf effects = [] := by
  cases rejected with
  | closed _ ended => rw [going] at ended; cases ended
  | failed =>
    rw [requestsOf_append, requestsOf_callEffects, requestsOf_emitted]
    exact ⟨rfl, rfl⟩

/-- A snapshot of a process that goes on is what the client has then, unless it answers the start and
there is nothing to do: then the client takes it for the last one. -/
theorem Received.shows {effects : List Effect} (received : Received ch s o o' effects)
    (going : o.phase.isTerminal = false) (unfinished : s.finished = false) :
    (o.awaitingStart = true ∧ s.hasOutstandingWork = false ∧ o'.phase = .finished ∧
      o'.current = some { s with finished := true } ∧ requestsOf effects = []) ∨
      o'.phase.isTerminal = false ∧ o'.Shows s := by
  cases received with
  | closed ended => rw [going] at ended; cases ended
  | cancelled =>
    refine .inr ⟨?_, s.clearModified, rfl, .clearModified s⟩
    rw [ClientState.isTerminal_proceeded]
    exact going
  | concluded _ _ conclusion =>
    cases conclusion with
    | finished ended => rw [unfinished] at ended; cases ended
    | idleStart _ start work =>
      rw [requestsOf_append, requestsOf_callEffects, requestsOf_endEffects]
      exact .inl ⟨start, work, rfl, rfl, rfl⟩
    | continued =>
      refine .inr ⟨?_, s.clearModified, rfl, .clearModified s⟩
      rw [ClientState.isTerminal_proceeded]
      rfl
    | shown => exact .inr ⟨rfl, s, rfl, .refl s⟩

/-- The last snapshot of a process ends the client, which sends nothing more. -/
theorem Received.ends {effects : List Effect} (received : Received ch s o o' effects)
    (going : o.phase.isTerminal = false) (last : s.finished = true) :
    o'.phase.isTerminal = true ∧ requestsOf effects = [] := by
  cases received with
  | closed ended => rw [going] at ended; cases ended
  | cancelled _ _ ended => rw [last] at ended; cases ended
  | concluded _ _ conclusion =>
    rw [requestsOf_append, requestsOf_callEffects, List.nil_append]
    cases conclusion with
    | finished => exact ⟨rfl, requestsOf_endEffects ..⟩
    | idleStart ended => rw [last] at ended; cases ended
    | continued ended => rw [last] at ended; cases ended
    | shown ended => rw [last] at ended; cases ended

/-- A cancel that waited is sent instead of letting the clients of children take over. -/
theorem Received.cancels {effects : List Effect} (received : Received ch s o o' effects)
    (going : o.phase.isTerminal = false) (unfinished : s.finished = false) :
    o.offspring s = s.children ∨
      o.offspring s = [] ∧ requestsOf effects = [.continue (Act.outgoing s) .cancel none] := by
  cases received with
  | closed ended => rw [going] at ended; cases ended
  | cancelled _ waits =>
    refine .inr ⟨?_, rfl⟩
    rw [ClientState.offspring, waits, unfinished, Bool.not_false, Bool.and_true, Bool.or_true]
    rfl
  | concluded _ moot =>
    refine .inl ?_
    have waits : o.pendingCancel = false := Bool.eq_false_iff.2 fun h => by
      rw [moot h] at unfinished
      cases unfinished
    rw [ClientState.offspring, going, waits]
    rfl

/-! ## Taking over -/

/-- Clients have taken over the processes inside some snapshots, one for each, and all that they have
left behind to be executed is theirs. -/
structure Hosted (instances : List Instance) (parent : Option Uuid) (ss : List Snapshot)
    (ks : List (Client V)) (effects : List Effect) : Prop where
  mirrored : ∀ k ∈ ks, Mirrored instances parent k
  keys : keysOf (ks.flatMap Client.states) = ss.flatMap Snapshot.ids
  lively : ∀ p ∈ ks.flatMap Client.states, p.phase.isTerminal = false
  senders : ∀ d ∈ dispatchesOf effects, ∃ p ∈ ks.flatMap Client.states, p.id = d.client

omit [ProcessView V] in
theorem Hosted.append {instances : List Instance} {parent : Option Uuid} {ss ts : List Snapshot}
    {ks ls : List (Client V)} {xs ys : List Effect} (first : Hosted instances parent ss ks xs)
    (second : Hosted instances parent ts ls ys) :
    Hosted instances parent (ss ++ ts) (ks ++ ls) (xs ++ ys) := by
  refine ⟨?_, ?_, ?_, ?_⟩
  · intro k hk
    exact (List.mem_append.1 hk).elim (first.mirrored k) (second.mirrored k)
  · rw [List.flatMap_append, keysOf_append, first.keys, second.keys, List.flatMap_append]
  · intro p hp
    rw [List.flatMap_append] at hp
    exact (List.mem_append.1 hp).elim (first.lively p) (second.lively p)
  · intro d hd
    rw [dispatchesOf_append] at hd
    rw [List.flatMap_append]
    rcases List.mem_append.1 hd with hd | hd
    · obtain ⟨p, hp, hid⟩ := first.senders d hd
      exact ⟨p, List.mem_append_left _ hp, hid⟩
    · obtain ⟨p, hp, hid⟩ := second.senders d hd
      exact ⟨p, List.mem_append_right _ hp, hid⟩

/-- What is handed over during a step comes from the client itself, or from those of new children. -/
theorem sender_of_mem {id : ClientId} {before calls spawned after : List Effect}
    (own : ∀ e ∈ before ++ calls ++ after, e.client = id) {d : Dispatch}
    (hd : d ∈ dispatchesOf (before ++ spawned ++ after)) :
    d.client = id ∨ d ∈ dispatchesOf spawned := by
  rw [dispatchesOf_append, dispatchesOf_append] at hd
  rcases List.mem_append.1 hd with hd | hd
  · rcases List.mem_append.1 hd with hd | hd
    · exact .inl (own _ (List.mem_append_left _ (List.mem_append_left _ (mem_of_mem_dispatchesOf hd))))
    · exact .inr hd
  · exact .inl (own _ (List.mem_append_right _ (mem_of_mem_dispatchesOf hd)))

/-- The clients of new children have taken over the processes inside the snapshots, if each by itself
does. -/
theorem hosted_newcomers_of {instances : List Instance} {parent : Option Uuid} {ss : List Snapshot}
    (attach : ∀ s ∈ ss, ∀ (o : ClientState V) (v : V),
      Hosted instances parent [s] [((Act.attach s).run ch (Act.newChild ⟨o, []⟩ v)).client]
        ((Act.attach s).run ch (Act.newChild ⟨o, []⟩ v)).effects) (o : ClientState V) :
    Hosted instances parent ss (newcomers ch o ss) (spawnEffects ch o ss) := by
  induction ss generalizing o with
  | nil =>
    have hnone : newcomers ch o [] = [] := rfl
    rw [hnone, spawnEffects]
    refine ⟨?_, rfl, ?_, ?_⟩
    · intro k hk
      cases hk
    · intro p hp
      cases hp
    · intro d hd
      cases hd
  | cons s rest ih =>
    have first := attach s List.mem_cons_self o (ProcessView.childPanel o.view s)
    generalize ht : (Act.attach s).run ch
      (Act.newChild ⟨o, []⟩ (ProcessView.childPanel o.view s)) = t at first
    have going : t.client.phase.isTerminal = false := first.lively t.client.toClientState
      (List.mem_flatMap.2 ⟨t.client, List.mem_singleton_self _, t.client.mem_states_self⟩)
    have hnew : newcomers ch o [s] = [t.client] := by
      rw [newcomers, births, births, ht]
      simp [going]
    have heffects : Hosted instances parent [s] [t.client] (spawnEffects ch o [s]) := by
      refine ⟨first.mirrored, first.keys, first.lively, fun d hd => first.senders d ?_⟩
      rw [spawnEffects, spawnEffects, ht, List.append_nil, dispatchesOf_append,
        dispatchesOf_callEffects] at hd
      exact hd
    rw [Act.newcomers_cons, Act.spawnEffects_cons, hnew]
    exact heffects.append (ih (fun u hu => attach u (List.mem_cons_of_mem _ hu)) (o.spawned [s]))

/-- A client that is still idle takes over the process of a snapshot, and the clients of its children
those inside it. -/
theorem hosted_attach (h : ch.dispatchOpen = true) (s : Snapshot) :
    ∀ {instances : List Instance} {parent : Option Uuid}, Planted instances parent s →
      ∀ o : ClientState V, o.phase = .idle → o.pendingCancel = false → o.awaitingStart = false →
        Hosted instances parent [s] [((Act.attach s).run ch ⟨o, []⟩).client]
          ((Act.attach s).run ch ⟨o, []⟩).effects := by
  induction s using Snapshot.forall_of_children with
  | h s ih =>
    intro instances parent planted o idle waits answered
    cases planted with
    | @mk _ _ p running agrees hparent children =>
      obtain ⟨o', before, after, received, hrun⟩ :=
        Act.run_receive h s { o with phase := .running } []
      rw [Act.run_attach ch s idle, hrun, Turn.after_mk]
      have unfinished := agrees.unfinished
      have hoffspring : ClientState.offspring { o with phase := .running } s = s.children := by
        rw [ClientState.offspring]
        show (if false || (o.pendingCancel && !s.finished) then [] else s.children) = _
        rw [waits]
        rfl
      rw [hoffspring] at received ⊢
      -- a client that takes over awaits no start, so it goes on to show the snapshot
      rcases received.shows rfl unfinished with ⟨start, -⟩ | ⟨going, t, current, passes⟩
      · rw [show o.awaitingStart = true from start] at answered
        cases answered
      have hosted := @hosted_newcomers_of V _ ch instances (some s.id) s.children
        (fun u hu _ v => ih u hu (children u hu) _ rfl rfl rfl)
        (ClientState.awake { o with phase := .running })
      have hid : t.id = s.id := ((passes p agrees).id).trans agrees.id.symm
      refine ⟨?_, ?_, ?_, ?_⟩
      · intro k hk
        obtain rfl := List.mem_singleton.1 hk
        refine .mk current running (passes p agrees) hparent fun k hk => ?_
        rw [hid]
        exact hosted.mirrored k hk
      · rw [List.flatMap_singleton, List.flatMap_singleton, Client.states_mk, keysOf_cons current,
          s.ids_eq, hid]
        exact congrArg _ hosted.keys
      · intro q hq
        rw [List.flatMap_singleton] at hq
        rcases Client.mem_states_mk.1 hq with rfl | ⟨k, hk, hq⟩
        · exact going
        · exact hosted.lively q (List.mem_flatMap.2 ⟨k, hk, hq⟩)
      · intro d hd
        rw [List.flatMap_singleton]
        rw [dispatchesOf_append, dispatchesOf_emitted, List.nil_append] at hd
        rcases sender_of_mem (fun e he => received.client_of_mem he) hd with hid | hd
        · refine ⟨o', Client.mem_states_mk.2 (.inl rfl), ?_⟩
          rw [hid]
          exact received.named.1
        · obtain ⟨q, hq, hqid⟩ := hosted.senders d hd
          obtain ⟨k, hk, hq⟩ := List.mem_flatMap.1 hq
          exact ⟨q, Client.mem_states_mk.2 (.inr ⟨k, hk, hq⟩), hqid⟩

/-- The clients of new children have taken over the processes inside the snapshots. -/
theorem hosted_newcomers (h : ch.dispatchOpen = true) {instances : List Instance}
    {parent : Option Uuid} {ss : List Snapshot} (planted : ∀ s ∈ ss, Planted instances parent s)
    (o : ClientState V) : Hosted instances parent ss (newcomers ch o ss) (spawnEffects ch o ss) :=
  hosted_newcomers_of (fun s hs _ _ => hosted_attach h s (planted s hs) _ rfl rfl rfl) o

end Stepwise
