/-
# How clients branch

Whoever listens, and whatever is refused on the way: a client keeps its name, its parent and its children,
who stay in their order. Only a response, or taking a process over, adds children. They lie at places that
were never taken, and whoever is added is in the middle of its process.

* `Act.Unhindered` : steps that differ only by a refusal where nobody takes requests;
* `Act.Goes` : steps that lead a client to one that it is related to;
* `Stays`, `Client.Grows` : how the user's actions and the responses change a client;
* `UserAction.stays_act`, `Act.grows_respond` : that they do so;
* `Client.Grows.orderly` : in a tree that grows, whoever is held is in the middle of its process.
-/
import Mathlib.Data.List.Nodup
import Stepwise.Proofs.Client.Tree

namespace Stepwise

variable {V : Type}

/-! ## Requests that nobody takes -/

/-- The same channels, with somebody who takes requests. -/
def Channels.taking (ch : Channels) : Channels := { ch with dispatchOpen := true }

namespace Act

variable {α β : Type}

/-- The step does what it would do if requests were taken, or is refused because they are not. -/
def Unhindered (a : Act V α) : Prop :=
  ∀ ch c, (a.run ch c).result = .error .channelClosed ∨ a.run ch c = a.run ch.taking c

namespace Unhindered

variable {a : Act V α} {f : α → Act V β}

theorem pure (x : α) : Unhindered (Pure.pure x : Act V α) := fun _ _ => .inr rfl

theorem get : Unhindered (Act.get : Act V (Client V)) := fun _ _ => .inr rfl

theorem modify (g : Client V → Client V) : Unhindered (Act.modify g) := fun _ _ => .inr rfl

theorem refuse (e : ClientError) : Unhindered (Act.refuse e : Act V α) := fun _ _ => .inr rfl

theorem emit (e : LifecycleEvent ClientId) : Unhindered (Act.emit e : Act V Unit) :=
  fun _ _ => .inr rfl

theorem hand (r : Request) : Unhindered (Act.hand r : Act V Unit) := fun ch c => by
  rw [run_hand, run_hand]
  cases ch.dispatchOpen with
  | true => exact .inr rfl
  | false => exact .inl rfl

theorem bind (ha : Unhindered a) (hf : ∀ x, Unhindered (f x)) : Unhindered (a >>= f) := fun ch c => by
  rw [run_bind, run_bind]
  rcases ha ch c with refused | same
  · rw [refused]
    exact .inl rfl
  · rw [← same]
    split
    · next x _ =>
      rcases hf x ch (a.run ch c).client with refused | same
      · exact .inl refused
      · exact .inr (by rw [same])
    · exact .inr rfl

theorem ite {p : Prop} [Decidable p] {a b : Act V α} (ha : Unhindered a) (hb : Unhindered b) :
    Unhindered (if p then a else b) := by
  split
  · exact ha
  · exact hb

variable [ProcessView V]

theorem tell (v : ViewCall) : Unhindered (Act.tell v : Act V Unit) := fun _ _ => .inr rfl

theorem send (r : Request) : Unhindered (Act.send r : Act V Outcome) :=
  .bind (.hand r) fun _ => .bind (.modify _) fun _ => .bind (.tell _) fun _ => .pure _

theorem proceed (mode : Mode) (event : Option Interaction) :
    Unhindered (Act.proceed mode event : Act V Outcome) := by
  refine .bind .get fun c => ?_
  cases c.current with
  | none => exact .refuse _
  | some s => exact .bind (.modify _) fun _ => .send _

theorem passOn (mode : Mode) :
    Unhindered (Act.proceed mode none >>= fun _ => Pure.pure () : Act V Unit) :=
  .bind (.proceed mode none) fun _ => .pure ()

theorem render (s : Snapshot) : Unhindered (Act.render s : Act V Unit) := fun ch c => by
  obtain ⟨o, kids⟩ := c
  rw [run_render, run_render]
  exact .inr rfl

omit [ProcessView V] in
theorem emitUpdated : Unhindered (Act.emitUpdated : Act V Unit) := by
  refine .bind .get fun c => ?_
  cases c.current with
  | none => exact .pure ()
  | some s => exact .emit _

theorem finish (s : Snapshot) (previousFinal : Bool) :
    Unhindered (Act.finish s previousFinal : Act V Unit) := fun ch c => by
  obtain ⟨o, kids⟩ := c
  rw [run_finish, run_finish]
  exact .inr rfl

omit [ProcessView V] in
theorem onFinalStep : Unhindered (Act.onFinalStep : Act V Bool) := .bind .get fun _ => .pure _

/-- A refusal in the client of a new child goes up to its parent. -/
theorem spawn (s : Snapshot) {takeOver : Act V Unit} (h : Unhindered takeOver) :
    Unhindered (Act.spawn s takeOver) := by
  refine .bind .get fun before => .bind (.tell _) fun _ => fun ch c => ?_
  rcases h ch (newChild c (ProcessView.childPanel before.view s)) with refused | same
  · refine .inl ?_
    unfold Act.run at refused ⊢
    dsimp only
    rw [refused]
  · refine .inr ?_
    unfold Act.run at same ⊢
    dsimp only
    rw [same]

theorem receiveOpen (s : Snapshot) {spawning : Act V Unit} (h : Unhindered spawning) :
    Unhindered (Act.receiveOpen s spawning) := by
  refine .bind .get fun c => .bind (.modify _) fun _ => .ite ?_ ?_
  · exact .bind (.modify _) fun _ => .passOn _
  · refine .bind (.modify _) fun _ => .bind (.tell _) fun _ => .bind .onFinalStep fun _ =>
      .bind h fun _ => .ite (.finish s _) (.ite (.finish _ _) (.bind (.modify _) fun _ => .ite ?_ ?_))
    · exact .bind (.modify _) fun _ => .passOn _
    · exact .bind (.render s) fun _ => .emitUpdated

omit [ProcessView V] in
theorem takeOver (processName : String) {receive : Act V Unit} (h : Unhindered receive) :
    Unhindered (Act.takeOver processName receive) :=
  .bind .get fun _ => .ite (.refuse _) (.bind (.modify _) fun _ => .bind (.emit _) fun _ => h)

theorem spawnAll {ss : List Snapshot} (h : ∀ s ∈ ss, Unhindered (receive s : Act V Unit)) :
    Unhindered (Act.spawnAll ss : Act V Unit) := by
  induction ss with
  | nil =>
    rw [Act.spawnAll]
    exact .pure ()
  | cons s rest ih =>
    rw [Act.spawnAll]
    exact .bind (.spawn s (.takeOver _ (h s List.mem_cons_self))) fun _ =>
      ih fun t ht => h t (List.mem_cons_of_mem _ ht)

theorem receive (s : Snapshot) : Unhindered (Act.receive s : Act V Unit) := by
  induction s using Snapshot.forall_of_children with
  | h s ih =>
    rw [receive_eq]
    exact .bind .get fun _ => .ite (.pure ()) (.receiveOpen s (.spawnAll ih))

theorem attach (s : Snapshot) : Unhindered (Act.attach s : Act V Unit) := .takeOver _ (.receive s)

theorem failFor (message : String) : Unhindered (Act.failFor message : Act V Unit) :=
  .bind (.modify _) fun _ => .bind (.tell _) fun _ => .bind .get fun _ => .bind (.tell _) fun _ =>
    .emit _

theorem showFieldErrors (entries : List (String × String)) :
    Unhindered (Act.showFieldErrors entries : Act V Unit) := fun ch c => by
  obtain ⟨o, kids⟩ := c
  rw [run_showFieldErrors, run_showFieldErrors]
  exact .inr rfl

theorem recoverCancelling (message : String) (replacement : Option Snapshot) :
    Unhindered (Act.recoverCancelling message replacement : Act V Unit) :=
  .bind (.modify _) fun _ => .bind .get fun _ => .ite (.passOn _)
    (.bind (.modify _) fun _ => .bind (.tell _) fun _ => .tell _)

theorem recover (message : String) (fieldErrors : KeyMap String) (replacement : Option Snapshot) :
    Unhindered (Act.recover message fieldErrors replacement : Act V Unit) := by
  refine .bind (.tell _) fun _ => .bind .get fun c => ?_
  cases replacement with
  | none =>
    refine .ite ?_ ?_
    · exact .bind (.modify _) fun _ => .tell _
    · refine .bind (.modify _) fun _ => .ite ?_ ?_
      · exact .bind (.tell _) fun _ => .showFieldErrors _
      · exact .bind (.pure ()) fun _ => .showFieldErrors _
  | some s =>
    refine .ite ?_ ?_
    · exact .bind .onFinalStep fun _ => .finish s _
    · exact .bind (.modify _) fun _ => .bind (.render s) fun _ => .bind (.tell _) fun _ => .emitUpdated

theorem fail (error : ServiceError) : Unhindered (Act.fail error : Act V Unit) := by
  refine .bind .get fun c => .ite (.pure ()) (.bind (.modify _) fun _ => ?_)
  cases error with
  | unrecoverable message cause => exact .failFor message
  | recoverable message fieldErrors replacement =>
    exact .bind (.modify _) fun _ => .ite (.recoverCancelling _ _) (.recover _ _ _)

theorem respond (result : Except ServiceError Snapshot) :
    Unhindered (Act.respond result : Act V Unit) := by
  cases result with
  | ok s => exact .receive s
  | error e => exact .fail e

end Unhindered

variable [ProcessView V]

/-- A response is refused only if a request is to follow it and nobody takes requests. -/
theorem result_respond (result : Except ServiceError Snapshot) (ch : Channels) (c : Client V) :
    ((respond result).run ch c).result = .ok () ∨
      ((respond result).run ch c).result = .error .channelClosed := by
  rcases Unhindered.respond result ch c with refused | same
  · exact .inr refused
  · left
    rw [same]
    cases result with
    | ok s => exact result_receive rfl s c
    | error e =>
      obtain ⟨o, kids⟩ := c
      obtain ⟨o', effects, -, hrun⟩ := run_fail (show ch.taking.dispatchOpen = true from rfl) e o kids
      rw [respond, hrun]

end Act

/-! ## Steps along a relation -/

namespace Act

variable {α β : Type}

/-- The step leads the client to one that it is related to, whoever listens. -/
def Goes (R : Client V → Client V → Prop) (c : Client V) (a : Act V α) : Prop :=
  ∀ ch, R c (a.run ch c).client

namespace Goes

variable {R S : Client V → Client V → Prop} {c : Client V} {a : Act V α} {f : α → Act V β}

theorem mono (h : Goes R c a) (hR : ∀ c', R c c' → S c c') : Goes S c a := fun ch => hR _ (h ch)

theorem modify {g : Client V → Client V} (h : R c (g c)) : Goes R c (Act.modify g) := fun _ => h

/-- What follows knows the client. -/
theorem get {f : Client V → Act V β} (h : Goes R c (f c)) : Goes R c (Act.get >>= f) := fun ch => by
  rw [run_bind_get]
  exact h ch

theorem ite {p : Prop} [Decidable p] {a b : Act V α} (ha : p → Goes R c a) (hb : ¬ p → Goes R c b) :
    Goes R c (if p then a else b) := by
  split
  · next h => exact ha h
  · next h => exact hb h

theorem tell [ProcessView V] (h : ∀ view, R c { c with view }) (v : ViewCall) :
    Goes R c (Act.tell v : Act V Unit) := fun _ => h _

variable [IsPreorder (Client V) R]

theorem pure (x : α) : Goes R c (Pure.pure x : Act V α) := fun _ => Std.Refl.refl c

theorem refuse (e : ClientError) : Goes R c (Act.refuse e : Act V α) := fun _ => Std.Refl.refl c

theorem emit (e : LifecycleEvent ClientId) : Goes R c (Act.emit e : Act V Unit) :=
  fun _ => Std.Refl.refl c

theorem hand (r : Request) : Goes R c (Act.hand r : Act V Unit) := fun ch => by
  rw [run_hand]
  split
  · exact Std.Refl.refl c
  · exact Std.Refl.refl c

theorem bind (ha : Goes R c a) (hf : ∀ x c', Goes R c' (f x)) : Goes R c (a >>= f) := fun ch => by
  rw [run_bind]
  split
  · exact IsTrans.trans _ _ _ (ha ch) (hf _ _ ch)
  · exact ha ch

end Goes

end Act

/-! ## Actions of the user -/

/-- The process has begun, and a snapshot has come. -/
def ClientState.Begun (o : ClientState V) : Prop := o.phase ≠ .idle ∧ o.current.isSome = true

/-- The process has begun and is not over. -/
structure ClientState.Living (o : ClientState V) : Prop where
  going : o.phase.isTerminal = false
  begun : o.Begun

/-- The client stays where it is and holds whom it held, and its process neither ends nor begins anew. -/
structure Stays (c c' : Client V) : Prop where
  named : c'.id = c.id
  linked : c'.parent = c.parent
  opened : c'.opened = c.opened
  children : c'.children = c.children
  ended : c'.phase.isTerminal = c.phase.isTerminal
  begun : c.Begun → c'.Begun

instance : IsPreorder (Client V) Stays where
  refl _ := ⟨rfl, rfl, rfl, rfl, rfl, id⟩
  trans _ _ _ h h' :=
    ⟨h'.named.trans h.named, h'.linked.trans h.linked, h'.opened.trans h.opened,
      h'.children.trans h.children, h'.ended.trans h.ended, h'.begun ∘ h.begun⟩

section Actions

open Act

variable {c : Client V}

theorem stays_ensureOpen : Goes Stays c (ensureOpen : Act V Unit) :=
  .get (.ite (fun _ => .refuse _) fun _ => .pure ())

theorem stays_ensureInteracting (operation : Operation) :
    Goes Stays c (ensureInteracting operation : Act V Unit) :=
  .get (.ite (fun _ => .refuse _) fun _ => .pure ())

theorem stays_navigate (operation : Operation) {step : Act V Outcome}
    (h : ∀ c, Goes Stays c step) : Goes Stays c (navigate operation step) :=
  .bind stays_ensureOpen fun _ _ => .get (.ite (fun _ => .pure _) fun _ =>
    .bind (stays_ensureInteracting operation) fun _ _ => .ite (fun _ => .pure _) fun _ => h _)

theorem stays_recordEdit (name : String) (value : Value) :
    Goes Stays c (recordEdit name value : Act V Outcome) := by
  refine .bind stays_ensureOpen fun _ c => .get (.ite (fun _ => .pure _) fun _ =>
    .bind (stays_ensureInteracting _) fun _ _ => ?_)
  cases c.current.bind (·.edit? name value) with
  | none => exact .refuse _
  | some s =>
    exact .bind (.modify ⟨rfl, rfl, rfl, rfl, rfl, fun h => ⟨h.1, rfl⟩⟩) fun _ _ => .pure _

theorem stays_recordEdits (edits : List (String × Value)) :
    ∀ c, Goes Stays c (recordEdits edits : Act V Unit) := by
  induction edits with
  | nil => exact fun _ => .pure ()
  | cons e rest ih => exact fun _ => .bind (stays_recordEdit e.1 e.2) fun _ => ih

variable [ProcessView V]

theorem stays_tell (v : ViewCall) : Goes Stays c (tell v : Act V Unit) :=
  .tell (fun _ => ⟨rfl, rfl, rfl, rfl, rfl, id⟩) v

theorem stays_send (r : Request) : Goes Stays c (send r : Act V Outcome) := by
  refine .bind (.hand r) fun _ c => .bind (.modify ⟨rfl, rfl, rfl, rfl, ?_, fun h => ⟨?_, h.2⟩⟩)
    fun _ _ => .bind (stays_tell _) fun _ _ => .pure _
  · exact ClientState.isTerminal_sent c.toClientState
  · show (if c.phase = .interacting then Phase.running else c.phase) ≠ .idle
    split
    · decide
    · exact h.1

theorem stays_proceed (mode : Mode) (event : Option Interaction) :
    Goes Stays c (proceed mode event : Act V Outcome) := by
  refine .get ?_
  cases c.current with
  | none => exact .refuse _
  | some s =>
    exact .bind (.modify ⟨rfl, rfl, rfl, rfl, rfl, fun h => ⟨h.1, rfl⟩⟩) fun _ _ => stays_send _

theorem stays_start (d : Descriptor) : Goes Stays c (start d : Act V Outcome) := by
  refine .get (.ite (fun _ => .refuse _) fun idle => ?_)
  rw [ne_eq, Decidable.not_not] at idle
  refine .bind (.modify ⟨rfl, rfl, rfl, rfl, ?_, fun h => absurd idle h.1⟩) fun _ _ =>
    .bind (.emit _) fun _ _ => .bind (stays_send _) fun _ _ =>
      .bind (.modify ⟨rfl, rfl, rfl, rfl, rfl, id⟩) fun _ _ => .pure _
  rw [idle]
  rfl

theorem stays_submit (edits : List (String × Value)) (event : Interaction) :
    Goes Stays c (submit edits event : Act V Outcome) := by
  refine stays_navigate _ fun c => .get ?_
  cases edits.find? fun e => c.current.any fun s => (s.parameter? e.1).isNone with
  | some e => exact .refuse _
  | none => exact .bind (stays_recordEdits edits c) fun _ _ => stays_proceed _ _

theorem stays_advance : Goes Stays c (advance : Act V Outcome) :=
  stays_navigate _ fun _ => .get (.ite (fun _ => stays_proceed _ _) fun _ => .pure _)

theorem stays_rollback : Goes Stays c (rollback : Act V Outcome) :=
  stays_navigate _ fun _ => .get (.ite (fun _ => stays_proceed _ _) fun _ => .pure _)

theorem stays_reload : Goes Stays c (reload : Act V Outcome) :=
  stays_navigate _ fun _ => stays_proceed _ _

theorem stays_askToCancel (processName : String) :
    Goes Stays c (askToCancel processName : Act V Outcome) :=
  .bind (.modify ⟨rfl, rfl, rfl, rfl, rfl, id⟩) fun _ _ => .bind (stays_tell _) fun _ _ => .pure _

theorem stays_cancel : Goes Stays c (cancel : Act V Outcome) := by
  refine .bind stays_ensureOpen fun _ c => .get (.ite (fun _ => .pure _) fun _ =>
    .ite (fun _ => .refuse _) fun _ => .ite
      (fun _ => .bind (.modify ⟨rfl, rfl, rfl, rfl, rfl, id⟩) fun _ _ => .pure _)
      fun _ => .ite (fun _ => .pure _) fun _ => ?_)
  cases c.current with
  | none => exact .refuse _
  | some s => exact .ite (fun _ => stays_proceed _ _) fun _ => stays_askToCancel _

theorem stays_resume : Goes Stays c (resume : Act V Outcome) :=
  .bind (.modify ⟨rfl, rfl, rfl, rfl, rfl, id⟩) fun _ _ =>
    .get (.ite (fun _ => stays_proceed _ _) fun _ => .pure _)

theorem stays_answer (accepted : Bool) : Goes Stays c (answer accepted : Act V Outcome) :=
  .get (.ite (fun _ => .refuse _) fun _ => .bind (.modify ⟨rfl, rfl, rfl, rfl, rfl, id⟩) fun _ _ =>
    .bind stays_ensureOpen fun _ _ => .ite
      (fun _ => .ite (fun _ => .bind (.modify ⟨rfl, rfl, rfl, rfl, rfl, id⟩) fun _ _ => .pure _)
        fun _ => stays_proceed _ _)
      fun _ => .ite (fun _ => stays_resume) fun _ => .pure _)

/-- Whatever its user does, a client stays where it is and holds whom it held, unless it takes over a
process. -/
theorem UserAction.stays_act (a : UserAction) (begun : c.phase ≠ .idle ∨ ∀ s, a ≠ .attach s) :
    Goes Stays c a.act := by
  cases a with
  | start d => exact .bind (stays_start d) fun _ _ => .pure _
  | attach s =>
    rcases begun with begun | other
    · intro ch
      refine Eq.subst (motive := fun t : Turn V _ => Stays c t.client)
        (run_bind_of_error (run_attach_of_not_idle ch s begun) _).symm ?_
      exact Std.Refl.refl c
    · exact absurd rfl (other s)
  | edit name value => exact .bind (stays_recordEdit name value) fun _ _ => .pure _
  | submit edits event => exact .bind (stays_submit edits event) fun _ _ => .pure _
  | advance => exact .bind stays_advance fun _ _ => .pure _
  | rollback => exact .bind stays_rollback fun _ _ => .pure _
  | reload => exact .bind stays_reload fun _ _ => .pure _
  | cancel => exact .bind stays_cancel fun _ _ => .pure _
  | answer accepted => exact .bind (stays_answer accepted) fun _ _ => .pure _
  | pause => exact .bind (.modify ⟨rfl, rfl, rfl, rfl, rfl, id⟩) fun _ _ => .pure _
  | resume => exact .bind stays_resume fun _ _ => .pure _

end Actions

/-! ## Trees that grow -/

namespace Client

/-- Everybody lies where its name says, and whoever is held by another client is in the middle of its
process. -/
structure Orderly (c : Client V) : Prop where
  placed : c.WellPlaced
  alive : ∀ p ∈ c.states, p.id ≠ c.id → p.Living

theorem Orderly.living_of_mem {c : Client V} (orderly : c.Orderly) (living : c.Living)
    {p : ClientState V} (hp : p ∈ c.states) : p.Living := by
  by_cases hid : p.id = c.id
  · rw [orderly.placed.state_eq_of_id hp c.mem_states_self hid]
    exact living
  · exact orderly.alive p hp hid

/-- New children of a client, with numbers from one bound to another. -/
structure Litter (id : ClientId) (low high : Nat) (young : List (Client V)) : Prop where
  bounds : low ≤ high
  numbered : ∀ k ∈ young, ∃ n, low ≤ n ∧ n < high ∧ k.id = id.child n
  distinct : (young.map (·.id)).Nodup
  linked : ∀ k ∈ young, k.parent = some id
  orderly : ∀ k ∈ young, k.Orderly
  alive : ∀ k ∈ young, k.Living

theorem Litter.none (id : ClientId) {low high : Nat} (bounds : low ≤ high) :
    Litter id low high ([] : List (Client V)) :=
  ⟨bounds, nofun, List.nodup_nil, nofun, nofun, nofun⟩

theorem Litter.append {id : ClientId} {low mid high : Nat} {older younger : List (Client V)}
    (h : Litter id low mid older) (h' : Litter id mid high younger) :
    Litter id low high (older ++ younger) := by
  refine ⟨Nat.le_trans h.bounds h'.bounds, fun k hk => ?_, ?_, fun k hk => ?_, fun k hk => ?_, fun k hk => ?_⟩
  · rcases List.mem_append.1 hk with hk | hk
    · obtain ⟨n, hlow, hn, hid⟩ := h.numbered k hk
      exact ⟨n, hlow, Nat.lt_of_lt_of_le hn h'.bounds, hid⟩
    · obtain ⟨n, hn, hhigh, hid⟩ := h'.numbered k hk
      exact ⟨n, Nat.le_trans h.bounds hn, hhigh, hid⟩
  · rw [List.map_append, List.nodup_append]
    refine ⟨h.distinct, h'.distinct, fun a ha b hb heq => ?_⟩
    obtain ⟨k, hk, rfl⟩ := List.mem_map.1 ha
    obtain ⟨l, hl, rfl⟩ := List.mem_map.1 hb
    obtain ⟨m, -, hm, hkm⟩ := h.numbered k hk
    obtain ⟨n, hn, -, hln⟩ := h'.numbered l hl
    have := id.child_injective (hkm.symm.trans (heq.trans hln))
    omega
  · exact (List.mem_append.1 hk).elim (h.linked k) (h'.linked k)
  · exact (List.mem_append.1 hk).elim (h.orderly k) (h'.orderly k)
  · exact (List.mem_append.1 hk).elim (h.alive k) (h'.alive k)

/-- The client stays where it is, and children are added to those whom it holds. -/
structure Grows (c c' : Client V) : Prop where
  named : c'.id = c.id
  linked : c'.parent = c.parent
  born : ∃ young, c'.children = c.children ++ young ∧ Litter c.id c.opened c'.opened young
  begun : c.Begun → c'.Begun

/-- A client that changes only itself grows. -/
theorem Grows.own {c : Client V} {o : ClientState V} (named : o.id = c.id)
    (linked : o.parent = c.parent) (opened : o.opened = c.opened) (begun : c.Begun → o.Begun) :
    Grows c ⟨o, c.children⟩ :=
  ⟨named, linked, ⟨[], (List.append_nil _).symm, .none _ (Nat.le_of_eq opened.symm)⟩, begun⟩

theorem Grows.of_stays {c c' : Client V} (stays : Stays c c') : Grows c c' := by
  obtain ⟨o', kids⟩ := c'
  obtain rfl : kids = c.children := stays.children
  exact .own stays.named stays.linked stays.opened stays.begun

instance : IsPreorder (Client V) Grows where
  refl _ := ⟨rfl, rfl, ⟨[], (List.append_nil _).symm, .none _ (Nat.le_refl _)⟩, id⟩
  trans := by
    intro c c' c'' h h'
    obtain ⟨older, hc', litter⟩ := h.born
    obtain ⟨younger, hc'', litter'⟩ := h'.born
    rw [h.named] at litter'
    refine ⟨h'.named.trans h.named, h'.linked.trans h.linked,
      ⟨older ++ younger, ?_, litter.append litter'⟩, h'.begun ∘ h.begun⟩
    rw [hc'', hc', List.append_assoc]

/-- A tree that grows stays orderly. -/
theorem Grows.orderly {c c' : Client V} (grows : Grows c c') (orderly : c.Orderly) : c'.Orderly := by
  obtain ⟨o, kids⟩ := c
  obtain ⟨o', kids'⟩ := c'
  obtain ⟨young, rfl, litter⟩ := grows.born
  have hid : o'.id = o.id := grows.named
  obtain ⟨top, below⟩ := wellPlaced_mk.1 orderly.placed
  have old : ∀ k ∈ kids, ∃ n < o.opened, k.id = o.id.child n := top.numbered
  refine ⟨wellPlaced_mk.2 ⟨⟨?_, fun k hk => ?_, fun k hk => ?_⟩, fun k hk => ?_⟩, fun p hp hne => ?_⟩
  · rw [List.map_append, List.nodup_append]
    refine ⟨top.distinct, litter.distinct, fun a ha b hb heq => ?_⟩
    obtain ⟨k, hk, rfl⟩ := List.mem_map.1 ha
    obtain ⟨l, hl, rfl⟩ := List.mem_map.1 hb
    obtain ⟨m, hm, hkm⟩ := old k hk
    obtain ⟨n, hn, -, hln⟩ := litter.numbered l hl
    have same : m = n := o.id.child_injective (hkm.symm.trans (heq.trans hln))
    have hn' : o.opened ≤ n := hn
    omega
  · show ∃ n < o'.opened, k.id = o'.id.child n
    rw [hid]
    rcases List.mem_append.1 hk with hk | hk
    · obtain ⟨n, hn, hkn⟩ := old k hk
      exact ⟨n, Nat.lt_of_lt_of_le hn litter.bounds, hkn⟩
    · obtain ⟨n, -, hn, hkn⟩ := litter.numbered k hk
      exact ⟨n, hn, hkn⟩
  · show k.parent = some o'.id
    rw [hid]
    exact (List.mem_append.1 hk).elim (top.linked k) (litter.linked k)
  · exact (List.mem_append.1 hk).elim (below k) fun hk => (litter.orderly k hk).placed
  · rcases mem_states_mk.1 hp with rfl | ⟨k, hk, hp⟩
    · exact absurd rfl hne
    · rcases List.mem_append.1 hk with hk | hk
      · exact orderly.alive p (mem_states_mk.2 (.inr ⟨k, hk, hp⟩)) fun heq => hne (heq.trans hid.symm)
      · exact (litter.orderly k hk).living_of_mem (litter.alive k hk) hp

/-- A client without children is orderly. -/
theorem orderly_leaf (o : ClientState V) : Orderly ⟨o, []⟩ := by
  refine ⟨wellPlaced_leaf o, fun p hp hne => ?_⟩
  rcases mem_states_mk.1 hp with rfl | ⟨k, hk, -⟩
  · exact absurd rfl hne
  · cases hk

end Client

/-! ## Responses -/

section Responses

open Act Client

variable [ProcessView V] {c : Client V}

/-- Unless it ends, a process that has begun has a snapshot once one has come. -/
theorem Received.begun {ch : Channels} {s : Snapshot} {o o' : ClientState V} {effects : List Effect}
    (received : Received ch s o o' effects) (begun : o.phase ≠ .idle)
    (going : o'.phase.isTerminal = false) : o'.Begun := by
  cases received with
  | closed ended => rw [ended] at going; cases going
  | cancelled =>
    refine ⟨?_, rfl⟩
    show (if o.phase = .interacting then Phase.running else o.phase) ≠ .idle
    split
    · decide
    · exact begun
  | concluded _ _ conclusion =>
    cases conclusion with
    | finished | idleStart => cases going
    | continued => exact ⟨nofun, rfl⟩
    | shown => exact ⟨nofun, rfl⟩

/-- Whoever has taken over a process that goes on is in the middle of it. -/
theorem living_attach (ch : Channels) (s : Snapshot) {o : ClientState V} (idle : o.phase = .idle)
    (hok : ((attach s).run ch ⟨o, []⟩).result = .ok ())
    (going : ((attach s).run ch ⟨o, []⟩).client.phase.isTerminal = false) :
    ((attach s).run ch ⟨o, []⟩).client.Living := by
  rcases Unhindered.attach s ch ⟨o, []⟩ with refused | same
  · rw [hok] at refused
    cases refused
  · obtain ⟨o', before, after, received, hrun⟩ :=
      run_receive (show ch.taking.dispatchOpen = true from rfl) s { o with phase := .running } []
    rw [same, run_attach ch.taking s idle, hrun] at going ⊢
    exact ⟨going, received.begun nofun going⟩

theorem grows_tell (v : ViewCall) : Goes Grows c (tell v : Act V Unit) :=
  .tell (fun _ => .own rfl rfl rfl id) v

theorem grows_passOn (mode : Mode) :
    Goes Grows c (proceed mode none >>= fun _ => Pure.pure () : Act V Unit) :=
  .bind ((stays_proceed mode none).mono fun _ => .of_stays) fun _ _ => .pure ()

theorem grows_render (s : Snapshot) : Goes Grows c (render s : Act V Unit) := fun ch => by
  obtain ⟨o, kids⟩ := c
  rw [run_render]
  exact .own rfl rfl rfl fun h => ⟨h.1, rfl⟩

omit [ProcessView V] in
theorem grows_emitUpdated : Goes Grows c (emitUpdated : Act V Unit) := by
  refine .get ?_
  cases c.current with
  | none => exact .pure ()
  | some s => exact .emit _

theorem grows_finish (s : Snapshot) (previousFinal : Bool) :
    Goes Grows c (finish s previousFinal : Act V Unit) := fun ch => by
  obtain ⟨o, kids⟩ := c
  rw [run_finish]
  exact .own rfl rfl rfl fun _ => ⟨nofun, rfl⟩

omit [ProcessView V] in
theorem grows_onFinalStep : Goes Grows c (onFinalStep : Act V Bool) := .get (.pure _)

/-- The client of a new child is added at a new place if its process goes on. -/
theorem grows_spawn {s : Snapshot} (h : ∀ c : Client V, Goes Grows c (attach s)) :
    Goes Grows c (spawn s (takeOver s.processName (receive s)) : Act V Unit) := by
  refine .get (.bind (grows_tell _) fun _ c' => fun ch => ?_)
  have grows := h (newChild c' (ProcessView.childPanel c.view s)) ch
  have living := living_attach ch s
    (show (newChild c' (ProcessView.childPanel c.view s)).toClientState.phase = .idle from rfl)
  have orderly := grows.orderly (orderly_leaf _)
  unfold attach Act.run at living
  unfold attach Act.run at grows orderly
  unfold Act.run
  dsimp only
  split
  · exact ⟨rfl, rfl, ⟨[], (List.append_nil _).symm, .none _ (Nat.le_succ _)⟩, id⟩
  · next hok =>
    refine ⟨rfl, rfl, ?_, id⟩
    dsimp only
    split
    · exact ⟨[], (List.append_nil _).symm, .none _ (Nat.le_succ _)⟩
    · next going =>
      refine ⟨_, rfl, Nat.le_succ _, fun k hk => ?_, List.nodup_singleton _, fun k hk => ?_,
        fun k hk => ?_, fun k hk => ?_⟩
      · rw [List.mem_singleton.1 hk]
        exact ⟨c'.opened, Nat.le_refl _, Nat.lt_succ_self _, grows.named⟩
      · rw [List.mem_singleton.1 hk]
        exact grows.linked
      · rw [List.mem_singleton.1 hk]
        exact orderly
      · rw [List.mem_singleton.1 hk]
        exact living hok (Bool.eq_false_iff.2 going)

theorem grows_spawnAll {ss : List Snapshot}
    (h : ∀ s ∈ ss, ∀ c : Client V, Goes Grows c (attach s)) :
    ∀ c, Goes Grows c (spawnAll ss : Act V Unit) := by
  induction ss with
  | nil =>
    intro c
    rw [spawnAll]
    exact .pure ()
  | cons s rest ih =>
    intro c
    rw [spawnAll]
    exact .bind (grows_spawn (h s List.mem_cons_self)) fun _ =>
      ih fun t ht => h t (List.mem_cons_of_mem _ ht)

theorem grows_receiveOpen (s : Snapshot) {spawning : Act V Unit} (h : ∀ c, Goes Grows c spawning) :
    Goes Grows c (receiveOpen s spawning) := by
  refine .get (.bind (.modify (.own rfl rfl rfl id)) fun _ _ => .ite (fun _ => ?_) fun _ => ?_)
  · exact .bind (.modify (.own rfl rfl rfl fun h => ⟨h.1, rfl⟩)) fun _ _ => grows_passOn _
  · refine .bind (.modify (.own rfl rfl rfl id)) fun _ _ => .bind (grows_tell _) fun _ _ =>
      .bind grows_onFinalStep fun _ _ => .bind (h _) fun _ _ => .ite (fun _ => grows_finish s _)
        fun _ => .ite (fun _ => grows_finish _ _) fun _ =>
          .bind (.modify (.own rfl rfl rfl fun h => ⟨nofun, h.2⟩)) fun _ _ =>
            .ite (fun _ => ?_) fun _ => ?_
    · exact .bind (.modify (.own rfl rfl rfl fun h => ⟨h.1, rfl⟩)) fun _ _ => grows_passOn _
    · exact .bind (grows_render s) fun _ _ => grows_emitUpdated

omit [ProcessView V] in
theorem grows_takeOver (processName : String) {receive : Act V Unit}
    (h : ∀ c, Goes Grows c receive) : Goes Grows c (takeOver processName receive) :=
  .get (.ite (fun _ => .refuse _) fun _ =>
    .bind (.modify (.own rfl rfl rfl fun h => ⟨nofun, h.2⟩)) fun _ _ =>
      .bind (.emit _) fun _ c => h c)

theorem grows_receive (s : Snapshot) : ∀ c, Goes Grows c (receive s : Act V Unit) := by
  induction s using Snapshot.forall_of_children with
  | h s ih =>
    intro c
    rw [receive_eq]
    exact .get (.ite (fun _ => .pure ()) fun _ => grows_receiveOpen s (grows_spawnAll fun t ht _ =>
      grows_takeOver _ (ih t ht)))

theorem grows_attach (s : Snapshot) : Goes Grows c (attach s : Act V Unit) :=
  grows_takeOver _ (grows_receive s)

theorem grows_failFor (message : String) : Goes Grows c (failFor message : Act V Unit) :=
  .bind (.modify (.own rfl rfl rfl fun h => ⟨nofun, h.2⟩)) fun _ _ => .bind (grows_tell _) fun _ _ =>
    .get (.bind (grows_tell _) fun _ _ => .emit _)

theorem grows_showFieldErrors (entries : List (String × String)) :
    Goes Grows c (showFieldErrors entries : Act V Unit) := fun ch => by
  obtain ⟨o, kids⟩ := c
  rw [run_showFieldErrors]
  exact .own rfl rfl rfl id

theorem grows_recoverCancelling (message : String) (replacement : Option Snapshot) :
    Goes Grows c (recoverCancelling message replacement : Act V Unit) := by
  refine .bind (.modify (.own rfl rfl rfl fun h => ⟨h.1, ?_⟩)) fun _ c => .get (.ite
    (fun _ => grows_passOn _) fun none => ?_)
  · cases replacement with
    | none => exact h.2
    | some s => rfl
  · exact .bind (.modify (.own rfl rfl rfl fun h => absurd h.2 none)) fun _ _ =>
      .bind (grows_tell _) fun _ _ => grows_tell _

theorem grows_recover (message : String) (fieldErrors : KeyMap String)
    (replacement : Option Snapshot) :
    Goes Grows c (recover message fieldErrors replacement : Act V Unit) := by
  have shows {c : Client V} : Grows c { c with phase := .interacting } :=
    .own rfl rfl rfl fun h => ⟨nofun, h.2⟩
  refine .bind (grows_tell _) fun _ c => .get ?_
  cases replacement with
  | none =>
    refine .ite (fun none => ?_) fun _ => ?_
    · rw [Option.isNone_iff_eq_none] at none
      have nothing : ¬ c.Begun := fun h => by simpa [none] using h.2
      exact .bind (.modify (.own rfl rfl rfl fun h => absurd h nothing)) fun _ _ => grows_tell _
    · refine .bind (.modify shows) fun _ _ => .ite (fun _ => ?_) fun _ => ?_
      · exact .bind (grows_tell _) fun _ _ => grows_showFieldErrors _
      · exact .bind (.pure ()) fun _ _ => grows_showFieldErrors _
  | some s =>
    refine .ite (fun _ => ?_) fun _ => ?_
    · exact .bind grows_onFinalStep fun _ _ => grows_finish s _
    · exact .bind (.modify shows) fun _ _ => .bind (grows_render s) fun _ _ =>
        .bind (grows_tell _) fun _ _ => grows_emitUpdated

theorem grows_fail (error : ServiceError) : Goes Grows c (fail error : Act V Unit) := by
  refine .get (.ite (fun _ => .pure ()) fun _ => .bind (.modify (.own rfl rfl rfl id)) fun _ _ => ?_)
  cases error with
  | unrecoverable message cause => exact grows_failFor message
  | recoverable message fieldErrors replacement =>
    exact .bind (.modify (.own rfl rfl rfl id)) fun _ _ =>
      .ite (fun _ => grows_recoverCancelling _ _) fun _ => grows_recover _ _ _

/-- A response lets a client grow. -/
theorem Act.grows_respond (result : Except ServiceError Snapshot) :
    Goes Grows c (respond result : Act V Unit) := by
  cases result with
  | ok s => exact grows_receive s c
  | error e => exact grows_fail e

/-- So does whatever its user does. -/
theorem UserAction.grows_act (a : UserAction) : Goes Grows c a.act := by
  by_cases attaches : ∃ s, a = .attach s
  · obtain ⟨s, rfl⟩ := attaches
    exact .bind (grows_attach s) fun _ _ => .pure _
  · exact (a.stays_act (.inr fun s hs => attaches ⟨s, hs⟩)).mono fun _ => .of_stays

end Responses

end Stepwise
