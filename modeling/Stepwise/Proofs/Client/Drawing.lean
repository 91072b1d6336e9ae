/-
# Updating in place is as good as building anew

A client builds its panel anew only if the layout has changed or a field is not found; otherwise it
updates the fields one by one. Nobody can tell from the panel which of the two has happened: whenever a
client tells that a snapshot is shown, the panel has exactly the step and the fields that it would have
if it had just been built for that snapshot. This holds whoever listens, whatever is refused or rejected
on the way, and whatever updates of fields get lost on the way to the panel.

* `Spared`, `Displayed` : how a step leaves what is shown, and how it shows a snapshot at its end;
* `Act.Spares`, `Act.Displays` : parts of a step, from the first to the last;
* `Stimulus.displays_act` : a step shows at most one snapshot, and nothing of its own comes after it;
* `ClientState.Faithful` : the panel shows the layout that the client remembers;
* `updates_equal_rebuild` : what the panel shows when a client tells that a snapshot is shown.
-/
import Stepwise.Client.Operation
import Stepwise.Proofs.Client.History
import Stepwise.Proofs.View.Veil

namespace Stepwise

variable {V : Type} [ProcessView V]

/-! ## What a step shows -/

/-- The panel is called but not built, and nobody is told that a snapshot is shown. All that is left
behind is of the client and of clients below it. -/
structure Spared (o o' : ClientState V) (effects : List Effect) : Prop where
  named : o'.id = o.id
  rendered : o'.rendered = o.rendered
  called : ∃ calls, (∀ s, .render s ∉ calls) ∧ o'.view = performAll o.view calls
  silent : ∀ e ∈ effects, o.id.Within e.client ∧ ∀ s, e ≠ .event (.updated o.id s)

/-- The client after it has shown a snapshot with some messages. -/
def ClientState.displayed (o : ClientState V) (s : Snapshot) (texts : List String) : ClientState V :=
  { o with rendered := some (Layout.ofSnapshot s), current := some s
           view := performAll o.view (drawCalls o.view o.rendered s ++ texts.map .showMessage) }

/-- What showing a snapshot with some messages leaves behind. -/
def ClientState.displayEffects (ch : Channels) (o : ClientState V) (s : Snapshot)
    (texts : List String) : List Effect :=
  callEffects o.id o.view (drawCalls o.view o.rendered s ++ texts.map .showMessage) ++
    emitted ch (.updated o.id s)

/-- Nothing is shown, or a snapshot is shown after everything else that the client does. -/
inductive Displayed (ch : Channels) (o : ClientState V) : ClientState V → List Effect → Prop where
  | spared {o' : ClientState V} {effects : List Effect} (h : Spared o o' effects) :
    Displayed ch o o' effects
  | shown {mid : ClientState V} {before : List Effect} (h : Spared o mid before) (s : Snapshot)
      (texts : List String) :
    Displayed ch o (mid.displayed s texts) (before ++ mid.displayEffects ch s texts)

section Shown

variable {ch : Channels} {o mid o' : ClientState V} {xs ys : List Effect}

theorem Spared.refl (o : ClientState V) : Spared o o [] :=
  ⟨rfl, rfl, ⟨[], nofun, rfl⟩, nofun⟩

theorem Spared.trans (h : Spared o mid xs) (h' : Spared mid o' ys) : Spared o o' (xs ++ ys) := by
  obtain ⟨calls, hcalls, hview⟩ := h.called
  obtain ⟨calls', hcalls', hview'⟩ := h'.called
  refine ⟨h'.named.trans h.named, h'.rendered.trans h.rendered,
    ⟨calls ++ calls', fun s hs => ?_, ?_⟩, fun e he => ?_⟩
  · exact (List.mem_append.1 hs).elim (hcalls s) (hcalls' s)
  · rw [hview', hview, performAll_append]
  · rcases List.mem_append.1 he with he | he
    · exact h.silent e he
    · rw [← h.named]
      exact h'.silent e he

theorem Spared.displayed (h : Spared o mid xs) (h' : Displayed ch mid o' ys) :
    Displayed ch o o' (xs ++ ys) := by
  cases h' with
  | spared h' => exact .spared (h.trans h')
  | shown h' s texts =>
    rw [← List.append_assoc]
    exact .shown (h.trans h') s texts

/-- Showing a snapshot leaves traces of its client only. -/
theorem client_of_mem_displayEffects {s : Snapshot} {texts : List String} {e : Effect}
    (he : e ∈ o.displayEffects ch s texts) : e.client = o.id := by
  rcases List.mem_append.1 he with he | he
  · exact client_of_mem_callEffects he
  · exact client_of_mem_emitted he

/-- All that is left behind is of the client and of clients below it. -/
theorem Displayed.within (h : Displayed ch o o' xs) : ∀ e ∈ xs, o.id.Within e.client := by
  intro e he
  cases h with
  | spared h => exact (h.silent e he).1
  | shown h =>
    rcases List.mem_append.1 he with he | he
    · exact (h.silent e he).1
    · rw [client_of_mem_displayEffects he, h.named]
      exact .refl _

/-- If a client tells that a snapshot is shown, it has just shown that one, and nothing of its own comes
after that. -/
theorem Displayed.of_updated (h : Displayed ch o o' xs) {s : Snapshot}
    (hmem : .event (.updated o.id s) ∈ xs) :
    ∃ before mid texts, Spared o mid before ∧ o' = mid.displayed s texts ∧
      ∃ earlier, about o.id xs = earlier ++ [.event (.updated o.id s)] := by
  cases h with
  | spared h => exact absurd rfl ((h.silent _ hmem).2 s)
  | @shown mid before h t texts =>
    rcases List.mem_append.1 hmem with hmem | hmem
    · exact absurd rfl ((h.silent _ hmem).2 s)
    have own : about o.id (mid.displayEffects ch t texts) = mid.displayEffects ch t texts :=
      about_eq_self fun e he => (client_of_mem_displayEffects he).trans h.named
    rw [about_append, own]
    rcases List.mem_append.1 hmem with hmem | hmem
    · obtain ⟨call, -, found, hcall⟩ := mem_callEffects hmem
      cases hcall
    · obtain ⟨-, rfl⟩ := LifecycleEvent.updated.inj (Effect.event.inj (mem_emitted hmem))
      have heard : emitted ch (.updated mid.id s) = [.event (.updated o.id s)] := by
        unfold emitted at hmem ⊢
        split at hmem
        · next heard => rw [if_pos heard, h.named]
        · cases hmem
      rw [ClientState.displayEffects, heard, ← List.append_assoc]
      exact ⟨before, mid, texts, h, rfl, _, rfl⟩

end Shown

/-! ## Parts of a step -/

namespace Act

variable {α β : Type} {id : ClientId}

/-- The step of a client with some name spares what is shown. -/
def Spares (id : ClientId) (a : Act V α) : Prop :=
  ∀ ch (c : Client V), c.id = id →
    Spared c.toClientState (a.run ch c).client.toClientState (a.run ch c).effects

/-- The step of a client with some name spares what is shown, or shows a snapshot at its end. -/
def Displays (id : ClientId) (a : Act V α) : Prop :=
  ∀ ch (c : Client V), c.id = id →
    Displayed ch c.toClientState (a.run ch c).client.toClientState (a.run ch c).effects

section Calculus

variable {a : Act V α} {f : α → Act V β}

theorem Spares.pure (x : α) : Spares id (Pure.pure x : Act V α) := fun _ _ _ => .refl _

theorem Spares.refuse (e : ClientError) : Spares id (Act.refuse e : Act V α) :=
  fun _ _ _ => .refl _

theorem Spares.modify {g : Client V → Client V}
    (h : ∀ c, (g c).id = c.id ∧ (g c).rendered = c.rendered ∧ (g c).view = c.view) :
    Spares id (Act.modify g) := fun _ c _ =>
  ⟨(h c).1, (h c).2.1, ⟨[], nofun, (h c).2.2⟩, nofun⟩

theorem Spares.emit {e : LifecycleEvent ClientId} (own : e.client = id)
    (other : ∀ s, e ≠ .updated id s) : Spares id (Act.emit e : Act V Unit) := by
  rintro ch c rfl
  refine ⟨rfl, rfl, ⟨[], nofun, rfl⟩, fun x hx => ?_⟩
  rw [mem_emitted hx]
  exact ⟨own ▸ .refl _, fun s hs => other s (Effect.event.inj hs)⟩

theorem Spares.hand (r : Request) : Spares id (Act.hand r : Act V Unit) := by
  rintro ch c rfl
  rw [run_hand]
  split
  · refine ⟨rfl, rfl, ⟨[], nofun, rfl⟩, fun e he => ?_⟩
    rw [List.mem_singleton.1 he]
    exact ⟨.refl _, nofun⟩
  · exact .refl _

theorem Spares.tell {call : ViewCall} (h : ∀ s, call ≠ .render s) :
    Spares id (Act.tell call : Act V Unit) := by
  rintro ch c rfl
  refine ⟨rfl, rfl, ⟨[call], fun s hs => h s (List.mem_singleton.1 hs).symm, rfl⟩, fun e he => ?_⟩
  rw [List.mem_singleton.1 he]
  exact ⟨.refl _, nofun⟩

theorem Spares.bind (ha : Spares id a) (hf : ∀ x, Spares id (f x)) : Spares id (a >>= f) := by
  intro ch c hid
  rw [run_bind]
  split
  · exact (ha ch c hid).trans (hf _ ch _ ((ha ch c hid).named.trans hid))
  · exact ha ch c hid

/-- What follows knows the client. -/
theorem Spares.get {f : Client V → Act V β} (hf : ∀ c : Client V, c.id = id → Spares id (f c)) :
    Spares id (Act.get >>= f) := fun ch c hid => by
  rw [run_bind_get]
  exact hf c hid ch c hid

theorem Spares.ite {p : Prop} [Decidable p] {a b : Act V α} (ha : Spares id a)
    (hb : Spares id b) : Spares id (if p then a else b) := by
  split
  · exact ha
  · exact hb

theorem Spares.displays (ha : Spares id a) : Displays id a := fun ch c hid => .spared (ha ch c hid)

theorem Displays.after (ha : Spares id a) (hf : ∀ x, Displays id (f x)) :
    Displays id (a >>= f) := by
  intro ch c hid
  rw [run_bind]
  split
  · exact (ha ch c hid).displayed (hf _ ch _ ((ha ch c hid).named.trans hid))
  · exact .spared (ha ch c hid)

theorem Displays.get {f : Client V → Act V β} (hf : ∀ c : Client V, c.id = id → Displays id (f c)) :
    Displays id (Act.get >>= f) := fun ch c hid => by
  rw [run_bind_get]
  exact hf c hid ch c hid

theorem Displays.ite {p : Prop} [Decidable p] {a b : Act V α} (ha : Displays id a)
    (hb : Displays id b) : Displays id (if p then a else b) := by
  split
  · exact ha
  · exact hb

/-- Only the result is looked at afterwards. -/
theorem Displays.dropped (ha : Displays id a) (g : α → β) :
    Displays id (a >>= fun x => Pure.pure (g x)) := by
  intro ch c hid
  have h := ha ch c hid
  rw [run_bind]
  split
  · rw [run_pure, List.append_nil]
    exact h
  · exact h

end Calculus

/-! ## Requests -/

theorem Spares.send (r : Request) : Spares id (send r : Act V Outcome) :=
  .bind (.hand r) fun _ => .bind (.modify fun _ => ⟨rfl, rfl, rfl⟩) fun _ =>
    .bind (.tell nofun) fun _ => .pure _

theorem Spares.proceed (mode : Mode) (event : Option Interaction) :
    Spares id (proceed mode event : Act V Outcome) := by
  refine .get fun c _ => ?_
  cases c.current with
  | none => exact .refuse _
  | some s => exact .bind (.modify fun _ => ⟨rfl, rfl, rfl⟩) fun _ => .send _

theorem Spares.passOn (mode : Mode) :
    Spares id (Act.proceed mode none >>= fun _ => Pure.pure () : Act V Unit) :=
  .bind (.proceed mode none) fun _ => .pure ()

/-! ## Responses -/

/-- A snapshot is shown, and then this is told. -/
theorem Displays.render (s : Snapshot) :
    Displays id (Act.render s >>= fun _ => emitUpdated : Act V Unit) := by
  rintro ch ⟨o, kids⟩ -
  have hshown : Displayed ch o _ _ := .shown (.refl o) s []
  unfold ClientState.displayed ClientState.displayEffects at hshown
  rw [List.map_nil, List.append_nil, List.nil_append] at hshown
  rw [run_bind_of_ok (run_render ch o kids s), run_emitUpdated rfl]
  exact hshown

theorem Displays.renderWith (s : Snapshot) (message : String) :
    Displays id (Act.render s >>= fun _ => tell (.showMessage message) >>= fun _ => emitUpdated :
      Act V Unit) := by
  rintro ch ⟨o, kids⟩ -
  have hshown : Displayed ch o _ _ := .shown (.refl o) s [message]
  unfold ClientState.displayed ClientState.displayEffects at hshown
  rw [List.map_singleton, List.nil_append, performAll_append, callEffects_append,
    List.append_assoc] at hshown
  rw [run_bind_of_ok (run_render ch o kids s), run_bind_tell, run_emitUpdated rfl]
  exact hshown

theorem Spares.finish (s : Snapshot) (previousFinal : Bool) :
    Spares id (finish s previousFinal : Act V Unit) := by
  rintro ch ⟨o, kids⟩ rfl
  rw [run_finish]
  refine ⟨rfl, rfl, ⟨_, fun t ht => ?_, rfl⟩, fun e he => ?_⟩
  · cases previousFinal <;> simp at ht
  · refine ⟨client_of_mem_endEffects he ▸ .refl _, fun t heq => ?_⟩
    subst heq
    rcases List.mem_append.1 he with he | he
    · obtain ⟨call, -, found, hcall⟩ := mem_callEffects he
      cases hcall
    · cases mem_emitted he

theorem Spares.onFinalStep : Spares id (onFinalStep : Act V Bool) := .get fun _ _ => .pure _

/-- The clients of children show what they show in panels of their own. -/
theorem Spares.spawn (s : Snapshot) {takeOver : Act V Unit}
    (h : ∀ child, Displays child takeOver) : Spares id (spawn s takeOver) := by
  refine .get fun before _ => .bind (.tell nofun) fun _ => fun ch c hid => ?_
  have within := (h _ ch (newChild c (ProcessView.childPanel before.view s)) rfl).within
  have silent : ∀ e ∈ (takeOver.run ch (newChild c (ProcessView.childPanel before.view s))).effects,
      c.id.Within e.client ∧ ∀ s, e ≠ .event (.updated c.id s) := by
    intro e he
    refine ⟨(ClientId.within_child c.id c.opened).trans (within e he), fun t ht => ?_⟩
    have below := within e he
    rw [ht] at below
    exact ClientId.not_within_of_child _ _ below
  unfold Act.run at silent ⊢
  dsimp only
  split
  · exact ⟨rfl, rfl, ⟨[], nofun, rfl⟩, silent⟩
  · exact ⟨rfl, rfl, ⟨[], nofun, rfl⟩, silent⟩

theorem Spares.spawnAll {ss : List Snapshot}
    (h : ∀ s ∈ ss, ∀ child, Displays child (attach s : Act V Unit)) :
    Spares id (spawnAll ss : Act V Unit) := by
  induction ss with
  | nil =>
    rw [Act.spawnAll]
    exact .pure ()
  | cons s rest ih =>
    rw [Act.spawnAll]
    exact .bind (.spawn s (h s List.mem_cons_self)) fun _ =>
      ih fun t ht => h t (List.mem_cons_of_mem _ ht)

theorem Displays.receiveOpen (s : Snapshot) {spawning : Act V Unit} (h : Spares id spawning) :
    Displays id (receiveOpen s spawning) := by
  refine .get fun c _ => .after (.modify fun _ => ⟨rfl, rfl, rfl⟩) fun _ => .ite ?_ ?_
  · exact .after (.modify fun _ => ⟨rfl, rfl, rfl⟩) fun _ => (Spares.passOn _).displays
  · refine .after (.modify fun _ => ⟨rfl, rfl, rfl⟩) fun _ => .after (.tell nofun) fun _ =>
      .after .onFinalStep fun previousFinal => .after h fun _ =>
        .ite (Spares.finish s _).displays (.ite (Spares.finish _ _).displays ?_)
    refine .after (.modify fun _ => ⟨rfl, rfl, rfl⟩) fun _ => .ite ?_ (.render s)
    exact .after (.modify fun _ => ⟨rfl, rfl, rfl⟩) fun _ => (Spares.passOn _).displays

theorem Displays.takeOver (processName : String) {receive : Act V Unit} (h : Displays id receive) :
    Displays id (takeOver processName receive) :=
  .get fun _ hid => .ite (Spares.refuse _).displays
    (.after (.modify fun _ => ⟨rfl, rfl, rfl⟩) fun _ => .after (.emit hid nofun) fun _ => h)

theorem Displays.receive (s : Snapshot) : Displays id (receive s : Act V Unit) := by
  induction s using Snapshot.forall_of_children generalizing id with
  | h s ih =>
    rw [receive_eq]
    exact .get fun _ _ => .ite (Spares.pure ()).displays
      (.receiveOpen s (.spawnAll fun t ht child => .takeOver _ (ih t ht)))

theorem Displays.attach (s : Snapshot) : Displays id (attach s : Act V Unit) :=
  .takeOver _ (.receive s)

theorem Spares.failFor (message : String) : Spares id (failFor message : Act V Unit) :=
  .bind (.modify fun _ => ⟨rfl, rfl, rfl⟩) fun _ => .bind (.tell nofun) fun _ => .get fun _ hid =>
    .bind (.tell nofun) fun _ => .emit hid nofun

theorem Spares.showFieldErrors (entries : List (String × String)) :
    Spares id (showFieldErrors entries : Act V Unit) := by
  rintro ch ⟨o, kids⟩ -
  rw [run_showFieldErrors]
  refine ⟨rfl, rfl, ⟨_, fun s hs => ?_, rfl⟩, fun e he => ?_⟩
  · rcases mem_complaintCalls hs with ⟨field, text, h⟩ | ⟨text, h⟩ <;> cases h
  · obtain ⟨call, -, found, rfl⟩ := mem_callEffects he
    exact ⟨.refl _, nofun⟩

theorem Spares.recoverCancelling (message : String) (replacement : Option Snapshot) :
    Spares id (recoverCancelling message replacement : Act V Unit) :=
  .bind (.modify fun _ => ⟨rfl, rfl, rfl⟩) fun _ => .get fun _ _ => .ite (.passOn _)
    (.bind (.modify fun _ => ⟨rfl, rfl, rfl⟩) fun _ => .bind (.tell nofun) fun _ => .tell nofun)

theorem Displays.recover (message : String) (fieldErrors : KeyMap String)
    (replacement : Option Snapshot) :
    Displays id (recover message fieldErrors replacement : Act V Unit) := by
  refine .after (.tell nofun) fun _ => .get fun c _ => ?_
  cases replacement with
  | none =>
    refine Spares.displays (.ite ?_ ?_)
    · exact .bind (.modify fun _ => ⟨rfl, rfl, rfl⟩) fun _ => .tell nofun
    · refine .bind (.modify fun _ => ⟨rfl, rfl, rfl⟩) fun _ => .ite ?_ ?_
      · exact .bind (.tell nofun) fun _ => .showFieldErrors _
      · exact .bind (.pure ()) fun _ => .showFieldErrors _
  | some s =>
    refine .ite (Spares.displays ?_) ?_
    · exact .bind .onFinalStep fun previousFinal => .finish s previousFinal
    · exact .after (.modify fun _ => ⟨rfl, rfl, rfl⟩) fun _ => .renderWith s message

theorem Displays.fail (error : ServiceError) : Displays id (fail error : Act V Unit) := by
  refine .get fun c _ => .ite (Spares.pure ()).displays
    (.after (.modify fun _ => ⟨rfl, rfl, rfl⟩) fun _ => ?_)
  cases error with
  | unrecoverable message cause => exact (Spares.failFor message).displays
  | recoverable message fieldErrors replacement =>
    exact .after (.modify fun _ => ⟨rfl, rfl, rfl⟩) fun _ =>
      .ite (Spares.recoverCancelling message replacement).displays (.recover _ _ _)

theorem Displays.respond (result : Except ServiceError Snapshot) :
    Displays id (respond result : Act V Unit) := by
  cases result with
  | ok s => exact .receive s
  | error e => exact .fail e

/-! ## Actions -/

theorem Spares.ensureOpen : Spares id (ensureOpen : Act V Unit) :=
  .get fun _ _ => .ite (.refuse _) (.pure ())

theorem Spares.ensureInteracting (operation : Operation) :
    Spares id (ensureInteracting operation : Act V Unit) :=
  .get fun _ _ => .ite (.refuse _) (.pure ())

theorem Spares.navigate (operation : Operation) {step : Act V Outcome} (h : Spares id step) :
    Spares id (navigate operation step) :=
  .bind .ensureOpen fun _ => .get fun _ _ => .ite (.pure _)
    (.bind (.ensureInteracting operation) fun _ => .ite (.pure _) h)

theorem Spares.recordEdit (name : String) (value : Value) :
    Spares id (recordEdit name value : Act V Outcome) := by
  refine .bind .ensureOpen fun _ => .get fun c _ => .ite (.pure _)
    (.bind (.ensureInteracting _) fun _ => ?_)
  cases c.current.bind (·.edit? name value) with
  | none => exact .refuse _
  | some s => exact .bind (.modify fun _ => ⟨rfl, rfl, rfl⟩) fun _ => .pure _

theorem Spares.recordEdits (edits : List (String × Value)) :
    Spares id (recordEdits edits : Act V Unit) := by
  induction edits with
  | nil => exact .pure ()
  | cons e rest ih => exact .bind (.recordEdit e.1 e.2) fun _ => ih

theorem Spares.submit (edits : List (String × Value)) (event : Interaction) :
    Spares id (submit edits event : Act V Outcome) := by
  refine .navigate _ (.get fun c _ => ?_)
  cases edits.find? fun e => c.current.any fun s => (s.parameter? e.1).isNone with
  | some e => exact .refuse _
  | none => exact .bind (.recordEdits edits) fun _ => .proceed _ _

theorem Spares.start (d : Descriptor) : Spares id (start d : Act V Outcome) :=
  .get fun _ hid => .ite (.refuse _) (.bind (.modify fun _ => ⟨rfl, rfl, rfl⟩) fun _ =>
    .bind (.emit hid nofun) fun _ => .bind (.send _) fun _ =>
      .bind (.modify fun _ => ⟨rfl, rfl, rfl⟩) fun _ => .pure _)

theorem Spares.advance : Spares id (advance : Act V Outcome) :=
  .navigate _ (.get fun _ _ => .ite (.proceed _ _) (.pure _))

theorem Spares.rollback : Spares id (rollback : Act V Outcome) :=
  .navigate _ (.get fun _ _ => .ite (.proceed _ _) (.pure _))

theorem Spares.reload : Spares id (reload : Act V Outcome) := .navigate _ (.proceed _ _)

theorem Spares.askToCancel (processName : String) :
    Spares id (askToCancel processName : Act V Outcome) :=
  .bind (.modify fun _ => ⟨rfl, rfl, rfl⟩) fun _ => .bind (.tell nofun) fun _ => .pure _

theorem Spares.cancel : Spares id (cancel : Act V Outcome) := by
  refine .bind .ensureOpen fun _ => .get fun c _ => .ite (.pure _) (.ite (.refuse _) (.ite
    (.bind (.modify fun _ => ⟨rfl, rfl, rfl⟩) fun _ => .pure _) (.ite (.pure _) ?_)))
  cases c.current with
  | none => exact .refuse _
  | some s => exact .ite (.proceed _ _) (.askToCancel _)

theorem Spares.pause : Spares id (pause : Act V Unit) := .modify fun _ => ⟨rfl, rfl, rfl⟩

theorem Spares.resume : Spares id (resume : Act V Outcome) :=
  .bind (.modify fun _ => ⟨rfl, rfl, rfl⟩) fun _ => .get fun _ _ => .ite (.proceed _ _) (.pure _)

theorem Spares.answer (accepted : Bool) : Spares id (answer accepted : Act V Outcome) :=
  .get fun _ _ => .ite (.refuse _) (.bind (.modify fun _ => ⟨rfl, rfl, rfl⟩) fun _ =>
    .bind .ensureOpen fun _ => .ite
      (.ite (.bind (.modify fun _ => ⟨rfl, rfl, rfl⟩) fun _ => .pure _) (.proceed _ _))
      (.ite .resume (.pure _)))

end Act

/-! ## Whatever happens -/

/-- Whatever happens to a client, and whoever listens: it shows at most one snapshot, and that is the
last thing that it does itself. -/
theorem Stimulus.displays_act (i : Stimulus) (id : ClientId) :
    Act.Displays id (i.act : Act V (Option Outcome)) := by
  cases i with
  | response result => exact (Act.Displays.respond result).dropped fun _ => none
  | action a =>
    cases a with
    | start d => exact (Act.Spares.start d).displays.dropped some
    | attach s => exact (Act.Displays.attach s).dropped fun _ => none
    | edit name value => exact (Act.Spares.recordEdit name value).displays.dropped some
    | submit edits event => exact (Act.Spares.submit edits event).displays.dropped some
    | advance => exact Act.Spares.advance.displays.dropped some
    | rollback => exact Act.Spares.rollback.displays.dropped some
    | reload => exact Act.Spares.reload.displays.dropped some
    | cancel => exact Act.Spares.cancel.displays.dropped some
    | answer accepted => exact (Act.Spares.answer accepted).displays.dropped some
    | pause => exact Act.Spares.pause.displays.dropped fun _ => none
    | resume => exact Act.Spares.resume.displays.dropped some

/-! ## The panel behind -/

section Panel

variable {behind : V → Recording} {ch : Channels} {o o' : ClientState V} {effects : List Effect}

/-- The panel behind shows the layout that it was last shown for, if there is one. -/
def ClientState.Faithful (behind : V → Recording) (o : ClientState V) : Prop :=
  ∀ layout, o.rendered = some layout → (behind o.view).Shows layout

theorem Spared.faithful (veils : Veils behind) (h : Spared o o' effects)
    (faithful : o.Faithful behind) : o'.Faithful behind := by
  intro layout hlayout
  obtain ⟨calls, hcalls, hview⟩ := h.called
  rw [h.rendered] at hlayout
  rw [hview]
  exact (faithful layout hlayout).of_alike (veils.alike_performAll hcalls o.view)

/-- Showing a snapshot, with messages or without, makes the panel behind as if it had been built for
the snapshot. -/
theorem ClientState.Faithful.mirrors (veils : Veils behind) (faithful : o.Faithful behind)
    (s : Snapshot) (texts : List String) : (behind (o.displayed s texts).view).Mirrors s := by
  show (behind (performAll o.view (_ ++ _))).Mirrors s
  rw [performAll_append]
  exact veils.mirrors_showMessages (veils.mirrors_drawCalls faithful s) texts

theorem Displayed.faithful (veils : Veils behind) (h : Displayed ch o o' effects)
    (faithful : o.Faithful behind) : o'.Faithful behind := by
  cases h with
  | spared h => exact h.faithful veils faithful
  | shown h s texts =>
    intro layout hlayout
    obtain rfl := Option.some.inj hlayout
    exact ((h.faithful veils faithful).mirrors veils s texts).shows

end Panel

/-! ## Whole courses -/

section Courses

variable {behind : V → Recording} {ch : Channels} {H : List (Moment V)} {c : Client V}

/-- In the course of a client the panel behind always shows the layout that the client remembers. -/
theorem Course.faithful (course : Course ch H c) (veils : Veils behind) : c.Faithful behind := by
  induction course with
  | new id parent paused view => nofun
  | happens _ i ih => exact (i.displays_act _ _ _ rfl).faithful veils ih
  | apart _ _ ih => exact ih
  | deafened _ _ ih => exact ih

/-- What happened in the course of a client happened to it at some point of its course. -/
theorem Course.face_of_mem (course : Course ch H c) {m : Moment V} (hm : m ∈ H) :
    ∃ ch' H' c' i, Course ch' H' c' ∧ m = c'.face ch' i := by
  induction course with
  | new => cases hm
  | @happens ch H c course i ih =>
    rcases List.mem_append.1 hm with hm | hm
    · exact ih hm
    · exact ⟨ch, H, c, i, course, List.mem_singleton.1 hm⟩
  | apart _ _ ih => exact ih hm
  | deafened _ _ ih => exact ih hm

/-- **Updating in place is as good as building anew.** Whenever in the course of a client it tells that
a snapshot is shown, this is the last thing that the client does itself, and the panel behind has the
step and the fields, with their values and without messages, of a new panel that is built once for that
snapshot, whatever calls that name fields got lost. -/
theorem updates_equal_rebuild (veils : Veils behind) (course : Course ch H c) {m : Moment V}
    (hm : m ∈ H) {id : ClientId} {s : Snapshot} (told : .event (.updated id s) ∈ m.own) :
    (∃ earlier, m.own = earlier ++ [.event (.updated id s)]) ∧
      (behind m.turn.client.view).step = (Recording.empty.perform (.render s)).2.step ∧
      (behind m.turn.client.view).fields = (Recording.empty.perform (.render s)).2.fields := by
  obtain ⟨ch', H', c', i, course', rfl⟩ := course.face_of_mem hm
  obtain ⟨hmem, hid⟩ := List.mem_filter.1 told
  obtain rfl : id = c'.id := of_decide_eq_true hid
  obtain ⟨before, mid, texts, spared, hafter, earlier, hown⟩ :=
    (i.displays_act c'.id ch' c' rfl).of_updated hmem
  have faithful := spared.faithful veils (course'.faithful veils)
  have hmirrors := faithful.mirrors veils s texts
  rw [← hafter] at hmirrors
  exact ⟨⟨earlier, hown⟩, hmirrors.1, hmirrors.2⟩

/-- A form that asks twice for the street, with a zip code in between. -/
def deliveryForm (zip : String) (streets : String × String) : Snapshot :=
  { Snapshot.ofStep .nil "Order" "Delivery" with
    parameters := [⟨"street", "Street", .str streets.1, true, false⟩,
      ⟨"zip", "Zip code", .str zip, true, false⟩,
      ⟨"street", "Street again", .str streets.2, true, false⟩] }

/-- An order is started by a client whose second update will be lost. -/
def deliveryStarted : Moment Intermittent :=
  (Client.idle (.root 0) ⟨fun n => n == 1, 0, .empty⟩).face .open
    (.action (.start ⟨"Order", none, "en-US", .none⟩))

/-- The form comes. -/
def deliveryBrought : Moment Intermittent :=
  deliveryStarted.turn.client.face .open (.response (.ok (deliveryForm "1010" ("Mill", "Mill"))))

/-- The user asks for it once more. -/
def deliveryReloaded : Moment Intermittent :=
  deliveryBrought.turn.client.face .open (.action .reload)

/-- The form comes with other values: the first street is updated, the zip code is not found, and the
panel is built. -/
def deliveryRebuilt : Moment Intermittent :=
  deliveryReloaded.turn.client.face .open (.response (.ok (deliveryForm "1020" ("Lake", "Hill"))))

/-- A form whose update breaks off after the first field is shown as if built anew. -/
theorem updates_equal_rebuild_delivery :
    deliveryRebuilt.turn.client.view.updates = 2 ∧
      deliveryRebuilt.turn.client.view.behind.inPlaceUpdates = 1 ∧
      deliveryRebuilt.turn.client.view.behind.rebuilds = 2 ∧
      deliveryRebuilt.turn.client.view.behind.fields =
        .ofList [("street", ⟨.str "Hill", none⟩), ("zip", ⟨.str "1020", none⟩)] := by
  have started : Course .open [deliveryStarted] deliveryStarted.turn.client :=
    (Course.new .open (.root 0) none false (Intermittent.mk (fun n => n == 1) 0 .empty)).happens _
  have rebuilt : Course .open [deliveryStarted, deliveryBrought, deliveryReloaded, deliveryRebuilt]
      deliveryRebuilt.turn.client := ((started.happens _).happens _).happens _
  obtain ⟨-, -, hfields⟩ := updates_equal_rebuild Intermittent.veils rebuilt (m := deliveryRebuilt)
    (List.mem_of_getLast? rfl) (List.mem_of_getLast? rfl)
  exact ⟨rfl, rfl, rfl, hfields⟩

end Courses

end Stepwise
