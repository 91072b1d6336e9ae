/-
# Steps that are left waiting

A step that goes on by itself goes on when it comes, or else when the user chooses that steps go on, or
when the question that has paused them is answered with no. One choice is taken by none of the three: the
choice to go on that is made while a question is open, if steps were paused already when the question was
asked. The open question holds the step back, and an answer of no takes up only what the question itself
has paused. So the step waits although steps go on by themselves.

* `Undisturbed`, `Swallowed` : no error since the snapshot came, and a choice that nothing takes up;
* `ClientState.Stalls` : a step that goes on by itself waits for the user;
* `Holding`, `Client.face_holding` : when the step that is shown is paused, moment by moment;
* `stalls_iff` : when a step is left waiting.
-/
import Stepwise.Proofs.Client.Pausing

namespace Stepwise

variable {V : Type}

/-! ## Snapshots, errors and choices -/

/-- The request is answered by an error. -/
def Stimulus.isError : Stimulus → Bool
  | .response (.error _) => true
  | _ => false

/-- A snapshot of the server is taken over, and it is not the replacement of an error. -/
def Stimulus.takesOver : Stimulus → Except ClientError (Option Outcome) → Bool
  | .action (.attach _), .ok none => true
  | .response (.ok _), _ => true
  | _, _ => false

/-- A snapshot of the server is taken over, and it is not the replacement of an error. -/
def Moment.takesOver (m : Moment V) : Bool := m.stimulus.takesOver m.turn.result

/-- A snapshot was taken over, and no error has come since. -/
def Undisturbed (H : List (Moment V)) : Prop :=
  Since (fun _ m => m.takesOver = true) (fun m => m.stimulus.isError = true) H

/-- The user chose that steps go on while a question was open that had found them paused; and since
then the user has chosen nothing, no question was asked, and no snapshot was taken over. -/
def Swallowed (H : List (Moment V)) : Prop :=
  Since
    (fun earlier m => m.before.awaitingConfirmation = true ∧ ¬ Interrupted earlier ∧
      m.choice = some false)
    (fun m => m.choice ≠ none ∨ m.asks = true ∨ m.takesOver = true) H

/-- The current step goes on by itself. -/
def ClientState.goesOn (o : ClientState V) : Bool := o.current.any (·.autoContinue)

/-- A step that goes on by itself waits for the user, although steps go on by themselves. -/
structure ClientState.Stalls (o : ClientState V) : Prop where
  shown : o.phase = .interacting
  settled : o.awaitingConfirmation = false
  on : o.autoContinuePaused = false
  goesOn : o.goesOn = true

theorem swallowed_concat {H : List (Moment V)} {m : Moment V} :
    Swallowed (H ++ [m]) ↔
      (m.before.awaitingConfirmation = true ∧ ¬ Interrupted H ∧ m.choice = some false) ∨
        (m.choice = none ∧ m.asks = false ∧ m.takesOver = false) ∧ Swallowed H := by
  rw [Swallowed, since_concat, not_or, not_or, Classical.not_not, Bool.not_eq_true,
    Bool.not_eq_true]
  rfl

/-- Only one action is the choice that steps go on. -/
theorem Stimulus.eq_resume {i : Stimulus} (h : i.choice = some false) : i = .action .resume := by
  cases i with
  | response => cases h
  | action a =>
    cases a with
    | resume => rfl
    | _ => cases h

/-- What is taken over is no choice. -/
theorem Stimulus.choice_of_takesOver {i : Stimulus} {r : Except ClientError (Option Outcome)}
    (h : i.takesOver r = true) : i.choice = none := by
  cases i with
  | response => rfl
  | action a =>
    cases a with
    | attach => rfl
    | _ => cases h

/-- Once a snapshot is taken over no choice is left that nothing has taken up. -/
theorem not_swallowed_of_takesOver {H : List (Moment V)} {m : Moment V} (h : m.takesOver = true) :
    ¬ Swallowed (H ++ [m]) := by
  have choice : m.choice = none := Stimulus.choice_of_takesOver h
  simp [swallowed_concat, choice, h]

/-! ## One moment -/

section Moments

variable [ProcessView V] {ch : Channels} {o o' : ClientState V} {i : Stimulus}
  {r : Except ClientError (Option Outcome)} {own : List Effect}

/-- A client that has sent something shows no step. -/
theorem ClientState.phase_sent (o : ClientState V) : o.sent.phase ≠ .interacting := by
  show (if o.phase = .interacting then Phase.running else o.phase) ≠ .interacting
  split
  · nofun
  · assumption

theorem ClientState.phase_proceeded (o : ClientState V) (s : Snapshot) (mode : Mode) :
    (o.proceeded s mode).phase ≠ .interacting := ClientState.phase_sent _

/-- A snapshot that goes on by itself is shown only where steps are paused. -/
theorem Received.paused {s : Snapshot} (received : Received ch s o o' own)
    (shown : o'.phase = .interacting) (going : o.phase.isTerminal = false)
    (goesOn : o'.goesOn = true) : o'.autoContinuePaused = true := by
  cases received with
  | closed ended => rw [going] at ended; cases ended
  | cancelled => exact absurd shown (ClientState.phase_proceeded _ _ _)
  | concluded _ _ conclusion =>
    cases conclusion with
    | finished | idleStart => cases shown
    | continued => exact absurd shown (ClientState.phase_proceeded _ _ _)
    | shown _ _ rest => exact rest goesOn

/-- A step that was just taken over, and goes on by itself, is shown only where steps are paused. -/
theorem Reaction.paused_of_takesOver (reaction : Reaction ch o i r o' own)
    (takesOver : i.takesOver r = true) (answers : ∀ result, i = .response result → o.phase = .running)
    (shown : o'.phase = .interacting) (goesOn : o'.goesOn = true) : o'.autoContinuePaused = true := by
  cases reaction with
  | attached _ _ received => exact received.paused shown rfl goesOn
  | received received =>
    refine received.paused shown ?_ goesOn
    rw [answers _ rfl]
    rfl
  | refused a => cases a <;> cases takesOver
  | ignored a => cases a <;> cases takesOver
  | navigated _ navigates => cases navigates <;> cases takesOver
  | _ => cases takesOver

/-- A step that is shown, and was not just taken over, was shown before, and nothing was sent. -/
theorem Reaction.shown_before (reaction : Reaction ch o i r o' own)
    (takesOver : i.takesOver r = false) (noError : i.isError = false)
    (shown : o'.phase = .interacting) :
    o.phase = .interacting ∧ o'.goesOn = o.goesOn ∧ isSent r = false := by
  have ofResumed {o o' : ClientState V} {x : Outcome} {effects : List Effect}
      (resumed : Resumed o x o' effects) (shown : o'.phase = .interacting) :
      o.phase = .interacting ∧ o'.goesOn = o.goesOn ∧ isSent (.ok (some x)) = false := by
    cases resumed with
    | stayed => exact ⟨shown, rfl, rfl⟩
    | continued => exact absurd shown (ClientState.phase_proceeded _ _ _)
  cases reaction with
  | started => exact absurd shown (ClientState.phase_sent { o with phase := .running })
  | attached => cases takesOver
  | edited _ _ shown _ s t current edited =>
    refine ⟨shown, ?_, rfl⟩
    obtain ⟨ps, -, rfl⟩ := Option.map_eq_some_iff.1 edited
    rw [ClientState.goesOn, ClientState.goesOn, current]
    rfl
  | navigated | cancelled | accepted => exact absurd shown (ClientState.phase_proceeded _ _ _)
  | declinedResumed _ _ _ resumed => exact ofResumed (o := o.settled) resumed shown
  | resumed resumed => exact ofResumed resumed shown
  | received => cases takesOver
  | rejected => cases noError
  | refused | ignored | deferred | asked | answerLost | acceptedLocked | declined | paused =>
    exact ⟨shown, rfl, rfl⟩

/-- A step that is shown and goes on by itself is sent on once steps go on, unless a question is
open. -/
theorem Act.run_resume_goesOn (h : ch.dispatchOpen = true) {o : ClientState V} (offers : o.Offers)
    (undeferred : o.pendingCancel = false) (goesOn : o.goesOn = true) (kids : List (Client V)) :
    (run resume ch ⟨o, kids⟩).client.phase ≠ .interacting := by
  obtain ⟨s, current, auto⟩ := (Option.any_eq_true _ _).1 goesOn
  have holds : Client.holdsAutoStep
      (⟨{ o with autoContinuePaused := false }, kids⟩ : Client V) = true := by
    simp [Client.holdsAutoStep, offers.shown, offers.unlocked, offers.settled, undeferred, current,
      auto]
  unfold resume
  rw [run_bind_modify, run_bind_get, if_pos holds,
    run_proceed h (o := { o with autoContinuePaused := false }) current]
  exact ClientState.phase_proceeded _ _ _

/-- The choice that steps go on sends the step on that is shown, unless a question is open. -/
theorem Client.face_resume_goesOn (h : ch.dispatchOpen = true) {c : Client V} {log : List Effect}
    {waiting : List Request} (st : Standing log c.toClientState waiting)
    (shown : c.phase = .interacting) (settled : c.awaitingConfirmation = false)
    (goesOn : c.goesOn = true) :
    (c.face ch (.action .resume)).turn.client.phase ≠ .interacting := by
  obtain ⟨o, kids⟩ := c
  have r := st.rests_of_shown shown
  have hturn : (Client.face ⟨o, kids⟩ ch (.action .resume)).turn = _ := Act.run_some _ _
  rw [hturn]
  exact Act.run_resume_goesOn h ⟨shown, r.unlocked, settled⟩ r.undeferred goesOn kids

/-- So does the answer of no to a question that had found the steps going on. -/
theorem Client.face_decline_goesOn (h : ch.dispatchOpen = true) {c : Client V} {log : List Effect}
    {waiting : List Request} (st : Standing log c.toClientState waiting)
    (shown : c.phase = .interacting) (asked : c.awaitingConfirmation = true)
    (own : c.pausedByConfirmation = true) (goesOn : c.goesOn = true) :
    (c.face ch (.action (.answer false))).turn.client.phase ≠ .interacting := by
  obtain ⟨o, kids⟩ := c
  have r := st.rests_of_shown shown
  have going : ¬ o.phase.isTerminal = true := by
    rw [shown]
    decide
  have hturn : (Client.face ⟨o, kids⟩ ch (.action (.answer false))).turn = _ := Act.run_some _ _
  rw [hturn, Act.run_answer asked, if_neg going, if_neg Bool.false_ne_true, if_pos own]
  exact Act.run_resume_goesOn h (o := o.settled) ⟨shown, r.unlocked, rfl⟩ r.undeferred goesOn kids

end Moments

/-! ## Whole runs -/

/-- While a step is shown that goes on by itself, with no error since it came, and no question is open
that had found the steps going on, steps are paused unless a choice was swallowed. -/
def Holding (H : List (Moment V)) (o : ClientState V) : Prop :=
  o.phase = .interacting → o.goesOn = true → Undisturbed H → o.pausedByConfirmation = false →
    (o.autoContinuePaused = false ↔ Swallowed H)

section Runs

variable [ProcessView V] {ch : Channels} {H : List (Moment V)} {c : Client V}
  {waiting : List Request}

/-- One moment of a run keeps the account. -/
theorem Client.face_holding (h : ch.dispatchOpen = true) (run : ClientRun ch H c waiting)
    (ih : Holding H c.toClientState) (i : Stimulus)
    (answers : ∀ result, i = .response result → c.phase = .running) :
    Holding (H ++ [c.face ch i]) (c.face ch i).turn.client.toClientState := by
  intro shown goesOn calm own
  have st := run.standing h
  have weighs := c.face_weighs h st i
  obtain ⟨r, o', effects, reaction, shows, -⟩ := c.face_shows h i
  have htakes : (c.face ch i).takesOver = i.takesOver r := by
    rw [Moment.takesOver, shows.stimulus, shows.result]
  have hasks : (c.face ch i).asks = isAsking r := by rw [Moment.asks, shows.result]
  have hchoice : (c.face ch i).choice = i.choice := rfl
  rw [shows.after, shows.result] at weighs
  rw [shows.after] at goesOn own ⊢
  cases takesOver : i.takesOver r with
  | true =>
    have paused : o'.autoContinuePaused = true :=
      reaction.paused_of_takesOver takesOver answers (shows.after ▸ shown) goesOn
    rw [paused]
    exact iff_of_false nofun (not_swallowed_of_takesOver (htakes.trans takesOver))
  | false =>
    -- the step was there before, and goes on by itself as it did
    rw [Undisturbed, since_concat, htakes, takesOver] at calm
    obtain ⟨noError, calm⟩ := calm.resolve_left Bool.false_ne_true
    obtain ⟨before, same, unsent⟩ :=
      reaction.shown_before takesOver (Bool.eq_false_iff.2 noError) (shows.after ▸ shown)
    have still : c.goesOn = true := same ▸ goesOn
    replace ih := ih before still calm
    rw [swallowed_concat, htakes, hasks, hchoice, takesOver]
    cases weighs with
    | kept _ unowned paused choice unasked =>
      rw [unowned] at own
      rw [paused, ih own]
      simp [choice, unasked]
    | asked _ _ _ paused cancel asks =>
      have choice : i.choice = none := congrArg Stimulus.choice cancel
      simp [paused, choice, asks]
    | accepted _ _ _ _ _ sent =>
      rw [unsent] at sent
      cases sent
    | declined asked _ _ paused no unasked =>
      subst no
      have unowned : c.pausedByConfirmation = false := Bool.eq_false_iff.2 fun owned =>
        Client.face_decline_goesOn h st before asked owned still shown
      rw [paused, unowned, Bool.not_false, Bool.and_true, ih unowned]
      simp [Stimulus.choice, unasked]
    | chose choice _ unowned paused chooses =>
      rw [unowned] at own
      cases choice with
      | true => simp [paused, chooses]
      | false =>
        obtain rfl := Stimulus.eq_resume chooses
        have asked : c.awaitingConfirmation = true := eq_true_of_ne_false fun settled =>
          Client.face_resume_goesOn h st before settled still shown
        have found : ¬ Interrupted H := by
          rw [← (run.weighed h).own, own]
          exact Bool.false_ne_true
        exact iff_of_true paused (.inl ⟨asked, found, chooses⟩)

/-- The account holds at every point of a run. -/
theorem ClientRun.holding (h : ch.dispatchOpen = true) (run : ClientRun ch H c waiting) :
    Holding H c.toClientState := by
  induction run with
  | new => exact nofun
  | act run a ih => exact Client.face_holding h run ih (.action a) nofun
  | answer run result ih =>
    exact Client.face_holding h run ih (.response result) fun _ _ =>
      (run.standing h).waits_of_mem.1.running
  | apart _ _ ih => exact ih

/-- **When a step is left waiting.** At every point of a run of a client at which no error has come since
the current snapshot was taken over: a step that goes on by itself waits for the user although steps go
on by themselves, with no question open, exactly if such a step is shown, no question is open, and the
choice that steps go on was swallowed by a question that had found them paused. -/
theorem stalls_iff (h : ch.dispatchOpen = true) (run : ClientRun ch H c waiting)
    (calm : Undisturbed H) :
    c.Stalls ↔ c.phase = .interacting ∧ c.awaitingConfirmation = false ∧ c.goesOn = true ∧
      Swallowed H := by
  have unowned (settled : c.awaitingConfirmation = false) : c.pausedByConfirmation = false :=
    Bool.eq_false_iff.2 fun own => by
      rw [(run.weighed h).asked own] at settled
      cases settled
  constructor
  · rintro ⟨shown, settled, on, goesOn⟩
    exact ⟨shown, settled, goesOn, (run.holding h shown goesOn calm (unowned settled)).1 on⟩
  · rintro ⟨shown, settled, goesOn, swallowed⟩
    exact ⟨shown, settled, (run.holding h shown goesOn calm (unowned settled)).2 swallowed, goesOn⟩

end Runs

/-- Steps are paused from the beginning, and an order is started. -/
def orderHalted : Moment Recording :=
  (Client.withAutoContinue (Client.idle (.root 0) Recording.empty) false).face .open
    (.action (.start ⟨"Order", none, "en-US", .none⟩))

/-- A form comes that would go on by itself. -/
def orderHeld : Moment Recording :=
  orderHalted.turn.client.face .open (.response (.ok (addressForm true)))

/-- The user is asked whether to cancel. -/
def orderDoubted : Moment Recording := orderHeld.turn.client.face .open (.action .cancel)

/-- The user decides meanwhile that steps go on. -/
def orderUrged : Moment Recording := orderDoubted.turn.client.face .open (.action .resume)

/-- The question is answered with no. -/
def orderSpared : Moment Recording := orderUrged.turn.client.face .open (.action (.answer false))

theorem run_orderSpared :
    ClientRun .open [orderHalted, orderHeld, orderDoubted, orderUrged, orderSpared]
      orderSpared.turn.client [] :=
  ((((@ClientRun.answer Recording _ .open [orderHalted] orderHalted.turn.client [] [] _
    ((ClientRun.new (.root 0) none true Recording.empty).act _)
    (.ok (addressForm true))).act .cancel).act .resume).act (.answer false))

/-- No error has come since the form. -/
theorem undisturbed_orderSpared :
    Undisturbed [orderHalted, orderHeld, orderDoubted, orderUrged, orderSpared] :=
  ⟨[orderHalted], orderHeld, [orderDoubted, orderUrged, orderSpared], rfl, rfl, by
    simp [orderDoubted, orderUrged, orderSpared, Client.face, Stimulus.isError]⟩

/-- The choice that steps go on was swallowed by the question. -/
theorem swallowed_orderSpared :
    Undisturbed [orderHalted, orderHeld, orderDoubted, orderUrged, orderSpared] ∧
      Swallowed [orderHalted, orderHeld, orderDoubted, orderUrged, orderSpared] :=
  ⟨undisturbed_orderSpared,
    ((stalls_iff rfl run_orderSpared undisturbed_orderSpared).1 ⟨rfl, rfl, rfl, rfl⟩).2.2.2⟩

/-- The form is shown and no question is open, steps go on by themselves, no error has come; and the form,
which goes on by itself, waits. -/
theorem stalls_orderSpared :
    ∃ H c, ClientRun .open H c ([] : List Request) ∧ Undisturbed H ∧
      (c : Client Recording).Stalls :=
  ⟨_, _, run_orderSpared, undisturbed_orderSpared, rfl, rfl, rfl, rfl⟩

end Stepwise
