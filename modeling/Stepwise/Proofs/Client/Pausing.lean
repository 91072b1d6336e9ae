/-
# Who decides whether steps go on by themselves

The user decides whether steps go on by themselves, and the question whether to cancel pauses them for
as long as it is open. The pause outlives the question if it is answered with yes; and a pause that the
user orders while the question is open is taken for the pause of the question, and ends with it. These
two apart, the client does what the user chose last.

* `Moment.choice`, `chosen` : what the user chose last;
* `Yielded`, `Mistaken`, `Overridden` : the two ways in which a question goes over that choice;
* `Weighs`, `Client.face_weighs` : what a moment does about the pause;
* `paused_eq_chosen_iff` : when the client does what the user chose.
-/
import Stepwise.Proofs.Client.Offering

namespace Stepwise

variable {V : Type}

/-! ## Choices and questions -/

/-- What the user chooses: that steps do not go on by themselves, or that they do. -/
def Stimulus.choice : Stimulus → Option Bool
  | .action .pause => some true
  | .action .resume => some false
  | _ => none

/-- The question is answered with yes. -/
def Stimulus.isYes : Stimulus → Bool
  | .action (.answer accepted) => accepted
  | _ => false

/-- The result tells that a question was asked. -/
def isAsking : Except ClientError (Option Outcome) → Bool
  | .ok (some .awaitingConfirmation) => true
  | _ => false

namespace Moment

/-- What the user chooses. -/
def choice (m : Moment V) : Option Bool := m.stimulus.choice

/-- The user is asked whether to cancel. -/
def asks (m : Moment V) : Bool := isAsking m.turn.result

/-- The user is asked while steps go on by themselves. -/
def interrupts (m : Moment V) : Bool := m.asks && !m.before.autoContinuePaused

/-- The question is closed. -/
def settles (m : Moment V) : Bool :=
  m.before.awaitingConfirmation && !m.turn.client.awaitingConfirmation

/-- The question is answered with yes, and the cancel goes out. -/
def accepts (m : Moment V) : Bool := m.stimulus.isYes && isSent m.turn.result

end Moment

/-- What the user chose last; before the first choice, what the client began with. -/
def chosen (H : List (Moment V)) (now : ClientState V) : Bool :=
  (H.filterMap Moment.choice).getLast?.getD
    ((H.head?.map (·.before.autoContinuePaused)).getD now.autoContinuePaused)

/-- A question was asked since the user's last choice. -/
def Asked (H : List (Moment V)) : Prop :=
  Since (fun _ m => m.asks = true) (fun m => m.choice ≠ none) H

/-- A question was asked, and answered with yes, since the user's last choice. -/
def Yielded (H : List (Moment V)) : Prop :=
  Since (fun earlier m => Asked earlier ∧ m.accepts = true) (fun m => m.choice ≠ none) H

/-- A question is open that was asked while steps went on by themselves. -/
def Interrupted (H : List (Moment V)) : Prop :=
  Since (fun _ m => m.interrupts = true) (fun m => m.settles = true) H

/-- The user's last choice was a pause, made while such a question was open; and no question was
answered with yes since. -/
def Mistaken (H : List (Moment V)) : Prop :=
  Since (fun earlier m => Interrupted earlier ∧ m.choice = some true)
    (fun m => m.choice ≠ none ∨ m.accepts = true) H

/-- A question went over what the user chose last: one that was answered with yes, over the choice to
go on; or one that was open, over the choice to pause. -/
def Overridden (H : List (Moment V)) (now : ClientState V) : Prop :=
  chosen H now = false ∧ Yielded H ∨ Mistaken H

/-- An answer is no choice. -/
theorem Stimulus.choice_of_isYes {i : Stimulus} (h : i.isYes = true) : i.choice = none := by
  cases i with
  | action a =>
    cases a with
    | answer => rfl
    | _ => cases h
  | response => rfl

/-- A question that was answered was asked. -/
theorem Yielded.asked {H : List (Moment V)} (h : Yielded H) : Asked H := by
  obtain ⟨A, m, C, rfl, ⟨asked, accepts⟩, quiet⟩ := h
  refine asked.append fun k hk => ?_
  rcases List.mem_cons.1 hk with rfl | hk
  · rw [Moment.accepts, Bool.and_eq_true] at accepts
    exact not_not_intro (Stimulus.choice_of_isYes accepts.1)
  · exact quiet k hk

/-- What is chosen, after one more moment. -/
theorem chosen_concat {H : List (Moment V)} {m : Moment V} {now : ClientState V}
    (before : m.before.toClientState = now) (now' : ClientState V) :
    chosen (H ++ [m]) now' = m.choice.getD (chosen H now) := by
  have began : ((H ++ [m]).head?.map (·.before.autoContinuePaused)).getD now'.autoContinuePaused =
      (H.head?.map (·.before.autoContinuePaused)).getD now.autoContinuePaused := by
    cases H with
    | nil => exact congrArg ClientState.autoContinuePaused before
    | cons => rfl
  rw [chosen, chosen, began, getLast?_filterMap_concat]
  cases m.choice <;> rfl

/-! ## One moment -/

/-- What a client does about the pause. The first arguments are the client before and after, what
happens, and the result. -/
inductive Weighs (o o' : ClientState V) (i : Stimulus) (r : Except ClientError (Option Outcome)) :
    Prop where
  | kept (asked : o'.awaitingConfirmation = o.awaitingConfirmation)
      (own : o'.pausedByConfirmation = o.pausedByConfirmation)
      (paused : o'.autoContinuePaused = o.autoContinuePaused) (choice : i.choice = none)
      (unasked : isAsking r = false) (denied : (i.isYes && isSent r) = false)
  | asked (settled : o.awaitingConfirmation = false) (asked : o'.awaitingConfirmation = true)
      (own : o'.pausedByConfirmation = !o.autoContinuePaused) (paused : o'.autoContinuePaused = true)
      (cancel : i = .action .cancel) (asks : isAsking r = true)
  | accepted (asked : o.awaitingConfirmation = true) (settled : o'.awaitingConfirmation = false)
      (own : o'.pausedByConfirmation = false)
      (paused : o'.autoContinuePaused = o.autoContinuePaused) (yes : i = .action (.answer true))
      (sent : isSent r = true) (unasked : isAsking r = false)
  | declined (asked : o.awaitingConfirmation = true) (settled : o'.awaitingConfirmation = false)
      (own : o'.pausedByConfirmation = false)
      (paused : o'.autoContinuePaused = (o.autoContinuePaused && !o.pausedByConfirmation))
      (no : i = .action (.answer false)) (unasked : isAsking r = false)
  | chose (choice : Bool) (asked : o'.awaitingConfirmation = o.awaitingConfirmation)
      (own : o'.pausedByConfirmation = o.pausedByConfirmation)
      (paused : o'.autoContinuePaused = choice) (chooses : i.choice = some choice)
      (unasked : isAsking r = false)

section Moments

variable [ProcessView V] {ch : Channels} {o o' : ClientState V}

/-- A snapshot leaves the pause and the question as they are. -/
theorem Received.weighs {s : Snapshot} {effects : List Effect} (h : Received ch s o o' effects) :
    o'.awaitingConfirmation = o.awaitingConfirmation ∧
      o'.pausedByConfirmation = o.pausedByConfirmation ∧
      o'.autoContinuePaused = o.autoContinuePaused := by
  cases h with
  | closed => exact ⟨rfl, rfl, rfl⟩
  | cancelled => exact ⟨rfl, rfl, rfl⟩
  | concluded _ _ conclusion => cases conclusion <;> exact ⟨rfl, rfl, rfl⟩

/-- Going on leaves the question as it is, and ends the pause. -/
theorem Resumed.weighs {x : Outcome} {effects : List Effect} (h : Resumed o x o' effects) :
    o'.awaitingConfirmation = o.awaitingConfirmation ∧
      o'.pausedByConfirmation = o.pausedByConfirmation ∧ o'.autoContinuePaused = false ∧
      isAsking (.ok (some x)) = false := by
  cases h with
  | stayed => exact ⟨rfl, rfl, rfl, rfl⟩
  | continued => exact ⟨rfl, rfl, rfl, rfl⟩

/-- Only a choice of the user, and a question, has to do with the pause. -/
theorem Reaction.weighs {i : Stimulus} {r : Except ClientError (Option Outcome)}
    {own : List Effect} (reaction : Reaction ch o i r o' own) (choice : i.choice = none)
    (other : ∀ accepted, i ≠ .action (.answer accepted)) : Weighs o o' i r := by
  have yes : i.isYes = false := by
    cases i with
    | action a =>
      cases a with
      | answer accepted => exact absurd rfl (other accepted)
      | _ => rfl
    | response => rfl
  have denied : (i.isYes && isSent r) = false := by
    rw [yes]
    rfl
  have kept (same : o'.awaitingConfirmation = o.awaitingConfirmation ∧
      o'.pausedByConfirmation = o.pausedByConfirmation ∧
      o'.autoContinuePaused = o.autoContinuePaused) (unasked : isAsking r = false) :
      Weighs o o' i r := .kept same.1 same.2.1 same.2.2 choice unasked denied
  cases reaction with
  | refused => exact kept ⟨rfl, rfl, rfl⟩ rfl
  | ignored => exact kept ⟨rfl, rfl, rfl⟩ rfl
  | started => exact kept ⟨rfl, rfl, rfl⟩ rfl
  | attached _ _ received => exact kept received.weighs rfl
  | edited => exact kept ⟨rfl, rfl, rfl⟩ rfl
  | navigated => exact kept ⟨rfl, rfl, rfl⟩ rfl
  | deferred => exact kept ⟨rfl, rfl, rfl⟩ rfl
  | asked _ _ settled => exact .asked settled rfl rfl rfl rfl rfl
  | cancelled => exact kept ⟨rfl, rfl, rfl⟩ rfl
  | answerLost accepted => exact absurd rfl (other accepted)
  | accepted => exact absurd rfl (other true)
  | acceptedLocked => exact absurd rfl (other true)
  | declined => exact absurd rfl (other false)
  | declinedResumed => exact absurd rfl (other false)
  | paused => cases choice
  | resumed => cases choice
  | received received => exact kept received.weighs rfl
  | rejected rejected => cases rejected <;> exact kept ⟨rfl, rfl, rfl⟩ rfl

/-- An answer settles the question that is open: with yes the pause stays, with no the pause of the
question ends. -/
theorem weighs_answer (h : ch.dispatchOpen = true) {log : List Effect} {waiting : List Request}
    (st : Standing log o waiting) (accepted : Bool) (kids : List (Client V)) :
    Weighs o ((Act.answer accepted).run ch ⟨o, kids⟩).client.toClientState
      (.action (.answer accepted)) (((Act.answer accepted).run ch ⟨o, kids⟩).result.map some) := by
  by_cases asked : o.awaitingConfirmation = true
  · -- a question is asked in a step that is shown
    have r := st.rests_of_asked asked
    have shown := r.asked asked
    obtain ⟨s, current⟩ := Option.isSome_iff_exists.1 (r.shown shown)
    have going : ¬ o.phase.isTerminal = true := by
      rw [shown]
      decide
    rw [Act.run_answer asked, if_neg going]
    cases accepted with
    | true =>
      rw [if_pos rfl, if_neg (by simp [r.unlocked]), Act.run_proceed h (o := o.settled) current]
      exact .accepted asked rfl rfl rfl rfl rfl rfl
    | false =>
      rw [if_neg Bool.false_ne_true]
      by_cases own : o.pausedByConfirmation = true
      · obtain ⟨x, o', effects, resumed, hrun⟩ := Act.run_resume h o.settled kids
        obtain ⟨settled, unowned, resumes, unasked⟩ := resumed.weighs
        rw [if_pos own, hrun]
        refine .declined asked settled unowned ?_ rfl unasked
        rw [own, Bool.not_true, Bool.and_false]
        exact resumes
      · rw [Bool.not_eq_true] at own
        rw [own, if_neg Bool.false_ne_true]
        exact .declined asked rfl rfl (by rw [own, Bool.not_false, Bool.and_true]; rfl) rfl rfl
  · unfold Act.answer
    rw [Act.run_bind_get, if_pos (by simp [asked]), Act.run_refuse]
    exact .kept rfl rfl rfl rfl rfl (Bool.and_false _)

/-- Whatever happens to a client that waits or rests, it weighs the pause. -/
theorem Client.face_weighs (h : ch.dispatchOpen = true) {c : Client V} {log : List Effect}
    {waiting : List Request} (st : Standing log c.toClientState waiting) (i : Stimulus) :
    Weighs c.toClientState (c.face ch i).turn.client.toClientState i (c.face ch i).turn.result := by
  obtain ⟨o, kids⟩ := c
  -- what chooses or answers is looked at in itself, all else through its reaction
  have other (choice : i.choice = none) (unanswered : ∀ b, i ≠ .action (.answer b)) :
      Weighs o (Client.face ⟨o, kids⟩ ch i).turn.client.toClientState i
        (Client.face ⟨o, kids⟩ ch i).turn.result := by
    obtain ⟨r, o', own, reaction, shows, -⟩ := Client.face_shows h ⟨o, kids⟩ i
    rw [shows.after, shows.result]
    exact reaction.weighs choice unanswered
  cases i with
  | response => exact other rfl nofun
  | action a =>
    cases a with
    | pause => exact .chose true rfl rfl rfl rfl rfl
    | resume =>
      obtain ⟨x, o', effects, resumed, hrun⟩ := Act.run_resume h o kids
      obtain ⟨asked, own, resumes, unasked⟩ := resumed.weighs
      have hturn : (Client.face ⟨o, kids⟩ ch (.action .resume)).turn =
          ⟨.ok (some x), ⟨o', kids⟩, effects⟩ := by
        refine (Act.run_some _ _).trans ?_
        rw [hrun]
        rfl
      rw [hturn]
      exact .chose false asked own resumes rfl unasked
    | answer accepted =>
      have hturn : (Client.face ⟨o, kids⟩ ch (.action (.answer accepted))).turn = _ :=
        Act.run_some _ _
      rw [hturn]
      exact weighs_answer h st accepted kids
    | _ => exact other rfl nofun

end Moments

/-! ## Whole runs -/

/-- The pause, and the question that is open, in terms of the history: a pause that is not the
question's is the user's choice, unless a question went over it; and while a question is open steps are
paused by the user, or by a question that was asked since the user's last choice. -/
structure Weighed (H : List (Moment V)) (o : ClientState V) : Prop where
  own : o.pausedByConfirmation = true ↔ Interrupted H
  asked : o.pausedByConfirmation = true → o.awaitingConfirmation = true
  held : (o.autoContinuePaused && !o.pausedByConfirmation) = true ↔
    (chosen H o = true ↔ ¬ Overridden H o)
  busy : o.awaitingConfirmation = true →
    (o.autoContinuePaused = true ↔ chosen H o = true ∨ Asked H)

section Weighed

variable {H : List (Moment V)} {o o' : ClientState V} {m : Moment V}

theorem asked_concat : Asked (H ++ [m]) ↔ m.asks = true ∨ m.choice = none ∧ Asked H := by
  rw [Asked, since_concat, Classical.not_not]
  rfl

theorem yielded_concat :
    Yielded (H ++ [m]) ↔ (Asked H ∧ m.accepts = true) ∨ m.choice = none ∧ Yielded H := by
  rw [Yielded, since_concat, Classical.not_not]
  rfl

theorem interrupted_concat :
    Interrupted (H ++ [m]) ↔ m.interrupts = true ∨ m.settles = false ∧ Interrupted H := by
  rw [Interrupted, since_concat, Bool.not_eq_true]
  rfl

theorem mistaken_concat :
    Mistaken (H ++ [m]) ↔ (Interrupted H ∧ m.choice = some true) ∨
      (m.choice = none ∧ m.accepts = false) ∧ Mistaken H := by
  rw [Mistaken, since_concat, not_or, Classical.not_not, Bool.not_eq_true]
  rfl

/-- Nothing that counts has happened. -/
theorem Weighed.kept (w : Weighed H o) (before : m.before.toClientState = o)
    (choice : m.choice = none) (unasked : m.asks = false) (denied : m.accepts = false)
    (unsettled : m.settles = false) (asked : o'.awaitingConfirmation = o.awaitingConfirmation)
    (own : o'.pausedByConfirmation = o.pausedByConfirmation)
    (paused : o'.autoContinuePaused = o.autoContinuePaused) : Weighed (H ++ [m]) o' := by
  have hchosen := chosen_concat (H := H) before o'
  have hinterrupts : m.interrupts = false := by rw [Moment.interrupts, unasked, Bool.false_and]
  refine ⟨?_, ?_, ?_, ?_⟩
  · simpa [interrupted_concat, hinterrupts, unsettled, own] using w.own
  · simpa [own, asked] using w.asked
  · simpa [Overridden, hchosen, yielded_concat, mistaken_concat, choice, denied, paused, own]
      using w.held
  · simpa [hchosen, asked_concat, choice, unasked, asked, paused] using w.busy

/-- A question is asked. None was open before, so the pause is the user's own. -/
theorem Weighed.ask (w : Weighed H o) (before : m.before.toClientState = o)
    (choice : m.choice = none) (asks : m.asks = true) (denied : m.accepts = false)
    (unsettled : m.settles = false) (settled : o.awaitingConfirmation = false)
    (asked : o'.awaitingConfirmation = true)
    (own : o'.pausedByConfirmation = !o.autoContinuePaused)
    (paused : o'.autoContinuePaused = true) : Weighed (H ++ [m]) o' := by
  have hchosen := chosen_concat (H := H) before o'
  have hinterrupts : m.interrupts = !o.autoContinuePaused := by
    rw [Moment.interrupts, asks, before, Bool.true_and]
  have unowned : o.pausedByConfirmation = false := Bool.eq_false_iff.2 fun h => by
    rw [w.asked h] at settled
    cases settled
  have free : ¬ Interrupted H := by
    rw [← w.own, unowned]
    exact Bool.false_ne_true
  have held := w.held
  rw [unowned] at held
  refine ⟨?_, ?_, ?_, ?_⟩
  · simp [interrupted_concat, hinterrupts, unsettled, free, own]
  · simp [asked]
  · simpa [Overridden, hchosen, yielded_concat, mistaken_concat, choice, denied, paused, own]
      using held
  · simp [asked_concat, asks, paused]

/-- The question is answered with yes. The pause that it leaves behind is the user's choice, or the
question's. -/
theorem Weighed.accept (w : Weighed H o) (before : m.before.toClientState = o)
    (choice : m.choice = none) (unasked : m.asks = false) (accepts : m.accepts = true)
    (settles : m.settles = true) (asked : o.awaitingConfirmation = true)
    (settled : o'.awaitingConfirmation = false) (own : o'.pausedByConfirmation = false)
    (paused : o'.autoContinuePaused = o.autoContinuePaused) : Weighed (H ++ [m]) o' := by
  have hchosen : chosen (H ++ [m]) o' = chosen H o := by
    rw [chosen_concat before o', choice, Option.getD_none]
  have hinterrupts : m.interrupts = false := by rw [Moment.interrupts, unasked, Bool.false_and]
  have hyielded : Yielded (H ++ [m]) ↔ Asked H := by
    simpa [yielded_concat, choice, accepts] using Yielded.asked
  have hmistaken : ¬ Mistaken (H ++ [m]) := by simp [mistaken_concat, choice, accepts]
  have hbusy := w.busy asked
  refine ⟨?_, ?_, ?_, ?_⟩
  · simp [interrupted_concat, hinterrupts, settles, own]
  · simp [own]
  · cases hc : chosen H o with
    | true => simp [Overridden, hchosen, hmistaken, paused, own, hc, hbusy]
    | false => simp [Overridden, hchosen, hyielded, hmistaken, paused, own, hc, hbusy]
  · simp [settled]

/-- The question is answered with no, and its own pause ends with it. -/
theorem Weighed.decline (w : Weighed H o) (before : m.before.toClientState = o)
    (choice : m.choice = none) (unasked : m.asks = false) (denied : m.accepts = false)
    (settles : m.settles = true) (settled : o'.awaitingConfirmation = false)
    (own : o'.pausedByConfirmation = false)
    (paused : o'.autoContinuePaused = (o.autoContinuePaused && !o.pausedByConfirmation)) :
    Weighed (H ++ [m]) o' := by
  have hchosen := chosen_concat (H := H) before o'
  have hinterrupts : m.interrupts = false := by rw [Moment.interrupts, unasked, Bool.false_and]
  refine ⟨?_, ?_, ?_, ?_⟩
  · simp [interrupted_concat, hinterrupts, settles, own]
  · simp [own]
  · simpa [Overridden, hchosen, yielded_concat, mistaken_concat, choice, denied, paused, own]
      using w.held
  · simp [settled]

/-- The user chooses. What happened before counts no longer, but for the question that is open. -/
theorem Weighed.choose {choice : Bool} (w : Weighed H o) (before : m.before.toClientState = o)
    (chooses : m.choice = some choice) (unasked : m.asks = false) (denied : m.accepts = false)
    (unsettled : m.settles = false) (asked : o'.awaitingConfirmation = o.awaitingConfirmation)
    (own : o'.pausedByConfirmation = o.pausedByConfirmation)
    (paused : o'.autoContinuePaused = choice) : Weighed (H ++ [m]) o' := by
  have hchosen := chosen_concat (H := H) before o'
  have hinterrupts : m.interrupts = false := by rw [Moment.interrupts, unasked, Bool.false_and]
  have hmistaken : Mistaken (H ++ [m]) ↔ o.pausedByConfirmation = true ∧ choice = true := by
    simp [mistaken_concat, chooses, w.own]
  refine ⟨?_, ?_, ?_, ?_⟩
  · simpa [interrupted_concat, hinterrupts, unsettled, own] using w.own
  · simpa [own, asked] using w.asked
  · cases choice <;>
      simp [Overridden, hchosen, yielded_concat, hmistaken, chooses, denied, paused, own]
  · simp [hchosen, asked_concat, chooses, unasked, paused]

/-- One moment keeps the account of the pause. -/
theorem Weighed.concat (w : Weighed H o) (before : m.before.toClientState = o)
    (after : m.turn.client.toClientState = o') (weighs : Weighs o o' m.stimulus m.turn.result) :
    Weighed (H ++ [m]) o' := by
  have hsettles : m.settles = (o.awaitingConfirmation && !o'.awaitingConfirmation) := by
    rw [Moment.settles, before, after]
  cases weighs with
  | kept asked own paused choice unasked denied =>
    rw [asked, Bool.and_not_self] at hsettles
    exact w.kept before choice unasked denied hsettles asked own paused
  | asked settled asked own paused cancel asks =>
    rw [settled, Bool.false_and] at hsettles
    have choice : m.choice = none := congrArg Stimulus.choice cancel
    have yes : m.stimulus.isYes = false := congrArg Stimulus.isYes cancel
    have denied : m.accepts = false := by rw [Moment.accepts, yes, Bool.false_and]
    exact w.ask before choice asks denied hsettles settled asked own paused
  | accepted asked settled own paused yes sent unasked =>
    rw [asked, settled] at hsettles
    have choice : m.choice = none := congrArg Stimulus.choice yes
    have accepts : m.accepts = true := by
      rw [Moment.accepts, sent, Bool.and_true]
      exact congrArg Stimulus.isYes yes
    exact w.accept before choice unasked accepts hsettles asked settled own paused
  | declined asked settled own paused no unasked =>
    rw [asked, settled] at hsettles
    have choice : m.choice = none := congrArg Stimulus.choice no
    have yes : m.stimulus.isYes = false := congrArg Stimulus.isYes no
    have denied : m.accepts = false := by rw [Moment.accepts, yes, Bool.false_and]
    exact w.decline before choice unasked denied hsettles settled own paused
  | chose choice asked own paused chooses unasked =>
    rw [asked, Bool.and_not_self] at hsettles
    have yes : m.stimulus.isYes = false := Bool.eq_false_iff.2 fun yes => by
      rw [Stimulus.choice_of_isYes yes] at chooses
      cases chooses
    have denied : m.accepts = false := by rw [Moment.accepts, yes, Bool.false_and]
    exact w.choose before chooses unasked denied hsettles asked own paused

end Weighed

section Runs

variable [ProcessView V] {ch : Channels} {H : List (Moment V)} {c : Client V}
  {waiting : List Request}

/-- The account of the pause holds at every point of a run. -/
theorem ClientRun.weighed (h : ch.dispatchOpen = true) (run : ClientRun ch H c waiting) :
    Weighed H c.toClientState := by
  induction run with
  | new id parent paused view =>
    refine ⟨iff_of_false Bool.false_ne_true not_since_nil, nofun, ?_, nofun⟩
    have free : ¬ Overridden [] (ClientState.fresh id parent paused view) := by
      rintro (⟨-, yielded⟩ | mistaken)
      · exact not_since_nil yielded
      · exact not_since_nil mistaken
    rw [iff_true_right free]
    exact iff_of_eq (congrArg (· = true) (Bool.and_true paused))
  | @act H c waiting run a ih =>
    exact ih.concat (m := c.face ch (.action a)) rfl rfl (Client.face_weighs h (run.standing h) _)
  | @answer H c older newer r run result ih =>
    exact ih.concat (m := c.face ch (.response result)) rfl rfl
      (Client.face_weighs h (run.standing h) _)
  | apart _ _ ih => exact ih

/-- Who decides whether steps go on by themselves. At every point of a run of a client at which no
question is open, steps are paused exactly as the user chose last, unless a question went over that
choice: the user chose that steps go on, and a question asked since was answered with yes; or the user
chose the pause while a question was open that had found the steps going on, and no question was
answered with yes since. -/
theorem paused_eq_chosen_iff (h : ch.dispatchOpen = true) (run : ClientRun ch H c waiting)
    (settled : c.awaitingConfirmation = false) :
    c.autoContinuePaused = chosen H c.toClientState ↔ ¬ Overridden H c.toClientState := by
  obtain ⟨-, asked, held, -⟩ := run.weighed h
  have unowned : c.pausedByConfirmation = false := Bool.eq_false_iff.2 fun own => by
    rw [asked own] at settled
    cases settled
  rw [unowned, Bool.not_false, Bool.and_true] at held
  cases hchosen : chosen H c.toClientState with
  | true => rw [held, hchosen, iff_true_left rfl]
  | false =>
    rw [hchosen, iff_false_left Bool.false_ne_true, Classical.not_not] at held
    rw [← held, Bool.not_eq_true]

end Runs

/-- A cancel that the user has confirmed is rejected, and the user decides that steps go on. -/
def orderResumed : Moment Recording :=
  (orderReturned (.error (.rejected "Too late"))).turn.client.face .open (.action .resume)

theorem run_orderResumed :
    ClientRun .open
      [orderStarted, orderBrought false, orderQuestioned, orderWithdrawn,
        orderReturned (.error (.rejected "Too late")), orderResumed]
      orderResumed.turn.client [] :=
  (run_orderReturned (.error (.rejected "Too late"))).act .resume

/-- The user's choice stands: no question went over it. -/
theorem paused_eq_chosen_orderResumed :
    orderResumed.turn.client.awaitingConfirmation = false ∧
      ¬ Overridden [orderStarted, orderBrought false, orderQuestioned, orderWithdrawn,
        orderReturned (.error (.rejected "Too late")), orderResumed]
        orderResumed.turn.client.toClientState :=
  ⟨rfl, (paused_eq_chosen_iff rfl run_orderResumed rfl).1 rfl⟩

/-- The user pauses while the question is open. -/
def orderPaused : Moment Recording := orderQuestioned.turn.client.face .open (.action .pause)

/-- Then the question is answered with no. -/
def orderDeclined : Moment Recording := orderPaused.turn.client.face .open (.action (.answer false))

/-- After a cancel that the user has confirmed and the server has rejected, steps are paused, though the
user never chose that; and after a pause that the user chose while a question was open that was then
answered with no, steps go on. -/
theorem paused_ne_chosen_orderRejected :
    (∃ H c, ClientRun .open H c ([] : List Request) ∧ c.phase = .interacting ∧
      c.awaitingConfirmation = false ∧ c.autoContinuePaused = true ∧
      chosen H (c : Client Recording).toClientState = false) ∧
    ∃ H c, ClientRun .open H c ([] : List Request) ∧ c.phase = .interacting ∧
      c.awaitingConfirmation = false ∧ c.autoContinuePaused = false ∧
      chosen H (c : Client Recording).toClientState = true := by
  refine ⟨⟨_, _, run_orderReturned (.error (.rejected "Too late")), rfl, rfl, rfl, rfl⟩,
    [orderStarted, orderBrought false, orderQuestioned, orderPaused, orderDeclined],
    orderDeclined.turn.client, ?_, rfl, rfl, rfl, rfl⟩
  exact (((run_orderBrought false).act .cancel).act .pause).act (.answer false)

end Stepwise
