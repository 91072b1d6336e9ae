/-
# Refused operations

An operation that is refused, or ignored for a reason, leaves the client as it was, and nothing behind:
whatever can refuse it is asked before anything is done. The edits of a submission are looked at before
the first of them is noted, so that all of them are noted or none.

* `Refused`, `UserAction.isOperation` : the refusals, and the actions that take note of nothing before them;
* `Reaction.of_refused` : a client that refuses does nothing;
* `Client.Records` : one edit after the other is noted;
* `UserAction.submit_of_sent` : a submission is its edits, and a submission without edits after them;
* `refused_unchanged` : what a refusal leaves.
-/
import Stepwise.Proofs.Client.Accepting
import Stepwise.Proofs.Client.Branching
import Stepwise.Proofs.Client.Keeping

namespace Stepwise

variable {V : Type} [ProcessView V]

/-! ## Refusals -/

/-- An action comes to nothing: there is a reason to ignore it, or an error that does not come from a
request that nobody takes. -/
def Refused (r : Except ClientError (Option Outcome)) : Prop :=
  (∃ reason, r = .ok (some (.ignored reason))) ∨ ∃ e, r = .error e ∧ e ≠ .channelClosed

/-- The operations on a process. The answer to a question is none: it takes the question away, whatever
follows. Pausing and going on are none either: they note the user's choice first. -/
def UserAction.isOperation : UserAction → Bool
  | .answer _ | .pause | .resume => false
  | _ => true

/-- A client that refuses an operation does nothing. -/
theorem Reaction.of_refused {ch : Channels} {o o' : ClientState V} {a : UserAction}
    {r : Except ClientError (Option Outcome)} {own : List Effect}
    (reaction : Reaction ch o (.action a) r o' own) (operation : a.isOperation = true)
    (refused : Refused r) : o' = o ∧ own = [] := by
  rcases refused with ⟨reason, hr⟩ | ⟨e, hr, -⟩
  · cases reaction with
    | refused | ignored => exact ⟨rfl, rfl⟩
    | declined | declinedResumed | resumed => cases operation
    | _ => cases hr
  · cases reaction with
    | refused | ignored => exact ⟨rfl, rfl⟩
    | answerLost => cases operation
    | _ => cases hr

/-! ## Whoever listens -/

namespace Act.Unhindered

omit [ProcessView V] in
theorem ensureOpen : Unhindered (Act.ensureOpen : Act V Unit) :=
  .bind .get fun _ => .ite (.refuse _) (.pure _)

omit [ProcessView V] in
theorem ensureInteracting (operation : Operation) :
    Unhindered (Act.ensureInteracting operation : Act V Unit) :=
  .bind .get fun _ => .ite (.refuse _) (.pure _)

omit [ProcessView V] in
theorem navigate (operation : Operation) {step : Act V Outcome} (h : Unhindered step) :
    Unhindered (Act.navigate operation step) :=
  .bind .ensureOpen fun _ => .bind .get fun _ => .ite (.pure _)
    (.bind (.ensureInteracting operation) fun _ => .ite (.pure _) h)

omit [ProcessView V] in
theorem recordEdit (name : String) (value : Value) :
    Unhindered (Act.recordEdit name value : Act V Outcome) := by
  refine .bind .ensureOpen fun _ => .bind .get fun c => .ite (.pure _)
    (.bind (.ensureInteracting _) fun _ => ?_)
  cases c.current.bind (·.edit? name value) with
  | none => exact .refuse _
  | some s => exact .bind (.modify _) fun _ => .pure _

omit [ProcessView V] in
theorem recordEdits (edits : List (String × Value)) :
    Unhindered (Act.recordEdits edits : Act V Unit) := by
  induction edits with
  | nil => exact .pure ()
  | cons e rest ih => exact .bind (.recordEdit e.1 e.2) fun _ => ih

theorem start (d : Descriptor) : Unhindered (Act.start d : Act V Outcome) :=
  .bind .get fun _ => .ite (.refuse _) (.bind (.modify _) fun _ => .bind (.emit _) fun _ =>
    .bind (.send _) fun _ => .bind (.modify _) fun _ => .pure _)

theorem submit (edits : List (String × Value)) (event : Interaction) :
    Unhindered (Act.submit edits event : Act V Outcome) := by
  refine .navigate _ (.bind .get fun c => ?_)
  cases edits.find? fun e => c.current.any fun s => (s.parameter? e.1).isNone with
  | some e => exact .refuse _
  | none => exact .bind (.recordEdits edits) fun _ => .proceed _ _

theorem cancel : Unhindered (Act.cancel : Act V Outcome) := by
  refine .bind .ensureOpen fun _ => .bind .get fun c => .ite (.pure _) (.ite (.refuse _) (.ite
    (.bind (.modify _) fun _ => .pure _) (.ite (.pure _) ?_)))
  cases c.current with
  | none => exact .refuse _
  | some s => exact .ite (.proceed _ _) (.bind (.modify _) fun _ => .bind (.tell _) fun _ => .pure _)

theorem resume : Unhindered (Act.resume : Act V Outcome) :=
  .bind (.modify _) fun _ => .bind .get fun _ => .ite (.proceed _ _) (.pure _)

theorem answer (accepted : Bool) : Unhindered (Act.answer accepted : Act V Outcome) :=
  .bind .get fun _ => .ite (.refuse _) (.bind (.modify _) fun _ => .bind .ensureOpen fun _ =>
    .ite (.ite (.bind (.modify _) fun _ => .pure _) (.proceed _ _)) (.ite .resume (.pure _)))

end Act.Unhindered

/-- Whatever the user does, the client does what it would do if requests were taken, or is refused
because they are not. -/
theorem UserAction.unhindered_act (a : UserAction) : Act.Unhindered (a.act : Act V (Option Outcome)) := by
  have passes {a : Act V Outcome} (h : Act.Unhindered a) :
      Act.Unhindered (a >>= fun x => pure (some x)) := .bind h fun _ => .pure _
  cases a with
  | start d => exact passes (.start d)
  | attach s => exact .bind (.attach s) fun _ => .pure _
  | edit name value => exact passes (.recordEdit name value)
  | submit edits event => exact passes (.submit edits event)
  | advance => exact passes (.navigate _ (.bind .get fun _ => .ite (.proceed _ _) (.pure _)))
  | rollback => exact passes (.navigate _ (.bind .get fun _ => .ite (.proceed _ _) (.pure _)))
  | reload => exact passes (.navigate _ (.proceed _ _))
  | cancel => exact passes .cancel
  | answer accepted => exact passes (.answer accepted)
  | pause => exact .bind (.modify _) fun _ => .pure _
  | resume => exact passes .resume

/-- A client that refuses an operation stays as it is, its children with it, and leaves nothing behind. -/
theorem UserAction.unchanged_of_refused {a : UserAction} (operation : a.isOperation = true)
    (ch : Channels) (c : Client V) (refused : Refused (a.act.run ch c).result) :
    (a.act.run ch c).client = c ∧ (a.act.run ch c).effects = [] := by
  obtain ⟨o, kids⟩ := c
  rcases a.unhindered_act ch ⟨o, kids⟩ with untaken | same
  · rw [untaken] at refused
    rcases refused with ⟨_, h⟩ | ⟨e, h, he⟩
    · cases h
    · exact absurd (Except.error.inj h).symm he
  · rw [same] at refused ⊢
    obtain ⟨r, o', before, after, reaction, -, hrun⟩ :=
      Stimulus.follows_run (show ch.taking.dispatchOpen = true from rfl) (.action a) o kids
    have hrun : a.act.run ch.taking ⟨o, kids⟩ = _ := hrun
    rw [hrun] at refused ⊢
    obtain ⟨rfl, hown⟩ := reaction.of_refused operation refused
    -- no panel was opened, so no child is new
    obtain ⟨hparts, rfl⟩ := List.append_eq_nil_iff.1 hown
    obtain ⟨rfl, hopened⟩ := List.append_eq_nil_iff.1 hparts
    have alone : Stimulus.offspring o' (.action a) = [] := by
      cases hkids : Stimulus.offspring o' (.action a) with
      | nil => rfl
      | cons s rest =>
        rw [hkids] at hopened
        cases hopened
    rw [alone, newcomers, births, spawnEffects]
    simp

/-! ## All edits or none -/

/-- The step that is shown has no parameter with the name. -/
def ClientState.Lacks (o : ClientState V) (name : String) : Prop :=
  o.current.bind (·.parameter? name) = none

omit [ProcessView V] in
/-- Edits go through only if all names are known. -/
theorem Snapshot.isSome_parameter?_of_editAll {edits : List (String × Value)} {s t : Snapshot}
    (h : s.editAll edits = some t) {e : String × Value} (he : e ∈ edits) :
    (s.parameter? e.1).isSome = true := by
  induction edits generalizing s with
  | nil => cases he
  | cons first rest ih =>
    obtain ⟨name, value⟩ := first
    obtain ⟨u, hu, hrest⟩ := Option.bind_eq_some_iff.1 h
    rcases List.mem_cons.1 he with rfl | he
    · rw [← isSome_edit? s name value, hu]
      rfl
    · rw [← isSome_parameter?_edit hu]
      exact ih hrest he

/-- Some edits, noted one after the other without leaving anything behind. -/
inductive Client.Records (ch : Channels) : Client V → List (String × Value) → Client V → Prop where
  | nil (c : Client V) : Records ch c [] c
  | cons {c d d' : Client V} {name : String} {value : Value} {rest : List (String × Value)} :
      (UserAction.edit name value).act.run ch c = ⟨.ok (some .recorded), d, []⟩ →
      Records ch d rest d' → Records ch c ((name, value) :: rest) d'

/-- Edits of known names are noted one after the other. -/
theorem Client.records_of_editAll {ch : Channels} {edits : List (String × Value)} {o : ClientState V}
    {s t : Snapshot} (offers : o.Offers) (current : o.current = some s)
    (edited : s.editAll edits = some t) (kids : List (Client V)) :
    Client.Records ch ⟨o, kids⟩ edits ⟨{ o with current := some t }, kids⟩ := by
  induction edits generalizing o s with
  | nil =>
    obtain rfl : s = t := Option.some.inj edited
    rw [← current]
    exact .nil _
  | cons e rest ih =>
    obtain ⟨name, value⟩ := e
    obtain ⟨u, hu, hrest⟩ := Option.bind_eq_some_iff.1 edited
    refine .cons ?_ (ih (o := { o with current := some u })
      ⟨offers.shown, offers.unlocked, offers.settled⟩ rfl hrest)
    rw [UserAction.act, Act.run_some, Act.run_recordEdit offers.shown offers.unlocked current hu kids]
    rfl

namespace Act

variable {ch : Channels} {o : ClientState V} {s : Snapshot} {edits : List (String × Value)}

/-- A submission of known names notes its edits and goes on. -/
theorem run_submit (offers : o.Offers) (current : o.current = some s) {t : Snapshot}
    (edited : s.editAll edits = some t) (event : Interaction) (kids : List (Client V)) :
    run (submit edits event) ch ⟨o, kids⟩ =
      run (proceed .execute (some event)) ch ⟨{ o with current := some t }, kids⟩ := by
  have known : edits.find? (fun e => o.current.any fun s => (s.parameter? e.1).isNone) = none := by
    refine List.find?_eq_none.2 fun e he => ?_
    have := Snapshot.isSome_parameter?_of_editAll edited he
    rw [current, Option.any_some, Bool.not_eq_true, Option.isNone_eq_false_iff]
    exact this
  unfold submit
  rw [run_navigate offers, run_bind_get, known]
  exact run_bind_of_ok (run_recordEdits offers.shown offers.unlocked current edited kids) _

/-- A submission with an unknown name is refused for one. -/
theorem run_submit_of_lacks (offers : o.Offers) (lacks : ∃ e ∈ edits, o.Lacks e.1)
    (event : Interaction) (kids : List (Client V)) :
    ∃ e ∈ edits, o.Lacks e.1 ∧
      (run (submit edits event) ch ⟨o, kids⟩).result = .error (.unknownParameter e.1) := by
  unfold submit
  rw [run_navigate offers, run_bind_get]
  cases unknown : edits.find? fun e => o.current.any fun s => (s.parameter? e.1).isNone with
  | some e =>
    refine ⟨e, List.mem_of_find?_eq_some unknown, ?_, rfl⟩
    have lacked := List.find?_some unknown
    obtain ⟨s, current, hnone⟩ := (Option.any_eq_true _ _).1 lacked
    rw [ClientState.Lacks, current]
    exact Option.isNone_iff_eq_none.1 hnone
  | none =>
    obtain ⟨e, he, hlacks⟩ := lacks
    cases current : o.current with
    | some s =>
      have := List.find?_eq_none.1 unknown e he
      rw [ClientState.Lacks, current, Option.bind_some] at hlacks
      simp [current, hlacks] at this
    | none =>
      -- without a step every name is unknown, and the first edit is refused
      cases edits with
      | nil => cases he
      | cons first rest =>
        refine ⟨first, List.mem_cons_self, by rw [ClientState.Lacks, current]; rfl, ?_⟩
        dsimp only
        rw [run_bind_of_error
          (run_recordEdits_none offers.shown offers.unlocked current first rest kids)]

end Act

/-- A submission of which one name is unknown comes to nothing. -/
theorem UserAction.refused_submit_of_lacks (ch : Channels) (c : Client V)
    {edits : List (String × Value)} (lacks : ∃ e ∈ edits, c.Lacks e.1) (event : Interaction) :
    Refused ((UserAction.submit edits event).act.run ch c).result := by
  obtain ⟨o, kids⟩ := c
  rw [UserAction.act, Act.run_some]
  have submits : Act.Declines ch o kids (Act.submit edits event) ∨ _ := Act.declines_submit edits event
  rcases submits with ⟨r, hrun, taken, ⟨e, rfl⟩ | ⟨reason, rfl⟩⟩ | ⟨s, t, offers, current, edited, -⟩
  · rw [hrun]
    exact .inr ⟨e, rfl, fun he => taken (congrArg _ he)⟩
  · rw [hrun]
    exact .inl ⟨reason, rfl⟩
  · obtain ⟨e, he, hlacks⟩ := lacks
    have := Snapshot.isSome_parameter?_of_editAll edited he
    rw [ClientState.Lacks, current, Option.bind_some] at hlacks
    rw [hlacks] at this
    cases this

/-- A submission that is sent is its edits, one after the other, and after them a submission without
edits. -/
theorem UserAction.submit_of_sent {ch : Channels} {c : Client V} {edits : List (String × Value)}
    {event : Interaction}
    (sent : ((UserAction.submit edits event).act.run ch c).result = .ok (some .sent)) :
    ∃ d s, Client.Records ch c edits d ∧ d.current = some s ∧
      (UserAction.submit edits event).act.run ch c = (UserAction.submit [] event).act.run ch d ∧
      (UserAction.submit edits event).act.run ch c =
        ⟨.ok (some .sent), ⟨d.toClientState.proceeded s .execute, d.children⟩,
          c.sendEffects (.continue (Act.outgoing s) .execute (some event))⟩ := by
  obtain ⟨o, kids⟩ := c
  simp only [UserAction.act, Act.run_some] at sent ⊢
  have submits : Act.Declines ch o kids (Act.submit edits event) ∨ _ := Act.declines_submit edits event
  rcases submits with ⟨r, hrun, -, ⟨e, rfl⟩ | ⟨reason, rfl⟩⟩ | ⟨s, t, offers, current, edited, hrun⟩
  · rw [hrun] at sent
    cases sent
  · rw [hrun] at sent
    cases sent
  have shows : ({ o with current := some t } : ClientState V).Offers :=
    ⟨offers.shown, offers.unlocked, offers.settled⟩
  refine ⟨⟨{ o with current := some t }, kids⟩, t,
    Client.records_of_editAll offers current edited kids, rfl, ?_, ?_⟩
  · rw [hrun, Act.run_submit shows rfl rfl]
  · rw [hrun] at sent ⊢
    -- what was sent would have been sent to whoever takes requests
    rcases Act.Unhindered.proceed .execute (some event) ch
      (⟨{ o with current := some t }, kids⟩ : Client V) with untaken | same
    · rw [untaken] at sent
      cases sent
    · rw [same, Act.run_proceed (show ch.taking.dispatchOpen = true from rfl) rfl]
      rfl

/-! ## What a refusal leaves -/

/-- **Refused operations change nothing.** Whatever the client and whoever listens: an operation that is
refused leaves the client and its children as they were, and nothing behind. A submission with an unknown
name is refused, for such a name if the user may act. A submission that goes through is its edits, noted
one after the other, and one request to execute the step, with the event. -/
theorem refused_unchanged (ch : Channels) (c : Client V) :
    (∀ a : UserAction, a.isOperation = true → Refused (a.act.run ch c).result →
      (a.act.run ch c).client = c ∧ (a.act.run ch c).effects = []) ∧
    (∀ edits event, (∃ e ∈ edits, c.Lacks e.1) →
      Refused ((UserAction.submit edits event).act.run ch c).result ∧
      ((UserAction.submit edits event).act.run ch c).client = c ∧
      ((UserAction.submit edits event).act.run ch c).effects = [] ∧
      (c.Offers → ∃ e ∈ edits, c.Lacks e.1 ∧
        ((UserAction.submit edits event).act.run ch c).result = .error (.unknownParameter e.1))) ∧
    ∀ edits event, ((UserAction.submit edits event).act.run ch c).result = .ok (some .sent) →
      ∃ d s, Client.Records ch c edits d ∧ d.current = some s ∧
        (UserAction.submit edits event).act.run ch c = (UserAction.submit [] event).act.run ch d ∧
        (UserAction.submit edits event).act.run ch c =
          ⟨.ok (some .sent), ⟨d.toClientState.proceeded s .execute, d.children⟩,
            c.sendEffects (.continue (Act.outgoing s) .execute (some event))⟩ := by
  obtain ⟨o, kids⟩ := c
  refine ⟨fun a operation => a.unchanged_of_refused operation ch _, fun edits event lacks => ?_,
    fun edits event => UserAction.submit_of_sent⟩
  have refused := UserAction.refused_submit_of_lacks ch ⟨o, kids⟩ lacks event
  have unchanged := UserAction.unchanged_of_refused rfl ch ⟨o, kids⟩ refused
  refine ⟨refused, unchanged.1, unchanged.2, fun offers => ?_⟩
  obtain ⟨e, he, hlacks, hresult⟩ := Act.run_submit_of_lacks offers lacks event kids
  refine ⟨e, he, hlacks, ?_⟩
  rw [UserAction.act, Act.run_some, hresult]
  rfl

/-- A form that asks for the street only does not take the postcode, nor the street that comes with it. -/
theorem refused_unchanged_postcode :
    ∃ c : Client Recording, c.Offers ∧
      ((UserAction.submit [("street", .str "Main"), ("postcode", .str "10115")]
        ⟨.action, "ok"⟩).act.run .open c).client = c ∧
      ((UserAction.submit [("street", .str "Main"), ("postcode", .str "10115")]
        ⟨.action, "ok"⟩).act.run .open c).result = .error (.unknownParameter "postcode") := by
  have offers : ((orderBrought false).turn.client).Offers := ⟨rfl, rfl, rfl⟩
  obtain ⟨-, unchanged, -, names⟩ := (refused_unchanged .open (orderBrought false).turn.client).2.1
    [("street", .str "Main"), ("postcode", .str "10115")] ⟨.action, "ok"⟩
    ⟨("postcode", .str "10115"), by simp, rfl⟩
  refine ⟨_, offers, unchanged, ?_⟩
  obtain ⟨e, he, hlacks, hresult⟩ := names offers
  rcases List.mem_cons.1 he with rfl | he
  · cases (show some _ = none from hlacks)
  · rw [List.mem_singleton.1 he] at hresult
    exact hresult

end Stepwise
