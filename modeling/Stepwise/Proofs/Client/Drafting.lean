/-
# What requests carry

A client notes in order which snapshots it adopts, which edits its user makes, and which requests it
sends. From these notes alone one can tell what a request carries: the snapshot that was adopted last,
without children, with the edits that were made since, and with the marks of those that no request has
carried yet.

* `Note`, `ledger` : the notes;
* `Drafted` : the current snapshot is what the notes tell;
* `Enters`, `Client.face_enters` : what a moment makes of the snapshot, and how this is noted;
* `Course.noted` : what is noted in the course of a client, as long as its requests are taken;
* `carries_draft` : what requests carry, and which values stay.
-/
import Stepwise.Proofs.Client.Cancelling
import Stepwise.Proofs.Client.Display
import Stepwise.Proofs.Client.Keeping
import Stepwise.Proofs.Client.Lifecycle

namespace Stepwise

variable {V : Type}

/-! ## Notes -/

/-- What a client notes about its snapshot. -/
inductive Note where
  | adopted (s : Snapshot)
  | edited (name : String) (value : Value)
  | sent (r : Request)

namespace Note

/-- The snapshot that was adopted. -/
def snapshot? : Note → Option Snapshot
  | .adopted s => some s
  | _ => none

/-- The edit. -/
def edit? : Note → Option (String × Value)
  | .edited name value => some (name, value)
  | _ => none

/-- The snapshot was sent on. -/
def isContinue : Note → Bool
  | .sent (.continue ..) => true
  | _ => false

end Note

/-- What the notes tell about the snapshot before them: all edits; if it was sent on; and which names
were edited after it was sent on last. -/
def Draft.ofNotes (notes : List Note) : Draft where
  edits := notes.filterMap Note.edit?
  sent := notes.any Note.isContinue
  recent := ((notes.reverse.takeWhile (!·.isContinue)).filterMap Note.edit?).map (·.1)

namespace Moment

/-- What is noted before a request of this moment: the snapshot that comes, or the edits. -/
def preamble (m : Moment V) : List Note :=
  m.comes.toList.map .adopted ++ m.edits.map fun e => .edited e.1 e.2

/-- What is noted in this moment. -/
def notes (m : Moment V) : List Note := m.preamble ++ m.requests.map .sent

end Moment

/-- All notes. -/
def ledger (H : List (Moment V)) : List Note := H.flatMap Moment.notes

namespace Draft

theorem ofNotes_edited (notes : List Note) (name : String) (value : Value) :
    ofNotes (notes ++ [.edited name value]) = (ofNotes notes).edited name value := by
  simp [ofNotes, edited, Note.edit?, Note.isContinue]

theorem ofNotes_continue (notes : List Note) (s : Snapshot) (mode : Mode)
    (event : Option Interaction) :
    ofNotes (notes ++ [.sent (.continue s mode event)]) = (ofNotes notes).passed := by
  simp [ofNotes, passed, Note.edit?, Note.isContinue]

theorem ofNotes_start (notes : List Note) (d : Descriptor) :
    ofNotes (notes ++ [.sent (.start d)]) = ofNotes notes := by
  simp [ofNotes, Note.edit?, Note.isContinue, List.filterMap_cons]

end Draft

/-- The current snapshot is what the notes tell: the snapshot that was adopted last, with what was done
since. -/
inductive Drafted : List Note → Option Snapshot → Prop where
  | none {notes : List Note} (h : ∀ e ∈ notes, e.snapshot? = .none) : Drafted notes .none
  | some (before : List Note) (base : Snapshot) {since : List Note}
      (h : ∀ e ∈ since, e.snapshot? = .none) :
    Drafted (before ++ .adopted base :: since) (.some ((Draft.ofNotes since).snapshot base))

namespace Drafted

variable {notes : List Note} {s t : Snapshot}

theorem quiet_concat {last : Note} (quiet : ∀ e ∈ notes, e.snapshot? = .none)
    (h : last.snapshot? = .none) : ∀ e ∈ notes ++ [last], e.snapshot? = .none := by
  intro e he
  rcases List.mem_append.1 he with he | he
  · exact quiet e he
  · rw [List.mem_singleton.1 he, h]

/-- A snapshot that was just adopted is as it came. -/
theorem adopted (notes : List Note) (s : Snapshot) : Drafted (notes ++ [.adopted s]) (.some s) := by
  have h : Drafted (notes ++ [.adopted s]) (.some ((Draft.ofNotes []).snapshot s)) :=
    .some notes s nofun
  rwa [show Draft.ofNotes [] = Draft.new from rfl, Draft.snapshot_new] at h

theorem edited {name : String} {value : Value} (d : Drafted notes (.some s))
    (h : s.edit? name value = .some t) : Drafted (notes ++ [.edited name value]) (.some t) := by
  generalize hs : Option.some s = current at d
  cases d with
  | none => cases hs
  | @some before base since quiet =>
    obtain rfl := Option.some.inj hs
    rw [Draft.edit?_snapshot h, ← Draft.ofNotes_edited, List.append_assoc, List.cons_append]
    exact .some before base (quiet_concat quiet rfl)

theorem editedAll {edits : List (String × Value)} (d : Drafted notes (.some s))
    (h : s.editAll edits = .some t) :
    Drafted (notes ++ edits.map fun e => .edited e.1 e.2) (.some t) := by
  induction edits generalizing notes s with
  | nil =>
    obtain rfl : s = t := Option.some.inj h
    rwa [List.map_nil, List.append_nil]
  | cons e rest ih =>
    obtain ⟨u, hu, hrest⟩ := Option.bind_eq_some_iff.1 h
    have hall := ih (d.edited hu) hrest
    rwa [List.append_assoc] at hall

/-- A process that is started has no snapshot yet. -/
theorem started {current : Option Snapshot} (h : Drafted notes current) (d : Descriptor) :
    Drafted (notes ++ [.sent (.start d)]) current := by
  cases h with
  | none quiet => exact .none (quiet_concat quiet rfl)
  | @some before base since quiet =>
    rw [← Draft.ofNotes_start since d, List.append_assoc, List.cons_append]
    exact .some before base (quiet_concat quiet rfl)

/-- Once a snapshot is sent on the marks are taken off. -/
theorem passed (d : Drafted notes (.some s)) (r : Snapshot) (mode : Mode)
    (event : Option Interaction) :
    Drafted (notes ++ [.sent (.continue r mode event)]) (.some s.clearModified) := by
  generalize hs : Option.some s = current at d
  cases d with
  | none => cases hs
  | @some before base since quiet =>
    obtain rfl := Option.some.inj hs
    rw [Draft.clearModified_snapshot, ← Draft.ofNotes_continue since r mode event,
      List.append_assoc, List.cons_append]
    exact .some before base (quiet_concat quiet rfl)

end Drafted

/-! ## One moment -/

/-- What a moment makes of the current snapshot: the snapshot before and after, the one that comes, the
edits, and the requests. -/
inductive Enters (current current' : Option Snapshot) :
    Option Snapshot → List (String × Value) → List Request → Prop where
  | kept (same : current' = current) : Enters current current' none [] []
  | started (d : Descriptor) (same : current' = current) : Enters current current' none [] [.start d]
  | edited (name : String) (value : Value) {s t : Snapshot} (before : current = some s)
      (edited : s.edit? name value = some t) (after : current' = some t) :
    Enters current current' none [(name, value)] []
  | passed {edits : List (String × Value)} {s t : Snapshot} (mode : Mode)
      (event : Option Interaction) (before : current = some s) (edited : s.editAll edits = some t)
      (after : current' = some t.clearModified) :
    Enters current current' none edits [.continue (Act.outgoing t) mode event]
  | adopted (s : Snapshot) (after : current' = some s) : Enters current current' (some s) [] []
  | adoptedPassed (s : Snapshot) (mode : Mode) (event : Option Interaction)
      (after : current' = some s.clearModified) :
    Enters current current' (some s) [] [.continue (Act.outgoing s) mode event]

/-- A snapshot that comes is taken, whatever is sent on then. -/
theorem Enters.values {current current' : Option Snapshot} {edits : List (String × Value)}
    {requests : List Request} {comes : Option Snapshot}
    (enters : Enters current current' comes edits requests) {s : Snapshot} (h : comes = some s) :
    current'.map Snapshot.values = some s.values := by
  cases enters with
  | kept | started | edited | passed => cases h
  | adopted _ after =>
    cases h
    rw [after]
    rfl
  | adoptedPassed _ mode event after =>
    cases h
    rw [after, Option.map_some, Snapshot.values_clearModified]

/-- What a moment adds to the notes fits what it makes of the snapshot, and a request of the moment
carries what the notes before it tell. -/
theorem Enters.drafted {current current' comes : Option Snapshot} {edits : List (String × Value)}
    {requests : List Request} (enters : Enters current current' comes edits requests)
    {notes : List Note} (d : Drafted notes current) :
    let before := notes ++ (comes.toList.map .adopted ++ edits.map fun e => .edited e.1 e.2)
    Drafted (before ++ requests.map .sent) current' ∧
      ∀ s mode event, .continue s mode event ∈ requests →
        ∃ t, Drafted before (some t) ∧ s = Act.outgoing t := by
  intro before
  cases enters with
  | kept same =>
    refine ⟨?_, nofun⟩
    simpa [before, same] using d
  | started descriptor same =>
    refine ⟨?_, fun s mode event hmem => by simp at hmem⟩
    simpa [before, same] using d.started descriptor
  | edited name value current edited after =>
    rw [current] at d
    refine ⟨?_, nofun⟩
    simpa [before, after] using d.edited edited
  | @passed edits s t mode event current edited after =>
    rw [current] at d
    have hbefore : Drafted before (some t) := by simpa [before] using d.editedAll edited
    refine ⟨?_, fun s' mode' event' hmem => ?_⟩
    · rw [after]
      exact hbefore.passed _ mode event
    · cases List.mem_singleton.1 hmem
      exact ⟨t, hbefore, rfl⟩
  | adopted s after =>
    refine ⟨?_, nofun⟩
    simpa [before, after] using Drafted.adopted notes s
  | adoptedPassed s mode event after =>
    have hbefore : Drafted before (some s) := by simpa [before] using Drafted.adopted notes s
    refine ⟨?_, fun s' mode' event' hmem => ?_⟩
    · rw [after]
      exact hbefore.passed _ mode event
    · cases List.mem_singleton.1 hmem
      exact ⟨s, hbefore, rfl⟩

section Moments

variable [ProcessView V] {ch : Channels} {o o' : ClientState V}

/-- A client that goes on enters what the moment makes of its snapshot; one that ends sends nothing. -/
def Enters.OrEnds (current : Option Snapshot) (o' : ClientState V) (comes : Option Snapshot)
    (edits : List (String × Value)) (requests : List Request) : Prop :=
  Enters current o'.current comes edits requests ∨ o'.phase.isTerminal = true ∧ requests = []

theorem Received.enters {s : Snapshot} {effects : List Effect} (h : Received ch s o o' effects)
    (going : o.phase.isTerminal = false) :
    Enters.OrEnds o.current o' (some s) [] (requestsOf effects) := by
  cases h with
  | closed ended => rw [going] at ended; cases ended
  | cancelled => exact .inl (.adoptedPassed s .cancel none rfl)
  | concluded _ _ conclusion =>
    rw [requestsOf_append, requestsOf_callEffects, List.nil_append]
    cases conclusion with
    | finished => exact .inr ⟨rfl, requestsOf_endEffects ..⟩
    | idleStart => exact .inr ⟨rfl, requestsOf_endEffects ..⟩
    | continued => exact .inl (.adoptedPassed s .execute none rfl)
    | shown =>
      rw [requestsOf_append, requestsOf_callEffects, requestsOf_emitted]
      exact .inl (.adopted s rfl)

theorem Rejected.enters {e : ServiceError} {effects : List Effect}
    (h : Rejected ch o e o' effects) (going : o.phase.isTerminal = false) :
    Enters.OrEnds o.current o' ((Stimulus.response (.error e)).comes o.phase) []
      (requestsOf effects) := by
  have hcomes (message : String) (fieldErrors : KeyMap String) (replacement : Option Snapshot) :
      (Stimulus.response (.error (.recoverable message fieldErrors replacement))).comes o.phase =
        replacement := if_neg (by rw [going]; decide)
  cases h with
  | closed _ ended => rw [going] at ended; cases ended
  | failed =>
    refine .inr ⟨rfl, ?_⟩
    rw [requestsOf_append, requestsOf_callEffects, requestsOf_emitted]
    rfl
  | cancelled message fieldErrors replacement _ _ s subject =>
    rw [hcomes]
    cases replacement with
    | none => exact .inl (.passed .cancel none subject rfl rfl)
    | some t =>
      obtain rfl : t = s := Option.some.inj subject
      exact .inl (.adoptedPassed t .cancel none rfl)
  | withdrawn message fieldErrors =>
    rw [hcomes, requestsOf_callEffects]
    exact .inl (.kept rfl)
  | finished message fieldErrors s =>
    refine .inr ⟨rfl, ?_⟩
    rw [requestsOf_append, requestsOf_callEffects, requestsOf_endEffects]
    rfl
  | replaced message fieldErrors s =>
    rw [hcomes, requestsOf_append, requestsOf_append, requestsOf_callEffects,
      requestsOf_callEffects, requestsOf_emitted]
    exact .inl (.adopted s rfl)
  | rejected message fieldErrors =>
    rw [hcomes, requestsOf_append, requestsOf_callEffects, requestsOf_callEffects]
    exact .inl (.kept rfl)

theorem Resumed.enters {x : Outcome} {effects : List Effect} (h : Resumed o x o' effects) :
    Enters o.current o'.current none [] (requestsOf effects) := by
  cases h with
  | stayed => exact .kept rfl
  | continued _ _ s current => exact .passed .execute none current rfl rfl

/-- What everything but beginning with a snapshot and submitting makes of the snapshot. -/
theorem Reaction.enters {i : Stimulus} {r : Except ClientError (Option Outcome)}
    {own : List Effect} (reaction : Reaction ch o i r o' own)
    (going : o.phase.isTerminal = false) (begun : ∀ s, i ≠ .action (.attach s))
    (simple : ∀ edits event, i ≠ .action (.submit edits event)) :
    Enters.OrEnds o.current o' (i.comes o.phase) (i.edits r) (requestsOf own) := by
  have action {a : UserAction} (ha : i = .action a) : i.comes o.phase = none := by
    subst ha
    cases a with
    | attach s => exact absurd rfl (begun s)
    | _ => rfl
  have passed {a : UserAction} {x : Option Outcome} {o₁ : ClientState V} {s : Snapshot} (mode : Mode)
      (event : Option Interaction) (ha : i = .action a) (unedited : i.edits (.ok x) = [])
      (current : o.current = some s) :
      Enters.OrEnds o.current (o₁.proceeded s mode) (i.comes o.phase) (i.edits (.ok x))
        (requestsOf (o₁.sendEffects (.continue (Act.outgoing s) mode event))) := by
    rw [action ha, unedited, requestsOf_sendEffects]
    exact .inl (.passed mode event current rfl rfl)
  cases reaction with
  | refused a e =>
    have unedited : (Stimulus.action a).edits (.error e) = [] := by
      cases a with
      | submit edits event => exact absurd rfl (simple edits event)
      | _ => rfl
    rw [action rfl, unedited]
    exact .inl (.kept rfl)
  | ignored a reason =>
    have unedited : (Stimulus.action a).edits (.ok (some (.ignored reason))) = [] := by
      cases a <;> rfl
    rw [action rfl, unedited]
    exact .inl (.kept rfl)
  | started d =>
    rw [requestsOf_append, requestsOf_emitted]
    exact .inl (.started d rfl)
  | attached s => exact absurd rfl (begun s)
  | edited name value _ _ s t current edited => exact .inl (.edited name value current edited rfl)
  | navigated offers navigates =>
    cases navigates with
    | submitted edits event => exact absurd rfl (simple edits event)
    | advanced s current => exact passed .execute none rfl rfl current
    | rolledBack s current => exact passed .rollback none rfl rfl current
    | reloaded s current => exact passed .reload none rfl rfl current
  | deferred => exact .inl (.kept rfl)
  | asked =>
    rw [requestsOf_callEffects]
    exact .inl (.kept rfl)
  | cancelled _ _ _ s current => exact passed .cancel none rfl rfl current
  | answerLost => exact .inl (.kept rfl)
  | accepted _ _ _ s current => exact passed .cancel none rfl rfl current
  | acceptedLocked => exact .inl (.kept rfl)
  | declined => exact .inl (.kept rfl)
  | declinedResumed _ _ _ resumed => exact .inl (resumed.enters (o := o.settled))
  | paused => exact .inl (.kept rfl)
  | resumed resumed => exact .inl resumed.enters
  | received received =>
    have hcomes : ∀ s : Snapshot, (Stimulus.response (.ok s)).comes o.phase = some s :=
      fun s => if_neg (by rw [going]; decide)
    rw [hcomes]
    exact received.enters going
  | rejected rejected => exact rejected.enters going

/-- A client that has not begun takes the snapshot that it is to begin with. -/
theorem Client.result_face_attach (h : ch.dispatchOpen = true) {c : Client V} (s : Snapshot)
    (idle : c.phase = .idle) : (c.face ch (.action (.attach s))).turn.result = .ok none := by
  obtain ⟨o, kids⟩ := c
  obtain ⟨o', before, after, -, hrun⟩ := Act.run_receive h s { o with phase := .running } kids
  have hattach := Act.run_attach ch s idle kids
  rw [hrun, Turn.after_mk] at hattach
  exact congrArg Turn.result (Act.run_none hattach)

/-- A submission notes its edits and goes out with them, unless it declines. -/
theorem Client.face_submit_enters (h : ch.dispatchOpen = true) (c : Client V)
    (edits : List (String × Value)) (event : Interaction) :
    let m := c.face ch (.action (.submit edits event))
    Enters c.current m.turn.client.current none m.edits m.requests := by
  obtain ⟨o, kids⟩ := c
  intro m
  have hturn : m.turn = _ := Act.run_some _ _
  rw [Moment.edits, Moment.requests, Moment.own, hturn]
  have submits : Act.Declines ch o kids (Act.submit edits event) ∨ _ :=
    Act.declines_submit edits event
  rcases submits with
    ⟨r, hrun, handed, declined⟩ | ⟨s, t, -, current, edited, hrun⟩
  · have unedited : m.stimulus.edits (r.map some) = [] :=
      edits_of_declined edits event handed declined
    rw [hrun, unedited]
    exact .kept rfl
  · have hown : about m.before.id (ClientState.sendEffects { o with current := some t }
        (.continue (Act.outgoing t) .execute (some event))) = _ :=
      about_eq_self fun e he => client_of_mem_sendEffects he
    rw [hrun, Act.run_proceed h (o := { o with current := some t }) rfl, hown]
    exact .passed .execute (some event) current edited rfl

/-- What a client makes of its snapshot, whatever happens to it, as long as its requests are taken. -/
theorem Client.face_enters (h : ch.dispatchOpen = true) (c : Client V) (i : Stimulus)
    (going : c.phase.isTerminal = false) :
    Enters.OrEnds c.current (c.face ch i).turn.client.toClientState (c.face ch i).comes
      (c.face ch i).edits (c.face ch i).requests := by
  obtain ⟨r, o', own, reaction, shows, -⟩ := c.face_shows h i
  -- beginning with a snapshot and submitting are looked at in themselves, all else as a reaction
  have other (begun : ∀ s, i ≠ .action (.attach s))
      (simple : ∀ edits event, i ≠ .action (.submit edits event)) :
      Enters.OrEnds c.current (c.face ch i).turn.client.toClientState (c.face ch i).comes
        (c.face ch i).edits (c.face ch i).requests := by
    rw [Moment.requests, shows.own, shows.after, Moment.edits, shows.result]
    exact reaction.enters going begun simple
  cases i with
  | response => exact other (by simp) (by simp)
  | action a =>
    cases a with
    | attach s =>
      by_cases idle : c.phase = .idle
      · have hr := c.result_face_attach h s idle
        have hcomes : (c.face ch (.action (.attach s))).comes = some s := if_pos idle
        rw [shows.result] at hr
        subst hr
        rw [Moment.requests, shows.own, shows.after, hcomes]
        cases reaction with
        | attached _ _ received =>
          rw [requestsOf_append, requestsOf_emitted, List.nil_append]
          exact received.enters rfl
      · have hattach := Act.run_bind_of_error (Act.run_attach_of_not_idle ch s idle)
          fun _ => pure (none : Option Outcome)
        have hturn : (c.face ch (.action (.attach s))).turn =
            ⟨.error (.invalidPhase .attach c.phase), c, []⟩ := hattach
        have hcomes : (c.face ch (.action (.attach s))).comes = none := if_neg idle
        rw [hcomes, Moment.edits, Moment.requests, Moment.own, hturn]
        exact .inl (.kept rfl)
    | submit edits event => exact .inl (c.face_submit_enters h edits event)
    | _ => exact other (by simp) (by simp)

/-- Nothing happens to a client that has ended. -/
theorem Client.face_ended (h : ch.dispatchOpen = true) {c : Client V}
    (ended : c.phase.isTerminal = true) (i : Stimulus) :
    (c.face ch i).requests = [] ∧ (c.face ch i).turn.client.phase.isTerminal = true := by
  obtain ⟨r, o', own, reaction, shows, -⟩ := c.face_shows h i
  obtain ⟨rfl, stands⟩ := reaction.absorbed ended
  rw [Moment.requests, shows.own, shows.after, stands.phase]
  exact ⟨rfl, ended⟩

end Moments

/-! ## Courses -/

section Courses

variable [ProcessView V]

variable {ch : Channels} {H : List (Moment V)} {c : Client V}

/-- Every snapshot that came was taken, and the current one is what the notes tell. -/
structure Noted (H : List (Moment V)) (current : Option Snapshot) : Prop where
  drafted : Drafted (ledger H) current
  taken : ∀ k ∈ H, k.comes.isSome = true → k.Adopts

omit [ProcessView V] in
theorem Noted.next {m : Moment V} (noted : Noted H m.before.current)
    (enters : Enters m.before.current m.turn.client.current m.comes m.edits m.requests) :
    Noted (H ++ [m]) m.turn.client.current := by
  refine ⟨?_, fun k hk comes => ?_⟩
  · have hafter := (enters.drafted noted.drafted).1
    rw [List.append_assoc] at hafter
    rwa [ledger, List.flatMap_append, List.flatMap_singleton]
  · rcases List.mem_append.1 hk with hk | hk
    · exact noted.taken k hk comes
    · rw [List.mem_singleton.1 hk] at comes ⊢
      obtain ⟨s, hs⟩ := Option.isSome_iff_exists.1 comes
      exact ⟨s, hs, enters.values hs⟩

/-- As long as requests are taken, a client has noted everything, or it has ended. -/
theorem Course.noted (course : Course ch H c) (h : ch.dispatchOpen = true) :
    c.phase.isTerminal = true ∨ Noted H c.current := by
  induction course with
  | new => exact .inr ⟨.none nofun, nofun⟩
  | @happens ch H c _ i ih =>
    cases going : c.phase.isTerminal with
    | true => exact .inl (Client.face_ended h going i).2
    | false =>
      rcases ih h with ended | noted
      · rw [going] at ended
        cases ended
      · exact (c.face_enters h i going).symm.imp And.left noted.next
  | apart _ _ ih => exact ih h
  | deafened _ still ih => exact ih (still h)

/-- The snapshot goes on from the one that was adopted last, with what the notes tell since. -/
structure Stems (notes : List Note) (s base : Snapshot) (since : List Note) : Prop where
  latest : ∃ before, notes = before ++ .adopted base :: since
  quiet : ∀ e ∈ since, e.snapshot? = none
  parameters : s.parameters = (Draft.ofNotes since).parameters [] base.parameters
  children : s.children = []
  /-- No other field differs from the snapshot that was adopted. -/
  others : { s with parameters := base.parameters, children := base.children } = base

theorem Drafted.stems {notes : List Note} {t : Snapshot} (d : Drafted notes (.some t)) :
    ∃ base since, Stems notes (Act.outgoing t) base since := by
  generalize ht : Option.some t = current at d
  cases d with
  | none => cases ht
  | @some before base since quiet =>
    obtain rfl := Option.some.inj ht
    exact ⟨base, since, ⟨before, rfl⟩, quiet, rfl, rfl, by cases base; rfl⟩

/-- A request that is sent goes on from what the notes tell. -/
theorem Course.stems_next (course : Course ch H c) {i : Stimulus} {s : Snapshot} {mode : Mode}
    {event : Option Interaction} (hmem : .continue s mode event ∈ (c.face ch i).requests) :
    (∀ k ∈ H ++ [c.face ch i], k.comes.isSome = true → k.Adopts) ∧
      ∃ base since, Stems (ledger H ++ (c.face ch i).preamble) s base since := by
  -- nobody sends where nobody listens, or after the end
  cases open' : ch.dispatchOpen with
  | false =>
    rw [Client.face_quiet open'] at hmem
    cases hmem
  | true =>
    cases going : c.phase.isTerminal with
    | true =>
      rw [(Client.face_ended open' going i).1] at hmem
      cases hmem
    | false =>
      rcases course.noted open' with ended | noted
      · rw [going] at ended
        cases ended
      rcases c.face_enters open' i going with enters | ⟨-, silent⟩
      · obtain ⟨t, ht, rfl⟩ := (enters.drafted noted.drafted).2 s mode event hmem
        exact ⟨(Noted.next noted enters).taken, ht.stems⟩
      · rw [silent] at hmem
        cases hmem

/-- The values since some moment, if no snapshot is adopted any more. -/
theorem Course.values_since (course : Course ch H c) {A C : List (Moment V)} {m : Moment V}
    (hH : H = A ++ m :: C) (quiet : ∀ k ∈ m :: C, ¬ k.Adopts) :
    c.values = revised ((m :: C).flatMap Moment.edits) m.before.values := by
  induction course generalizing C with
  | new => simp at hH
  | @happens ch H c _ i ih =>
    have last : c.face ch i ∈ m :: C →
        (c.face ch i).turn.client.values = revised (c.face ch i).edits c.values :=
      fun hmem => (c.face_values ch i).resolve_left (quiet _ hmem)
    rcases split_concat hH with ⟨rfl, -, rfl⟩ | ⟨C', rfl, earlier⟩
    · rw [List.flatMap_singleton]
      exact last List.mem_cons_self
    · have before := ih earlier fun k hk => quiet k (List.mem_append_left [_] hk)
      rw [← List.cons_append, List.flatMap_append, revised_append, ← before,
        List.flatMap_singleton]
      exact last (List.mem_append_right (m :: C') List.mem_cons_self)
  | apart _ _ ih => exact ih hH quiet
  | deafened _ _ ih => exact ih hH quiet

/-- **What requests carry.** A request that goes on from a snapshot carries the one that was adopted
last, and that was every one that came: without children, with the edits since in their order, each in
the first parameter of its name, and with the marks that the snapshot came with or that were set by
edits, unless a request has gone out since; names, labels, and what is required are as they came.
The values stay, with the edits, until another snapshot is adopted, whoever listens and whatever is
rejected. -/
theorem carries_draft (course : Course ch H c) :
    (∀ A m C, H = A ++ m :: C → ∀ s mode event, .continue s mode event ∈ m.requests →
      (∀ k ∈ A ++ [m], k.comes.isSome = true → k.Adopts) ∧
        ∃ base since, Stems (ledger A ++ m.preamble) s base since ∧
          s.parameters.map (fun p => (p.name, p.label, p.required)) =
            base.parameters.map fun p => (p.name, p.label, p.required)) ∧
      ∀ A m C, H = A ++ m :: C → (∀ k ∈ m :: C, ¬ k.Adopts) →
        c.values = revised ((m :: C).flatMap Moment.edits) m.before.values := by
  refine ⟨fun A m C hH s mode event hmem => ?_, fun A m C hH quiet => course.values_since hH quiet⟩
  have carried : (∀ k ∈ A ++ [m], k.comes.isSome = true → k.Adopts) ∧
      ∃ base since, Stems (ledger A ++ m.preamble) s base since := by
    induction course generalizing C with
    | new => simp at hH
    | happens course i ih =>
      rcases split_concat hH with ⟨rfl, rfl, rfl⟩ | ⟨C', rfl, earlier⟩
      · exact course.stems_next hmem
      · exact ih C' earlier
    | apart _ _ ih => exact ih C hH
    | deafened _ _ ih => exact ih C hH
  obtain ⟨taken, base, since, stems⟩ := carried
  refine ⟨taken, base, since, stems, ?_⟩
  rw [stems.parameters]
  exact Draft.map_parameters _ (fun _ _ _ => rfl) [] base.parameters

/-- The form of an order that has spawned a note. -/
def notedForm : Snapshot := { addressForm false with children := [.ofStep (.issued 1) "Note" "Text"] }

/-- The form arrives. -/
def orderNoted : Moment Recording :=
  orderStarted.turn.client.face .open (.response (.ok notedForm))

/-- The user of the form submits it with an address. -/
def orderEntered : Moment Recording :=
  orderNoted.turn.client.face .open
    (.action (.submit [("street", .str "Main Street")] ⟨.action, "submit"⟩))

/-- The form goes out with the address and without the note, and the address stays. -/
theorem carries_draft_orderEntered :
    (∃ since, Stems (ledger [orderStarted, orderNoted] ++ orderEntered.preamble)
      { notedForm with
        parameters := [⟨"street", "Street", .str "Main Street", true, true⟩]
        children := [] } notedForm since) ∧
      orderEntered.turn.client.values =
        some [⟨"street", "Street", .str "Main Street", true, false⟩] := by
  have course : Course .open [orderStarted, orderNoted, orderEntered] orderEntered.turn.client :=
    (((Course.new .open (.root 0) none false Recording.empty).happens _).happens _).happens _
  obtain ⟨carried, kept⟩ := carries_draft course
  obtain ⟨-, base, since, stems, -⟩ :=
    carried [orderStarted, orderNoted] orderEntered [] rfl _ .execute _ (.head _)
  have adopted : Note.adopted base ∈ ledger [orderStarted, orderNoted] ++ orderEntered.preamble := by
    obtain ⟨before, notes⟩ := stems.latest
    rw [notes]
    exact List.mem_append_right _ List.mem_cons_self
  obtain rfl : base = notedForm := by
    -- only the second note is of a snapshot
    rcases adopted with _ | ⟨_, _ | ⟨_, _ | ⟨_, none⟩⟩⟩
    · rfl
    · cases none
  refine ⟨⟨since, stems⟩, ?_⟩
  rw [kept [orderStarted, orderNoted] orderEntered [] rfl ?_]
  · rfl
  · rintro k hk ⟨s, comes, -⟩
    rw [List.mem_singleton.1 hk] at comes
    cases comes

end Courses

end Stepwise
