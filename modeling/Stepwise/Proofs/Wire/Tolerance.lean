/-
# Documents are read as before they were edited

A document that has been read is read as the same value after any edits of its records, however deep.
One thing depends on an order. A command may give the type of its request by number, but only in a
payload that stands in front of the tag and is set aside until the tag is found. If edits bring the tag
to the front, such a command is not read any more.

* `Members.Follows.record`, `Members.Follows.forms`, `Members.Follows.adjacent` : how records are read
  whose fields are read as they were;
* `Part.Edit.kept`, `Members.Edit.follows` : one edit, somewhere in a document;
* `Command.lenient?`, `Command.Misplaced` : what of commands does not depend on an order, and what does;
* `documents_tolerate_edits` : any number of edits.
-/
import Stepwise.Proofs.Wire.Edits

namespace Stepwise

/-! ## Records whose fields are read as they were -/

namespace Members

variable {α : Type} {fields : List Field} {ms ms' : Members}

/-- All of some fields are read as they were. -/
def Reads (ms ms' : Members) : List Field → Prop
  | [] => True
  | f :: fields => Kept (f.read ms) (f.read ms') ∧ Reads ms ms' fields

theorem reads_of_forall (h : ∀ f ∈ fields, Kept (f.read ms) (f.read ms')) :
    Reads ms ms' fields := by
  induction fields with
  | nil => trivial
  | cons f fields ih =>
    exact ⟨h f List.mem_cons_self, ih fun g hg => h g (List.mem_cons_of_mem f hg)⟩

/-- A record is read as it was if it can be put together from its fields as they are read. -/
theorem Follows.record (h : Follows fields ms ms') {next : Members → Option α}
    (reads : Reads ms ms' fields → Kept (next ms) (next ms')) :
    Kept (Json.record? (fields.map Field.name) (.obj ms) >>= next)
      (Json.record? (fields.map Field.name) (.obj ms') >>= next) := by
  intro a ha
  obtain ⟨us, record, ha⟩ := Option.bind_eq_some_iff.1 ha
  rw [Json.record?] at record
  split at record
  · next once =>
    cases record
    -- a record lets no field occur twice, which is what the fields need to be read as they were
    have once (f) (hf : f ∈ fields) : ms.count f.name ≤ 1 :=
      of_decide_eq_true (List.all_eq_true.1 once f.name (List.mem_map_of_mem hf))
    have once' : (fields.map Field.name).all fun k => count ms' k ≤ 1 := by
      refine List.all_eq_true.2 fun k hk => ?_
      obtain ⟨f, hf, rfl⟩ := List.mem_map.1 hk
      exact decide_eq_true (h f hf (once f hf)).1
    rw [Json.record?, if_pos once']
    exact reads (reads_of_forall fun f hf => (h f hf (once f hf)).2) a ha
  · cases record

/-- Something that is found under a key occurs there. -/
theorem count_pos_of_get? {key : String} {j : Json} (h : ms.get? key = some j) :
    0 < ms.count key :=
  List.countP_pos_iff.2 ⟨(key, j), mem_of_get? h, beq_self_eq_true key⟩

/-- A tag that is found is found again. -/
theorem Follows.tag {key : String} (h : Follows fields ms ms') (hf : Field.must key .tag ∈ fields)
    {t : Json} (once : ms.count key = 1) (found : ms.get? key = some t) :
    ms'.count key = 1 ∧ ms'.get? key = some t := by
  obtain ⟨once', kept⟩ := h _ hf (Nat.le_of_eq once)
  have read (us : Members) : (Field.must key .tag).read us = us.get? key := Option.bind_fun_some _
  rw [read, read] at kept
  have found' := kept t found
  exact ⟨Nat.le_antisymm once' (count_pos_of_get? found'), found'⟩

/-- The members that are not the tag. -/
def untag (ms : Members) (tag : String) : Members := ms.filter fun e => !(e.1 == tag)

/-- Without the tag the other fields are what they were. -/
theorem named_untag {tag key : String} (h : key ≠ tag) (ms : Members) :
    named (ms.untag tag) key = ms.named key := by
  rw [named, untag, List.filter_filter]
  refine List.filter_congr fun e _ => ?_
  by_cases same : e.1 = key
  · simp [same, h]
  · simp [same]

theorem tagged?_eq_some_iff {tag : String} {t rest : Json} :
    Json.tagged? tag (.obj ms) = some (t, rest) ↔
      ms.count tag = 1 ∧ ms.get? tag = some t ∧ rest = .obj (ms.untag tag) := by
  rw [Json.tagged?]
  split
  · next once =>
    rw [Option.map_eq_some_iff]
    constructor
    · rintro ⟨u, there, e⟩
      cases e
      exact ⟨once, there, rfl⟩
    · rintro ⟨-, there, rfl⟩
      exact ⟨t, there, rfl⟩
  · next more =>
    constructor
    · rintro ⟨⟩
    · exact fun h => absurd h.1 more

theorem adjacent?_eq_some_iff {tag payload : String} {t j : Json} :
    (∃ reading, Json.adjacent? tag payload (.obj ms) = some (t, j, reading)) ↔
      (ms.count tag = 1 ∧ ms.count payload = 1) ∧ ms.get? tag = some t ∧
        ms.get? payload = some j := by
  rw [Json.adjacent?]
  constructor
  · rintro ⟨reading, found⟩
    split at found
    · next once =>
      obtain ⟨u, there, found⟩ := Option.bind_eq_some_iff.1 found
      obtain ⟨k, beside, e⟩ := Option.map_eq_some_iff.1 found
      cases e
      exact ⟨by simpa using once, there, beside⟩
    · cases found
  · rintro ⟨once, there, beside⟩
    rw [if_pos (by simpa using once), there, beside]
    exact ⟨_, rfl⟩

/-- A record with a tag keeps the tag, and without it its fields are read as they were. -/
theorem Follows.tagged {tag : String} (h : Follows (.must tag .tag :: fields) ms ms')
    (fresh : tag ∉ fields.map Field.name) {t : Json} (once : ms.count tag = 1)
    (there : ms.get? tag = some t) :
    Json.tagged? tag (.obj ms') = some (t, .obj (ms'.untag tag)) ∧
      Follows fields (ms.untag tag) (ms'.untag tag) := by
  obtain ⟨once', there'⟩ := h.tag List.mem_cons_self once there
  refine ⟨tagged?_eq_some_iff.2 ⟨once', there', rfl⟩, fun f hf => ?_⟩
  have other : f.name ≠ tag := fun same => fresh (same ▸ List.mem_map_of_mem hf)
  have own := h f (List.mem_cons_of_mem _ hf)
  rw [Field.read_congr (named_untag other ms), Field.read_congr (named_untag other ms')]
  simp only [count_eq_length_named, named_untag other] at own ⊢
  exact own

/-- A record with several forms is read as it was if each of its forms is. -/
theorem Follows.forms {tag : String} {reading : Json.Reading} {names : List String}
    {fieldsOf : String → List Field} (h : Follows (.must tag .tag ::
      fieldsOf (((ms.get? tag).bind (Json.tagName? reading names)).getD "")) ms ms')
    (next : String → Json → Option α)
    (fresh : ∀ name, tag ∉ (fieldsOf name).map Field.name)
    (kept : ∀ {name us us'}, Follows (fieldsOf name) us us' →
      Kept (next name (.obj us)) (next name (.obj us'))) :
    Kept
      (Json.tagged? tag (.obj ms) >>= fun found =>
        found.1.tagName? reading names >>= fun name => next name found.2)
      (Json.tagged? tag (.obj ms') >>= fun found =>
        found.1.tagName? reading names >>= fun name => next name found.2) := by
  intro v hv
  obtain ⟨⟨t, rest⟩, found, hv⟩ := Option.bind_eq_some_iff.1 hv
  obtain ⟨name, named, hv⟩ := Option.bind_eq_some_iff.1 hv
  obtain ⟨once, there, rfl⟩ := tagged?_eq_some_iff.1 found
  -- the fields are those of the form that the tag gives
  rw [there, Option.bind_some, named, Option.getD_some] at h
  obtain ⟨found', h⟩ := h.tagged (fresh name) once there
  exact Option.bind_eq_some_iff.2 ⟨_, found',
    Option.bind_eq_some_iff.2 ⟨name, named, kept h v hv⟩⟩

/-- A record with a tag and a payload keeps the tag, and its payload is read as it was. -/
theorem Follows.adjacent {tag payload : String} {p : Part}
    (h : Follows [.must tag .tag, .must payload p] ms ms') {t j : Json}
    (once : ms.count tag = 1 ∧ ms.count payload = 1) (there : ms.get? tag = some t)
    (beside : ms.get? payload = some j) {v : p.Carrier} (hv : p.decode j = some v) :
    ∃ j' reading, Json.adjacent? tag payload (.obj ms') = some (t, j', reading) ∧
      p.decode j' = some v := by
  obtain ⟨once₁, there'⟩ := h.tag List.mem_cons_self once.1 there
  obtain ⟨once₂, kept⟩ := h (.must payload p) (by simp) (Nat.le_of_eq once.2)
  obtain ⟨j', beside', hv'⟩ :=
    Option.bind_eq_some_iff.1 (kept v (Option.bind_eq_some_iff.2 ⟨j, beside, hv⟩))
  replace once₂ := Nat.le_antisymm once₂ (count_pos_of_get? beside')
  obtain ⟨reading, found⟩ := adjacent?_eq_some_iff.2 ⟨⟨once₁, once₂⟩, there', beside'⟩
  exact ⟨j', reading, found, hv'⟩

end Members

/-! ## Each type of record -/

section Types

variable {ms ms' : Members}

theorem Viewport.kept (h : Members.Follows wire ms ms') :
    Kept (ofJson? (.obj ms)) (ofJson? (.obj ms')) := by
  refine h.record ?_
  rintro ⟨width, height, -⟩
  exact width.bind fun _ => height.bind fun _ => .rfl

theorem Descriptor.kept (h : Members.Follows wire ms ms') :
    Kept (ofJson? (.obj ms)) (ofJson? (.obj ms')) := by
  refine h.record ?_
  rintro ⟨name, input, locale, viewport, -⟩
  exact name.bind fun _ => input.bind fun _ => locale.bind fun _ => viewport.bind fun _ => .rfl

theorem Parameter.kept (h : Members.Follows wire ms ms') :
    Kept (ofJson? (.obj ms)) (ofJson? (.obj ms')) := by
  refine h.record ?_
  rintro ⟨name, label, value, required, modified, -⟩
  exact name.bind fun _ => label.bind fun _ => value.bind fun _ => required.bind fun _ =>
    modified.bind fun _ => .rfl

theorem Snapshot.kept (h : Members.Follows wire ms ms') :
    Kept (ofJson? (.obj ms)) (ofJson? (.obj ms')) := by
  rw [ofJson?_eq, ofJson?_eq]
  refine h.record ?_
  rintro ⟨id, processName, step, parameters, finished, finalStep, autoContinue, canRollback,
    immediateInteraction, cancelled, children, properties, -⟩
  exact id.bind fun _ => processName.bind fun _ => step.bind fun _ => parameters.bind fun _ =>
    finished.bind fun _ => finalStep.bind fun _ => autoContinue.bind fun _ => canRollback.bind fun _ =>
    immediateInteraction.bind fun _ => cancelled.bind fun _ => children.bind fun _ =>
    properties.bind fun _ => .rfl

theorem Interaction.kept {reading : Json.Reading} (h : Members.Follows (wire reading) ms ms') :
    Kept (ofJson? reading (.obj ms)) (ofJson? reading (.obj ms')) := by
  refine h.record ?_
  rintro ⟨kind, source, -⟩
  exact kind.bind fun _ => source.bind fun _ => .rfl

theorem Credentials.kept (h : Members.Follows wire ms ms') :
    Kept (ofJson? (.obj ms)) (ofJson? (.obj ms')) := by
  refine h.record ?_
  rintro ⟨user, password, -⟩
  exact user.bind fun _ => password.bind fun _ => .rfl

theorem User.kept (h : Members.Follows wire ms ms') :
    Kept (ofJson? (.obj ms)) (ofJson? (.obj ms')) := by
  refine h.record ?_
  rintro ⟨userId, displayName, locale, roles, loggedInAt, -⟩
  exact userId.bind fun _ => displayName.bind fun _ => locale.bind fun _ => roles.bind fun _ =>
    loggedInAt.bind fun _ => .rfl

theorem Settings.kept (h : Members.Follows wire ms ms') :
    Kept (ofJson? (.obj ms)) (ofJson? (.obj ms')) := by
  refine h.record ?_
  rintro ⟨mainProcess, locale, viewport, autoContinue, -⟩
  exact mainProcess.bind fun _ => locale.bind fun _ => viewport.bind fun _ =>
    autoContinue.bind fun _ => .rfl

theorem ScriptParameter.kept (h : Members.Follows wire ms ms') :
    Kept (ofJson? (.obj ms)) (ofJson? (.obj ms')) := by
  refine h.record ?_
  rintro ⟨name, label, default, required, rule, -⟩
  exact name.bind fun _ => label.bind fun _ => default.bind fun _ => required.bind fun _ =>
    rule.bind fun _ => .rfl

theorem ScriptStep.kept (h : Members.Follows wire ms ms') :
    Kept (ofJson? (.obj ms)) (ofJson? (.obj ms')) := by
  refine h.record ?_
  rintro ⟨step, style, parameters, autoContinue, canRollback, immediateInteraction, spawn, -⟩
  exact step.bind fun _ => style.bind fun _ => parameters.bind fun _ => autoContinue.bind fun _ =>
    canRollback.bind fun _ => immediateInteraction.bind fun _ => spawn.bind fun _ => .rfl

theorem Script.kept (h : Members.Follows wire ms ms') :
    Kept (ofJson? (.obj ms)) (ofJson? (.obj ms')) := by
  refine h.record ?_
  rintro ⟨name, description, steps, -⟩
  exact name.bind fun _ => description.bind fun _ => steps.bind fun _ => .rfl

/-- The payload of an event. -/
theorem LifecycleEvent.kept_payload {type : String} (h : Members.Follows (wire type) ms ms') :
    Kept (payloadOfJson? type (.obj ms)) (payloadOfJson? type (.obj ms')) := by
  revert h
  unfold wire payloadOfJson?
  split
  · intro h
    refine h.record ?_
    rintro ⟨client, processName, -⟩
    exact client.bind fun _ => processName.bind fun _ => .rfl
  split
  · intro h
    refine h.record ?_
    rintro ⟨client, state, -⟩
    exact client.bind fun _ => state.bind fun _ => .rfl
  split
  · intro h
    refine h.record ?_
    rintro ⟨client, parent, state, -⟩
    exact client.bind fun _ => parent.bind fun _ => state.bind fun _ => .rfl
  split
  · intro h
    refine h.record ?_
    rintro ⟨client, parent, error, -⟩
    exact client.bind fun _ => parent.bind fun _ => error.bind fun _ => .rfl
  exact fun _ => .rfl

theorem LifecycleEvent.nodup_wire (type : String) : ((wire type).map Field.name).Nodup := by
  unfold wire
  split
  · decide
  split
  · decide
  split
  · decide
  split <;> decide

theorem LifecycleEvent.kept
    (h : Members.Follows [.must "type" .tag,
      .must "payload" (.payload (((ms.get? "type").bind (Json.choice? .direct)).getD ""))] ms ms') :
    Kept (ofJson? (.obj ms)) (ofJson? (.obj ms')) := by
  intro v hv
  obtain ⟨⟨t, payload, reading⟩, found, hv⟩ := Option.bind_eq_some_iff.1 hv
  obtain ⟨type, named, hv⟩ := Option.bind_eq_some_iff.1 hv
  obtain ⟨once, there, beside⟩ := Members.adjacent?_eq_some_iff.1 ⟨reading, found⟩
  rw [there, Option.bind_some, named, Option.getD_some] at h
  obtain ⟨payload', reading', found', hv'⟩ := h.adjacent once there beside hv
  exact Option.bind_eq_some_iff.2 ⟨_, found', Option.bind_eq_some_iff.2 ⟨type, named, hv'⟩⟩

/-- Reads an error of a given kind. -/
def ServiceError.ofKind? (kind : String) (j : Json) : Option ServiceError :=
  if kind = "recoverable" then recoverableOfJson? j
  else if kind = "unrecoverable" then unrecoverableOfJson? j
  else none

theorem ServiceError.kept_ofKind? {kind : String} (h : Members.Follows (wire kind) ms ms') :
    Kept (ofKind? kind (.obj ms)) (ofKind? kind (.obj ms')) := by
  revert h
  unfold wire ofKind?
  split
  · intro h
    refine h.record ?_
    rintro ⟨message, fieldErrors, replacement, -⟩
    exact message.bind fun _ => fieldErrors.bind fun _ => replacement.bind fun _ => .rfl
  split
  · intro h
    refine h.record ?_
    rintro ⟨message, cause, -⟩
    exact message.bind fun _ => cause.bind fun _ => .rfl
  exact fun _ => .rfl

theorem ServiceError.nodup_wire (kind : String) :
    ("kind" :: (wire kind).map Field.name).Nodup := by
  unfold wire
  split
  · decide
  split <;> decide

theorem ServiceError.kept
    (h : Members.Follows (.must "kind" .tag ::
      wire (((ms.get? "kind").bind (Json.tagName? .direct kinds)).getD "")) ms ms') :
    Kept (ofJson? (.obj ms)) (ofJson? (.obj ms')) :=
  h.forms ofKind? (fun kind => (List.nodup_cons.1 (nodup_wire kind)).1) kept_ofKind?

/-- Reads a request of a given type. -/
def Request.ofType? (type : String) (j : Json) : Option Request :=
  if type = "start" then startOfJson? j
  else if type = "continue" then continueOfJson? j
  else none

theorem Request.kept_ofType? {type : String} (h : Members.Follows (wire type) ms ms') :
    Kept (ofType? type (.obj ms)) (ofType? type (.obj ms')) := by
  revert h
  unfold wire ofType?
  split
  · intro h
    refine h.record ?_
    rintro ⟨descriptor, -⟩
    exact descriptor.bind fun _ => .rfl
  split
  · intro h
    refine h.record ?_
    rintro ⟨state, mode, event, -⟩
    exact state.bind fun _ => mode.bind fun _ => event.bind fun _ => .rfl
  exact fun _ => .rfl

theorem Request.nodup_wire (type : String) : ("type" :: (wire type).map Field.name).Nodup := by
  unfold wire
  split
  · decide
  split <;> decide

theorem Request.kept {reading : Json.Reading}
    (h : Members.Follows (.must "type" .tag ::
      wire (((ms.get? "type").bind (Json.tagName? reading types)).getD "")) ms ms') :
    Kept (ofJson? reading (.obj ms)) (ofJson? reading (.obj ms')) :=
  h.forms ofType? (fun type => (List.nodup_cons.1 (nodup_wire type)).1) kept_ofType?

end Types

/-! ## One edit -/

namespace Part

/-- The fields of a record have different names. -/
theorem nodup_fields {p : Part} {ms : Members} {fields : List Field}
    (h : p.fields? ms = some fields) : (fields.map Field.name).Nodup := by
  cases p with
  | request => cases h; exact Request.nodup_wire _
  | serviceError => cases h; exact ServiceError.nodup_wire _
  | payload => cases h; exact LifecycleEvent.nodup_wire _
  | event =>
    cases h
    show ["type", "payload"].Nodup
    decide
  | interaction =>
    cases h
    show Interaction.fields.Nodup
    decide
  | viewport | descriptor | parameter | snapshot | credentials | user | settings
  | scriptParameter | step | script =>
    cases h
    decide
  | _ => cases h

/-- A record whose fields are read as they were is read as it was. -/
theorem kept_of_follows {p : Part} {ms ms' : Members} {fields : List Field}
    (fieldsOf : p.fields? ms = some fields) (h : Members.Follows fields ms ms') :
    Kept (p.decode (.obj ms)) (p.decode (.obj ms')) := by
  cases p with
  | viewport => cases fieldsOf; exact Viewport.kept h
  | descriptor => cases fieldsOf; exact Descriptor.kept h
  | parameter => cases fieldsOf; exact Parameter.kept h
  | snapshot => cases fieldsOf; exact Snapshot.kept h
  | interaction => cases fieldsOf; exact Interaction.kept h
  | request => cases fieldsOf; exact Request.kept h
  | serviceError => cases fieldsOf; exact ServiceError.kept h
  | event => cases fieldsOf; exact LifecycleEvent.kept h
  | payload => cases fieldsOf; exact LifecycleEvent.kept_payload h
  | credentials => cases fieldsOf; exact Credentials.kept h
  | user => cases fieldsOf; exact User.kept h
  | settings => cases fieldsOf; exact Settings.kept h
  | scriptParameter => cases fieldsOf; exact ScriptParameter.kept h
  | step => cases fieldsOf; exact ScriptStep.kept h
  | script => cases fieldsOf; exact Script.kept h
  | _ => cases fieldsOf

/-- What is edited is not nothing. -/
theorem Edit.ne_null {p : Part} {j j' : Json} (e : p.Edit j j') : j ≠ .null ∧ j' ≠ .null := by
  refine @Part.Edit.rec (fun _ j j' _ => j ≠ .null ∧ j' ≠ .null) (fun _ _ _ _ => True)
    ?record ?item ?present ?_ ?_ ?_ ?_ p j j' e
  case record => exact fun _ _ _ => ⟨nofun, nofun⟩
  case item => exact fun _ _ _ _ _ _ => ⟨nofun, nofun⟩
  case present => exact fun _ edited => edited
  all_goals intros; trivial

end Part

namespace Json

variable {α : Type}

theorem nullable?_of_ne_null {j : Json} (h : j ≠ .null) (decode : Json → Option α) :
    nullable? decode j = (decode j).map some := by
  cases j with
  | null => exact absurd rfl h
  | _ => rfl

/-- A list is read as it was if one item is. -/
theorem kept_list? {decode : Json → Option α} {j j' : Json} (kept : Kept (decode j) (decode j'))
    (before after : List Json) :
    Kept (list? decode (.arr (before ++ j :: after))) (list? decode (.arr (before ++ j' :: after))) := by
  induction before with
  | nil => exact kept.bind fun _ => .rfl
  | cons k before ih => exact Kept.rfl.bind fun _ => ih.map _

end Json

/-- An edit somewhere in a part leaves it read as it was. -/
theorem Part.Edit.kept {p : Part} {j j' : Json} (e : p.Edit j j') :
    Kept (p.decode j) (p.decode j') := by
  -- along with it, for the members of records: every field is read as it was
  refine @Part.Edit.rec (fun p j j' _ => Kept (p.decode j) (p.decode j'))
    (fun fields ms ms' _ => (fields.map Field.name).Nodup → Members.Follows fields ms ms')
    ?record ?item ?present ?permuted ?added ?omitted ?within p j j' e
  case record => exact fun h _ follows => Part.kept_of_follows h (follows (Part.nodup_fields h))
  case item => exact fun before after _ _ _ kept => Json.kept_list? kept before after
  case present =>
    intro p j j' e kept
    show Kept (Json.nullable? p.decode j) (Json.nullable? p.decode j')
    rw [Json.nullable?_of_ne_null e.ne_null.1, Json.nullable?_of_ne_null e.ne_null.2]
    exact kept.map some
  case permuted => exact fun h _ => Members.follows_of_perm h
  case added =>
    exact fun before after _ j unknown _ => Members.follows_added before after j unknown
  case omitted =>
    exact fun before after _ hf _ assumed _ holds distinct =>
      Members.follows_omitted hf distinct before after assumed holds
  case within =>
    exact fun before after _ hf _ _ _ kept distinct =>
      Members.follows_within hf distinct before after kept

/-- An edit of a record leaves every field read as it was. -/
theorem Members.Edit.follows {fields : List Field} {ms ms' : Members}
    (e : Members.Edit fields ms ms') (distinct : (fields.map Field.name).Nodup) :
    Members.Follows fields ms ms' := by
  cases e with
  | permuted h => exact Members.follows_of_perm h
  | added before after key j unknown => exact Members.follows_added before after j unknown
  | omitted before after hf assumed holds =>
    exact Members.follows_omitted hf distinct before after assumed holds
  | within before after hf e => exact Members.follows_within hf distinct before after e.kept

/-! ## Commands -/

/-- The type of a request is given by number. -/
def Request.Numbered (j : Json) : Prop := ∃ n rest, j.tagged? "type" = some (.num n, rest)

/-- A request is read directly exactly if it is read when it has been set aside, and does not give its
type by number. -/
theorem Request.ofJson?_direct_iff {j : Json} {r : Request} :
    ofJson? .direct j = some r ↔ ofJson? .setAside j = some r ∧ ¬ Numbered j := by
  unfold ofJson? Numbered
  cases j.tagged? "type" with
  | none => simp
  | some found =>
    obtain ⟨tag, rest⟩ := found
    cases tag with
    | num n =>
      have unnamed : (Json.num n).tagName? .direct types = none := by
        cases n <;> rfl
      simp [unnamed]
    | str name => simp [Json.tagName?]
    | _ => simp [Json.tagName?]

namespace Command

/-- Reads a command, its request always as freely as if it had been set aside. -/
def lenient? (j : Json) : Option Command := do
  let (tag, payload, _) ← j.adjacent? "command" "payload"
  let command ← tag.choice? .direct
  if command = "EXECUTE_PROCESS" then
    (Request.ofJson? .setAside payload).map .executeProcess
  else none

/-- The payload stands behind the tag, and gives the type of its request by number. -/
def Misplaced (j : Json) : Prop :=
  ∃ tag payload, j.adjacent? "command" "payload" = some (tag, payload, .direct) ∧
    Request.Numbered payload

/-- A command is read as freely as can be, unless it is misplaced. -/
theorem ofJson?_eq_some_iff {j : Json} {c : Command} :
    ofJson? j = some c ↔ lenient? j = some c ∧ ¬ Misplaced j := by
  unfold ofJson? lenient? Misplaced
  cases j.adjacent? "command" "payload" with
  | none => simp
  | some found =>
    obtain ⟨tag, payload, reading⟩ := found
    cases reading with
    | setAside => simp
    | direct =>
      have misplaced : (∃ t k, some (tag, payload, Json.Reading.direct) = some (t, k, .direct) ∧
          Request.Numbered k) ↔ Request.Numbered payload := by simp
      rw [misplaced]
      simp only [Option.bind_eq_bind, Option.bind_some]
      cases tag.choice? .direct with
      | none => simp
      | some command =>
        simp only [Option.bind_some]
        split
        · simp only [Option.map_eq_some_iff, Request.ofJson?_direct_iff, and_right_comm,
            exists_and_right]
        · simp

theorem kept_lenient {ms ms' : Members} (h : Members.Follows wire ms ms') :
    Kept (lenient? (.obj ms)) (lenient? (.obj ms')) := by
  intro c hc
  obtain ⟨⟨t, payload, reading⟩, found, hc⟩ := Option.bind_eq_some_iff.1 hc
  obtain ⟨command, named, hc⟩ := Option.bind_eq_some_iff.1 hc
  obtain ⟨once, there, beside⟩ := Members.adjacent?_eq_some_iff.1 ⟨reading, found⟩
  split at hc
  · next execute =>
    obtain ⟨r, hr, rfl⟩ := Option.map_eq_some_iff.1 hc
    obtain ⟨payload', reading', found', hr'⟩ := h.adjacent once there beside hr
    refine Option.bind_eq_some_iff.2 ⟨_, found', Option.bind_eq_some_iff.2 ⟨command, named, ?_⟩⟩
    rw [if_pos execute]
    exact Option.map_eq_some_iff.2 ⟨r, hr', rfl⟩
  · cases hc

end Command

/-! ## Any number of edits -/

theorem Part.Edits.kept {p : Part} {j j' : Json} (edits : p.Edits j j') :
    Kept (p.decode j) (p.decode j') := by
  induction edits with
  | refl => exact .rfl
  | tail _ e ih => exact fun v hv => e.kept v (ih v hv)

theorem Command.Edits.kept {ms ms' : Members} (edits : Command.Edits ms ms') :
    Kept (lenient? (.obj ms)) (lenient? (.obj ms')) := by
  induction edits with
  | refl => exact .rfl
  | tail _ e ih => exact fun c hc => kept_lenient (e.follows (by decide)) c (ih c hc)

/-- **Documents are read as before they were edited.** What is read from a document of any type but a
command is read from it after any edits of its records. A command is read after any edits as it was,
unless they have left its payload behind the tag and the payload gives the type of the request by
number; then it is not read at all. -/
theorem documents_tolerate_edits :
    (∀ (p : Part) (j j' : Json) (v : p.Carrier), p.Edits j j' → p.decode j = some v →
      p.decode j' = some v) ∧
    ∀ (ms ms' : Members) (c : Command), Command.Edits ms ms' →
      Command.ofJson? (.obj ms) = some c →
        (¬ Command.Misplaced (.obj ms') → Command.ofJson? (.obj ms') = some c) ∧
        (Command.Misplaced (.obj ms') → Command.ofJson? (.obj ms') = none) := by
  refine ⟨fun p j j' v edits => edits.kept v, fun ms ms' c edits hc => ?_⟩
  have kept : Command.lenient? (.obj ms') = some c :=
    edits.kept c (Command.ofJson?_eq_some_iff.1 hc).1
  refine ⟨fun placed => Command.ofJson?_eq_some_iff.2 ⟨kept, placed⟩, fun misplaced => ?_⟩
  exact Option.eq_none_iff_forall_ne_some.2 fun d hd =>
    (Command.ofJson?_eq_some_iff.1 hd).2 misplaced

/-- The tag of the command to start an order. -/
def orderTag : String × Json := ("command", .str "EXECUTE_PROCESS")

/-- The descriptor of an order, with other members. -/
def orderDescriptor (more : Members) : Json :=
  .obj (("name", .str "Order") :: more ++ [("locale", .str "en-US")])

/-- The request to start an order, with other members in its descriptor. -/
def orderPayload (more : Members) : String × Json :=
  ("payload", .obj [("type", .str "start"), ("descriptor", orderDescriptor more)])

/-- The input of the order is left out, which is nothing. -/
theorem edit_orderDescriptor :
    Part.Edit .descriptor (orderDescriptor [("input", .null)]) (orderDescriptor []) :=
  .record rfl (.omitted (f := .may "input" (.nullable .data) none) [("name", .str "Order")] _
    (List.mem_cons_of_mem _ List.mem_cons_self) rfl rfl)

/-- The members of the command are swapped as well, and one is put in that nobody knows. -/
theorem edits_order :
    Command.Edits [orderTag, orderPayload [("input", .null)]]
      [orderPayload [], orderTag, ("trace", .num (.int 7))] := by
  refine .tail (.tail (.single (.permuted (List.Perm.swap _ _ _)))
    (.added [_, _] [] "trace" (.num (.int 7)) (by decide))) ?_
  refine .within (f := .must "payload" (.request .setAside)) [] _
    (List.mem_cons_of_mem _ List.mem_cons_self) ?_
  exact .record rfl (.within (f := .must "descriptor" .descriptor) [("type", .str "start")] []
    (List.mem_cons_of_mem _ List.mem_cons_self) edit_orderDescriptor)

/-- The descriptor and the command are read as they were. -/
theorem documents_tolerate_edits_order :
    Descriptor.ofJson? (orderDescriptor []) = some ⟨"Order", none, "en-US", .none⟩ ∧
      Command.ofJson? (.obj [orderPayload [], orderTag, ("trace", .num (.int 7))]) =
        some (orderCommand none) := by
  refine ⟨documents_tolerate_edits.1 .descriptor _ _ _ (.single edit_orderDescriptor) rfl,
    (documents_tolerate_edits.2 _ _ (orderCommand none) edits_order rfl).1 ?_⟩
  rintro ⟨tag, payload, found, -⟩
  simp [Json.adjacent?, orderPayload, orderTag] at found

/-- The command to start an order, with its type by number, in a payload in front of the tag. -/
def numberedOrder : Members :=
  [("payload", .obj [("type", .num (.int 0)), ("descriptor", orderDescriptor [])]), orderTag]

/-- It is read, but not once the tag stands first. -/
theorem numberedOrder_reversed :
    Command.Edits numberedOrder numberedOrder.reverse ∧
      Command.ofJson? (.obj numberedOrder) = some (orderCommand none) ∧
      Command.ofJson? (.obj numberedOrder.reverse) = none :=
  ⟨.single (.permuted (List.reverse_perm _).symm), rfl, rfl⟩

end Stepwise
