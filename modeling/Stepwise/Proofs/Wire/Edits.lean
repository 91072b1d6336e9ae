/-
# Edits of documents

Whoever writes a document may put the members of a record in another order, add members that nobody
knows yet, and leave out members that say only what is assumed anyway. Such an edit is made to one
record, anywhere in the document. Free-form data is no record, and has no edits.

* `Part`, `Field` : what parts of documents are read as, and the fields of records;
* `Part.fields?` : the fields of a record; those of a record with several forms depend on its tag;
* `Part.Edit`, `Members.Edit` : one edit of a part of a document, and of the members of a record;
* `Kept` : what could be read is read as it was;
* `Members.Follows` : members from which every field is read as it was;
* `follows_of_perm`, `follows_added`, `follows_omitted`, `follows_within` : each kind of edit leaves
  members from which every field is read as it was.
-/
import Mathlib.Data.List.Nodup
import Mathlib.Logic.Relation
import Stepwise.Proofs.Wire.RoundTrip

namespace Stepwise

/-! ## Parts and fields -/

/-- What a part of a document is read as: plain values, lists, records, and records with several forms.
Commands are not parts of other documents. -/
inductive Part where
  /-- The tag of a record, as it stands. -/
  | tag
  | text
  | flag
  | size
  | uuid
  | timestamp
  /-- Free-form data. -/
  | data
  /-- A free-form map of texts. -/
  | texts
  | mode (reading : Json.Reading)
  | kind (reading : Json.Reading)
  | rule
  | nullable (part : Part)
  | list (items : Part)
  | viewport
  | descriptor
  | parameter
  | snapshot
  | interaction (reading : Json.Reading)
  | request (reading : Json.Reading)
  | serviceError
  | event
  /-- The payload of an event with a given type. -/
  | payload (type : String)
  | credentials
  | user
  | settings
  | scriptParameter
  | step
  | script

namespace Part

/-- The values of a part. -/
def Carrier : Part → Type
  | tag => Json
  | text => String
  | flag => Bool
  | size => UInt32
  | uuid => Uuid
  | timestamp => Timestamp
  | data => Value
  | texts => KeyMap String
  | mode _ => Mode
  | kind _ => InteractionKind
  | rule => Rule
  | nullable p => Option p.Carrier
  | list p => List p.Carrier
  | viewport => Viewport
  | descriptor => Descriptor
  | parameter => Parameter
  | snapshot => Snapshot
  | interaction _ => Interaction
  | request _ => Request
  | serviceError => ServiceError
  | event => LifecycleEvent Uuid
  | payload _ => LifecycleEvent Uuid
  | credentials => Credentials
  | user => User
  | settings => Settings
  | scriptParameter => ScriptParameter
  | step => ScriptStep
  | script => Script

/-- Reads a part. -/
def decode : (p : Part) → Json → Option p.Carrier
  | tag => some
  | text => Json.string?
  | flag => Json.bool?
  | size => Json.uint32?
  | uuid => Json.uuid?
  | timestamp => Json.timestamp?
  | data => Json.value?
  | texts => Json.textMap?
  | mode reading => Mode.ofJson? reading
  | kind reading => InteractionKind.ofJson? reading
  | rule => Rule.ofJson?
  | nullable p => Json.nullable? p.decode
  | list p => Json.list? p.decode
  | viewport => Viewport.ofJson?
  | descriptor => Descriptor.ofJson?
  | parameter => Parameter.ofJson?
  | snapshot => Snapshot.ofJson?
  | interaction reading => Interaction.ofJson? reading
  | request reading => Request.ofJson? reading
  | serviceError => ServiceError.ofJson?
  | event => LifecycleEvent.ofJson?
  | payload type => LifecycleEvent.payloadOfJson? type
  | credentials => Credentials.ofJson?
  | user => User.ofJson?
  | settings => Settings.ofJson?
  | scriptParameter => ScriptParameter.ofJson?
  | step => ScriptStep.ofJson?
  | script => Script.ofJson?

end Part

/-- A field of a record. -/
structure Field where
  name : String
  part : Part
  /-- What is assumed where the field is left out; nothing if it has to be there. -/
  default : Option part.Carrier

namespace Field

/-- A field that has to be there. -/
def must (name : String) (part : Part) : Field := ⟨name, part, none⟩

/-- A field that may be left out. -/
def may (name : String) (part : Part) (default : part.Carrier) : Field := ⟨name, part, some default⟩

/-- Reads a field. -/
def read (f : Field) (ms : Members) : Option f.part.Carrier :=
  match f.default with
  | none => ms.required? f.name f.part.decode
  | some d => ms.optional? f.name d f.part.decode

end Field

/-! The fields of each type of record. Those of a record with several forms depend on the form. -/

def Viewport.wire : List Field := [.must "width" .size, .must "height" .size]

def Descriptor.wire : List Field :=
  [.must "name" .text, .may "input" (.nullable .data) none, .must "locale" .text,
    .may "viewport" .viewport Viewport.none]

def Parameter.wire : List Field :=
  [.must "name" .text, .may "label" .text "", .may "value" .data Value.null,
    .may "required" .flag false, .may "modified" .flag false]

def Snapshot.wire : List Field :=
  [.must "id" .uuid, .must "process_name" .text, .must "step" .text,
    .may "parameters" (.list .parameter) [], .may "finished" .flag false,
    .may "final_step" .flag false, .may "auto_continue" .flag false,
    .may "can_rollback" .flag false, .may "has_immediate_interaction" .flag false,
    .may "cancelled" .flag false, .may "children" (.list .snapshot) [],
    .may "properties" .texts .empty]

def Interaction.wire (reading : Json.Reading) : List Field :=
  [.must "kind" (.kind reading), .must "source" .text]

def Request.wire (type : String) : List Field :=
  if type = "start" then [.must "descriptor" .descriptor]
  else if type = "continue" then
    [.must "state" .snapshot, .must "mode" (.mode .setAside),
      .may "event" (.nullable (.interaction .setAside)) none]
  else []

def ServiceError.wire (kind : String) : List Field :=
  if kind = "recoverable" then
    [.must "message" .text, .may "field_errors" .texts .empty,
      .may "replacement" (.nullable .snapshot) none]
  else if kind = "unrecoverable" then
    [.must "message" .text, .may "cause" (.nullable .text) none]
  else []

def LifecycleEvent.wire (type : String) : List Field :=
  if type = "processStarted" then [.must "client_id" .uuid, .must "process_name" .text]
  else if type = "processUpdated" then [.must "client_id" .uuid, .must "state" .snapshot]
  else if type = "processFinished" then
    [.must "client_id" .uuid, .may "parent" (.nullable .uuid) none, .must "state" .snapshot]
  else if type = "processFailed" then
    [.must "client_id" .uuid, .may "parent" (.nullable .uuid) none, .must "error" .text]
  else []

def Credentials.wire : List Field := [.must "user" .text, .may "password" .text ""]

def User.wire : List Field :=
  [.must "user_id" .text, .must "display_name" .text, .may "locale" (.nullable .text) none,
    .may "roles" (.list .text) [], .must "logged_in_at" .timestamp]

def Settings.wire : List Field :=
  [.may "main_process" .text standard.mainProcess, .may "locale" .text standard.locale,
    .may "viewport" .viewport standard.viewport, .may "auto_continue" .flag standard.autoContinue]

def ScriptParameter.wire : List Field :=
  [.must "name" .text, .may "label" .text "", .may "default" .data Value.null,
    .may "required" .flag false, .may "rule" (.nullable .rule) none]

def ScriptStep.wire : List Field :=
  [.must "step" .text, .may "style" (.nullable .text) none,
    .may "parameters" (.list .scriptParameter) [], .may "auto-continue" .flag false,
    .may "can-rollback" .flag false, .may "immediate-interaction" .flag false,
    .may "spawn" (.list .text) []]

def Script.wire : List Field :=
  [.must "name" .text, .may "description" .text "", .must "steps" (.list .step)]

/-- The fields of a command. Its request is read as freely as if it had been set aside. -/
def Command.wire : List Field := [.must "command" .tag, .must "payload" (.request .setAside)]

/-- The fields of a record, tag and payload included; none for what is no record. -/
def Part.fields? : Part → Members → Option (List Field)
  | viewport, _ => some Viewport.wire
  | descriptor, _ => some Descriptor.wire
  | parameter, _ => some Parameter.wire
  | snapshot, _ => some Snapshot.wire
  | interaction reading, _ => some (Interaction.wire reading)
  | request reading, ms =>
    some (.must "type" .tag ::
      Request.wire (((ms.get? "type").bind (Json.tagName? reading Request.types)).getD ""))
  | serviceError, ms =>
    some (.must "kind" .tag ::
      ServiceError.wire
        (((ms.get? "kind").bind (Json.tagName? .direct ServiceError.kinds)).getD ""))
  | event, ms =>
    some [.must "type" .tag,
      .must "payload" (.payload (((ms.get? "type").bind (Json.choice? .direct)).getD ""))]
  | payload type, _ => some (LifecycleEvent.wire type)
  | credentials, _ => some Credentials.wire
  | user, _ => some User.wire
  | settings, _ => some Settings.wire
  | scriptParameter, _ => some ScriptParameter.wire
  | step, _ => some ScriptStep.wire
  | script, _ => some Script.wire
  | _, _ => none

/-! ## Edits -/

mutual
/-- One edit of a part of a document, in the part itself or somewhere within it. -/
inductive Part.Edit : Part → Json → Json → Prop where
  | record {p : Part} {ms ms' : Members} {fields : List Field} (h : p.fields? ms = some fields)
      (e : Members.Edit fields ms ms') : Part.Edit p (.obj ms) (.obj ms')
  | item {p : Part} (before after : List Json) {j j' : Json} (e : Part.Edit p j j') :
    Part.Edit (.list p) (.arr (before ++ j :: after)) (.arr (before ++ j' :: after))
  | present {p : Part} {j j' : Json} (e : Part.Edit p j j') : Part.Edit (.nullable p) j j'
/-- One edit of the members of a record with given fields. -/
inductive Members.Edit : List Field → Members → Members → Prop where
  | permuted {fields : List Field} {ms ms' : Members} (h : ms.Perm ms') :
    Members.Edit fields ms ms'
  /-- A member is put in that is no field. -/
  | added {fields : List Field} (before after : Members) (key : String) (j : Json)
      (unknown : key ∉ fields.map Field.name) :
    Members.Edit fields (before ++ after) (before ++ (key, j) :: after)
  /-- A member is left out that says what is assumed without it. -/
  | omitted {fields : List Field} (before after : Members) {f : Field} (hf : f ∈ fields)
      {d : f.part.Carrier} (assumed : f.default = some d) {j : Json}
      (holds : f.part.decode j = some d) :
    Members.Edit fields (before ++ (f.name, j) :: after) (before ++ after)
  | within {fields : List Field} (before after : Members) {f : Field} (hf : f ∈ fields)
      {j j' : Json} (e : Part.Edit f.part j j') :
    Members.Edit fields (before ++ (f.name, j) :: after) (before ++ (f.name, j') :: after)
end

/-- Any number of edits, one after the other. -/
def Part.Edits (p : Part) : Json → Json → Prop := Relation.ReflTransGen p.Edit

/-- Any number of edits of the members of a command. -/
def Command.Edits : Members → Members → Prop := Relation.ReflTransGen (Members.Edit Command.wire)

/-! ## What edits keep -/

/-- What could be read is read as it was. -/
def Kept {α : Type} (x y : Option α) : Prop := ∀ a, x = some a → y = some a

namespace Kept

variable {α β : Type} {x y : Option α}

theorem rfl : Kept x x := fun _ h => h

theorem bind (h : Kept x y) {f g : α → Option β} (next : ∀ a, Kept (f a) (g a)) :
    Kept (x >>= f) (y >>= g) := by
  intro b hb
  obtain ⟨a, ha, hf⟩ := Option.bind_eq_some_iff.1 hb
  exact Option.bind_eq_some_iff.2 ⟨a, h a ha, next a b hf⟩

theorem map (h : Kept x y) (f : α → β) : Kept (x.map f) (y.map f) := by
  intro b hb
  obtain ⟨a, ha, hf⟩ := Option.map_eq_some_iff.1 hb
  exact Option.map_eq_some_iff.2 ⟨a, h a ha, hf⟩

end Kept

namespace Members

/-- The members with a key. -/
def named (ms : Members) (key : String) : Members := ms.filter (·.1 == key)

theorem count_eq_length_named (ms : Members) (key : String) :
    ms.count key = (ms.named key).length := List.countP_eq_length_filter

theorem get?_eq_head?_named (ms : Members) (key : String) :
    ms.get? key = (ms.named key).head?.map (·.2) := by
  rw [get?, named, List.head?_filter]

theorem named_append (before after : Members) (key : String) :
    named (before ++ after) key = before.named key ++ after.named key := List.filter_append _ _

theorem named_cons_self (k : String) (j : Json) (ms : Members) :
    named ((k, j) :: ms) k = (k, j) :: ms.named k :=
  List.filter_cons_of_pos (a := (k, j)) (beq_self_eq_true k)

/-- A member with another key is not among them. -/
theorem named_middle_of_ne {k key : String} (h : k ≠ key) (before after : Members) (j : Json) :
    named (before ++ (k, j) :: after) key = named (before ++ after) key := by
  simp [named, h]

/-- If a member has its key to itself, no other member has the key. -/
theorem named_others {k : String} {before after : Members} {j : Json}
    (once : count (before ++ (k, j) :: after) k ≤ 1) : named (before ++ after) k = [] := by
  rw [count_eq_length_named, named_append, named_cons_self, List.length_append,
    List.length_cons] at once
  rw [named_append, ← List.length_eq_zero_iff, List.length_append]
  omega

/-- If no other member has its key, a member is all there is under the key. -/
theorem named_middle {k : String} {before after : Members} (others : named (before ++ after) k = [])
    (j : Json) : named (before ++ (k, j) :: after) k = [(k, j)] := by
  rw [named_append, List.append_eq_nil_iff] at others
  rw [named_append, named_cons_self, others.1, others.2, List.nil_append]

end Members

namespace Field

variable {f : Field} {ms ms' : Members}

/-- A field is read from the members that have its name. -/
theorem read_congr (h : ms.named f.name = ms'.named f.name) : f.read ms = f.read ms' := by
  unfold read Members.required? Members.optional?
  rw [Members.get?_eq_head?_named, Members.get?_eq_head?_named, h]

/-- A field that is there is read from its member. -/
theorem read_of_get? {j : Json} (h : ms.get? f.name = some j) : f.read ms = f.part.decode j := by
  unfold read
  split
  · rw [Members.required?, h, Option.bind_some]
  · exact Members.optional?_of_some h _ _

/-- A field that is left out is what is assumed. -/
theorem read_of_omitted {d : f.part.Carrier} (assumed : f.default = some d)
    (h : ms.get? f.name = none) : f.read ms = some d := by
  unfold read
  rw [assumed]
  exact Members.optional?_of_none h _ _

end Field

namespace Members

/-- Every field that occurs once at most is read as it was. -/
def Follows (fields : List Field) (ms ms' : Members) : Prop :=
  ∀ f ∈ fields, ms.count f.name ≤ 1 → ms'.count f.name ≤ 1 ∧ Kept (f.read ms) (f.read ms')

variable {fields : List Field} {ms ms' : Members}

/-- A field is read as it was if the members with its name are the same. -/
theorem follow_of_named {f : Field} (h : ms.named f.name = ms'.named f.name)
    (once : ms.count f.name ≤ 1) : ms'.count f.name ≤ 1 ∧ Kept (f.read ms) (f.read ms') := by
  rw [← Field.read_congr h]
  rw [count_eq_length_named, ← h, ← count_eq_length_named]
  exact ⟨once, .rfl⟩

/-- The order of the members does not matter: no order is among one member. -/
theorem follows_of_perm (h : ms.Perm ms') : Follows fields ms ms' := by
  intro f _ once
  refine follow_of_named ?_ once
  have same : (ms.named f.name).Perm (ms'.named f.name) := h.filter _
  rw [count_eq_length_named] at once
  match named : ms.named f.name, same, once with
  | [], same, _ => exact (List.nil_perm.1 same).symm
  | [e], same, _ => exact List.singleton_perm.1 same

theorem follows_added (before after : Members) {key : String} (j : Json)
    (unknown : key ∉ fields.map Field.name) :
    Follows fields (before ++ after) (before ++ (key, j) :: after) := by
  intro f hf once
  refine follow_of_named (named_middle_of_ne ?_ before after j).symm once
  rintro rfl
  exact unknown (List.mem_map_of_mem hf)

/-- What is done to the members of one field is not seen in the other fields. -/
theorem follows_of_others {f : Field} (hf : f ∈ fields) (distinct : (fields.map Field.name).Nodup)
    (others : ∀ key, f.name ≠ key → ms.named key = ms'.named key)
    (own : ms.count f.name ≤ 1 → ms'.count f.name ≤ 1 ∧ Kept (f.read ms) (f.read ms')) :
    Follows fields ms ms' := by
  intro g hg once
  by_cases same : f.name = g.name
  · obtain rfl := List.inj_on_of_nodup_map distinct hf hg same
    exact own once
  · exact follow_of_named (others g.name same) once

theorem follows_omitted {f : Field} (hf : f ∈ fields) (distinct : (fields.map Field.name).Nodup)
    (before after : Members) {d : f.part.Carrier} (assumed : f.default = some d) {j : Json}
    (holds : f.part.decode j = some d) :
    Follows fields (before ++ (f.name, j) :: after) (before ++ after) := by
  refine follows_of_others hf distinct (fun _ h => named_middle_of_ne h _ _ _) fun once => ?_
  have others := named_others once
  have there : get? (before ++ (f.name, j) :: after) f.name = some j := by
    rw [get?_eq_head?_named, named_middle others]
    rfl
  have gone : get? (before ++ after) f.name = none := by
    rw [get?_eq_head?_named, others]
    rfl
  rw [Field.read_of_get? there, holds, Field.read_of_omitted assumed gone]
  rw [count_eq_length_named, others]
  exact ⟨Nat.zero_le 1, .rfl⟩

theorem follows_within {f : Field} (hf : f ∈ fields) (distinct : (fields.map Field.name).Nodup)
    (before after : Members) {j j' : Json} (kept : Kept (f.part.decode j) (f.part.decode j')) :
    Follows fields (before ++ (f.name, j) :: after) (before ++ (f.name, j') :: after) := by
  refine follows_of_others hf distinct ?_ fun once => ?_
  · intro key h
    rw [named_middle_of_ne h, named_middle_of_ne h]
  have others := named_others once
  have there (k : Json) : get? (before ++ (f.name, k) :: after) f.name = some k := by
    rw [get?_eq_head?_named, named_middle others]
    rfl
  rw [Field.read_of_get? (there j), Field.read_of_get? (there j')]
  rw [count_eq_length_named, named_middle others]
  exact ⟨Nat.le_refl 1, kept⟩

end Members

end Stepwise
