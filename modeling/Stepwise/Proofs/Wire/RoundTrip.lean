/-
# Values survive the wire

What is written as a document is read back as it was. One value differs afterwards: an input that is
there but is nothing is read back as an input that was left out, wherever a descriptor occurs. Since
reading never gives such an input, what was once read is read back as it is from then on.

* `Json.list?_map`, `Json.textMap?_ofTextMap` : lists and maps are read back;
* `Snapshot.ofJson?_eq` : a snapshot is read field by field, its children like itself;
* `Snapshot.ofJson?_toJson` and its siblings : each type is read back;
* `WireType` : the types of the values that go over the wire;
* `values_survive_wire` : what becomes of each of them.
-/
import Stepwise.Proofs.Wire.Timestamp
import Stepwise.Wire.Account
import Stepwise.Wire.Request
import Stepwise.Wire.Script
import Stepwise.Wire.ServiceError
import Stepwise.Wire.Settings

namespace Stepwise

/-! ## Records -/

namespace Members

@[simp] theorem get?_nil (key : String) : get? [] key = none := rfl

@[simp] theorem get?_cons (k : String) (j : Json) (ms : Members) (key : String) :
    get? ((k, j) :: ms) key = if k = key then some j else get? ms key := by
  unfold get?
  by_cases h : k = key
  · rw [List.find?_cons_of_pos (by simpa using h), if_pos h]
    rfl
  · rw [List.find?_cons_of_neg (by simpa using h), if_neg h]

@[simp] theorem count_nil (key : String) : count [] key = 0 := rfl

@[simp] theorem count_cons (k : String) (j : Json) (ms : Members) (key : String) :
    count ((k, j) :: ms) key = count ms key + if k = key then 1 else 0 := by
  unfold count
  rw [List.countP_cons]
  by_cases h : k = key <;> simp [h]

theorem optional?_of_none {α : Type} {ms : Members} {key : String} (h : ms.get? key = none)
    (default : α) (decode : Json → Option α) : ms.optional? key default decode = some default := by
  rw [optional?, h]

theorem optional?_of_some {α : Type} {ms : Members} {key : String} {j : Json}
    (h : ms.get? key = some j) (default : α) (decode : Json → Option α) :
    ms.optional? key default decode = decode j := by
  rw [optional?, h]

end Members

/-! ## Plain values -/

namespace Json

@[simp] theorem string?_str (s : String) : string? (.str s) = some s := rfl

@[simp] theorem bool?_bool (b : Bool) : bool? (.bool b) = some b := rfl

@[simp] theorem uint32?_toNat (n : UInt32) : uint32? (.num (.int n.toNat)) = some n := by
  have hlt := n.toNat_lt
  simp [uint32?, UInt32.size]
  omega

@[simp] theorem uuid?_text (u : Uuid) : uuid? (.str u.text) = some u := by
  rw [uuid?, string?_str, Option.bind_some, Uuid.ofText?_text]

@[simp] theorem timestamp?_text (t : Timestamp) : timestamp? (.str t.text) = some t := by
  rw [timestamp?, string?_str, Option.bind_some, Timestamp.ofText?_text]

@[simp] theorem value?_tree (v : Value) : value? v.tree = some v := congrArg some v.ofTree_tree

/-- A list is read back if its items are. -/
theorem list?_map {α : Type} {encode : α → Json} {decode : Json → Option α} (as : List α)
    (h : ∀ a ∈ as, decode (encode a) = some a) : list? decode (.arr (as.map encode)) = some as := by
  induction as with
  | nil => rfl
  | cons a as ih =>
    have hrest := ih fun b hb => h b (List.mem_cons_of_mem _ hb)
    show (decode (encode a)).bind (fun a => (list? decode (.arr (as.map encode))).map (a :: ·)) = _
    rw [h a List.mem_cons_self, hrest]
    rfl

@[simp] theorem list?_map_str (ss : List String) : list? string? (.arr (ss.map .str)) = some ss :=
  list?_map ss fun _ _ => rfl

/-- A map from texts to texts is read back. -/
@[simp] theorem textMap?_ofTextMap (m : KeyMap String) : textMap? (ofTextMap m) = some m := by
  have entries (es : List (String × String)) :
      (es.map fun e => (e.1, Json.str e.2)).foldr (fun e entries => entries.bind fun es =>
        e.2.string?.map fun s => (e.1, s) :: es) (some []) = some es := by
    induction es with
    | nil => rfl
    | cons e es ih =>
      rw [List.map_cons, List.foldr_cons, ih]
      rfl
  rw [ofTextMap, textMap?, entries, Option.map_some, KeyMap.ofList_entries]

/-- What is there and is not nothing is read as it is. -/
theorem nullable?_obj {α : Type} (decode : Json → Option α) (members : Members) :
    nullable? decode (.obj members) = (decode (.obj members)).map some := rfl

end Json

/-! ## Snapshots and what they are made of -/

theorem Mode.ofJson?_toJson (m : Mode) (reading : Json.Reading) :
    ofJson? reading m.toJson = some m := by
  cases m <;> rfl

/-- A viewport is read from its sizes. -/
theorem Viewport.ofJson?_obj {width height : Json} {w h : UInt32}
    (hwidth : width.uint32? = some w) (hheight : height.uint32? = some h) :
    ofJson? (.obj [("width", width), ("height", height)]) = some ⟨w, h⟩ := by
  simp [ofJson?, fields, Json.record?, Members.required?, hwidth, hheight]

@[simp] theorem Viewport.ofJson?_toJson (v : Viewport) : ofJson? v.toJson = some v :=
  ofJson?_obj (Json.uint32?_toNat v.width) (Json.uint32?_toNat v.height)

theorem Parameter.ofJson?_toJson (p : Parameter) : ofJson? p.toJson = some p := by
  simp [ofJson?, toJson, fields, Json.record?, Members.required?, Members.optional?]

namespace Snapshot

/-- A snapshot is read field by field, and its children are read like itself. -/
theorem ofJson?_eq (j : Json) :
    ofJson? j = (do
      let ms ← j.record? fields
      let id ← ms.required? "id" Json.uuid?
      let processName ← ms.required? "process_name" Json.string?
      let step ← ms.required? "step" Json.string?
      let parameters ← ms.optional? "parameters" [] (Json.list? Parameter.ofJson?)
      let finished ← ms.optional? "finished" false Json.bool?
      let finalStep ← ms.optional? "final_step" false Json.bool?
      let autoContinue ← ms.optional? "auto_continue" false Json.bool?
      let canRollback ← ms.optional? "can_rollback" false Json.bool?
      let immediateInteraction ← ms.optional? "has_immediate_interaction" false Json.bool?
      let cancelled ← ms.optional? "cancelled" false Json.bool?
      let children ← ms.optional? "children" [] (Json.list? ofJson?)
      let properties ← ms.optional? "properties" .empty Json.textMap?
      some ⟨id, processName, step, parameters, finished, finalStep, autoContinue, canRollback,
        immediateInteraction, cancelled, children, properties⟩) := by
  rw [ofJson?]
  split
  · next none =>
    rw [none]
    rfl
  · next ms hms =>
    conv =>
      rhs
      rw [hms, Option.bind_eq_bind, Option.bind_some]
    -- the ten fields before the children are read in the same way
    iterate 10 refine Option.bind_congr fun _ _ => ?_
    refine congrArg (Option.bind · _) ?_
    split
    · next none => exact (Members.optional?_of_none none _ _).symm
    · next items hitems =>
      exact (Members.optional?_of_some hitems [] (Json.list? ofJson?)).symm
    · next k other hk =>
      rw [Members.optional?_of_some hk]
      cases k with
      | arr items => exact absurd rfl (other items)
      | _ => rfl

theorem ofJson?_toJson (s : Snapshot) : ofJson? s.toJson = some s := by
  induction s using forall_of_children with
  | h s ih =>
    obtain ⟨id, processName, step, parameters, finished, finalStep, autoContinue, canRollback,
      immediateInteraction, cancelled, children, properties⟩ := s
    have hparameters := Json.list?_map parameters fun p _ => p.ofJson?_toJson
    have hchildren := Json.list?_map children ih
    rw [ofJson?_eq, toJson, listToJson_eq_map]
    simp [fields, Json.record?, Members.required?, Members.optional?, hparameters, hchildren]

/-- A snapshot is written as an object. -/
theorem exists_toJson_eq (s : Snapshot) : ∃ members, s.toJson = .obj members := by
  obtain ⟨_, _, _, _, _, _, _, _, _, _, _, _⟩ := s
  rw [toJson]
  exact ⟨_, rfl⟩

/-- A snapshot may be left out, but it is there. -/
theorem nullable?_toJson (s : Snapshot) : Json.nullable? ofJson? s.toJson = some (some s) := by
  obtain ⟨members, h⟩ := s.exists_toJson_eq
  have hs := s.ofJson?_toJson
  rw [h] at hs ⊢
  rw [Json.nullable?_obj, hs]
  rfl

end Snapshot

/-! ## Descriptors -/

/-- The value is nothing at all. -/
def Value.isNull (v : Value) : Bool :=
  match v.tree with
  | .null => true
  | _ => false

/-- Free-form data that may be left out is read as it is, unless it is nothing. -/
theorem Json.nullable?_tree (v : Value) :
    nullable? value? v.tree = some (if v.isNull then none else some v) := by
  have hv := Json.value?_tree v
  unfold Value.isNull
  generalize v.tree = j at hv ⊢
  cases j with
  | null => rfl
  | _ =>
    show (value? _).map some = _
    rw [hv]
    rfl

/-- Data that was read where it may be left out is not nothing. -/
theorem Json.isNull_of_nullable? {j : Json} {v : Value}
    (h : nullable? value? j = some (some v)) : v.isNull = false := by
  cases j with
  | null => cases h
  | _ =>
    obtain rfl := Option.some.inj (Option.some.inj h)
    rfl

namespace Descriptor

/-- The descriptor that is read back: an input that is nothing counts as left out. -/
def readBack (d : Descriptor) : Descriptor := { d with input := d.input.filter (!·.isNull) }

section Members

variable {name locale : String} {view : Json} {viewport : Viewport}

theorem ofJson?_without_input (hviewport : Viewport.ofJson? view = some viewport) :
    ofJson? (.obj [("name", .str name), ("locale", .str locale), ("viewport", view)]) =
      some ⟨name, none, locale, viewport⟩ := by
  simp [ofJson?, fields, Json.record?, Members.required?, Members.optional?, hviewport]

theorem ofJson?_with_input {data : Json} {input : Option Value}
    (hinput : Json.nullable? Json.value? data = some input)
    (hviewport : Viewport.ofJson? view = some viewport) :
    ofJson? (.obj [("name", .str name), ("input", data), ("locale", .str locale),
      ("viewport", view)]) = some ⟨name, input, locale, viewport⟩ := by
  simp [ofJson?, fields, Json.record?, Members.required?, Members.optional?, hinput, hviewport]

end Members

theorem ofJson?_toJson (d : Descriptor) : ofJson? d.toJson = some d.readBack := by
  obtain ⟨name, input, locale, viewport⟩ := d
  have hviewport := viewport.ofJson?_toJson
  cases input with
  | none => exact ofJson?_without_input hviewport
  | some v =>
    have hinput : (if v.isNull then none else some v) = (some v).filter (!·.isNull) := by
      cases null : v.isNull <;> simp [null, Option.filter_some]
    have hread := Json.nullable?_tree v
    rw [hinput] at hread
    exact ofJson?_with_input hread hviewport

/-- A descriptor that was read is read back as it is. -/
theorem readBack_of_ofJson? {j : Json} {d : Descriptor} (h : ofJson? j = some d) :
    d.readBack = d := by
  obtain ⟨ms, -, h⟩ := Option.bind_eq_some_iff.1 h
  obtain ⟨name, -, h⟩ := Option.bind_eq_some_iff.1 h
  obtain ⟨input, hinput, h⟩ := Option.bind_eq_some_iff.1 h
  obtain ⟨locale, -, h⟩ := Option.bind_eq_some_iff.1 h
  obtain ⟨viewport, -, h⟩ := Option.bind_eq_some_iff.1 h
  obtain rfl := Option.some.inj h
  cases input with
  | none => rfl
  | some v =>
    have hv : v.isNull = false := by
      unfold Members.optional? at hinput
      split at hinput
      · cases hinput
      · exact Json.isNull_of_nullable? hinput
    simp [readBack, hv]

end Descriptor

/-! ## Requests and events -/

theorem Interaction.ofJson?_toJson (e : Interaction) (reading : Json.Reading) :
    ofJson? reading e.toJson = some e := by
  obtain ⟨kind, source⟩ := e
  cases kind <;> rfl

theorem Interaction.nullable?_toJson (e : Interaction) (reading : Json.Reading) :
    Json.nullable? (ofJson? reading) e.toJson = some (some e) := by
  show (ofJson? reading e.toJson).map some = _
  rw [e.ofJson?_toJson]
  rfl

namespace Request

/-- The request that is read back. -/
def readBack : Request → Request
  | .start descriptor => .start descriptor.readBack
  | r => r

/-- However it is read, a request is read back. -/
theorem ofJson?_toJson (r : Request) (reading : Json.Reading) :
    ofJson? reading r.toJson = some r.readBack := by
  cases r with
  | start descriptor =>
    simp [ofJson?, toJson, readBack, Json.tagged?, Json.tagName?, startOfJson?, Json.record?,
      Members.required?, descriptor.ofJson?_toJson]
  | «continue» state mode event =>
    cases event with
    | none =>
      simp [ofJson?, toJson, readBack, Json.tagged?, Json.tagName?, continueOfJson?, Json.record?,
        Members.required?, Members.optional?, state.ofJson?_toJson, mode.ofJson?_toJson]
    | some event =>
      have hevent := event.nullable?_toJson .setAside
      simp [ofJson?, toJson, readBack, Json.tagged?, Json.tagName?, continueOfJson?, Json.record?,
        Members.required?, Members.optional?, state.ofJson?_toJson, mode.ofJson?_toJson, hevent]

/-- A request that was read is read back as it is. -/
theorem readBack_of_ofJson? {j : Json} {r : Request} {reading : Json.Reading}
    (h : ofJson? reading j = some r) : r.readBack = r := by
  obtain ⟨⟨tag, rest⟩, -, h⟩ := Option.bind_eq_some_iff.1 h
  obtain ⟨type, -, h⟩ := Option.bind_eq_some_iff.1 h
  cases r with
  | «continue» => rfl
  | start descriptor =>
    have hstart : startOfJson? rest = some (.start descriptor) := by
      by_cases start : type = "start"
      · rwa [if_pos start] at h
      · rw [if_neg start] at h
        split at h
        · obtain ⟨ms, -, h⟩ := Option.bind_eq_some_iff.1 h
          obtain ⟨state, -, h⟩ := Option.bind_eq_some_iff.1 h
          obtain ⟨mode, -, h⟩ := Option.bind_eq_some_iff.1 h
          obtain ⟨event, -, h⟩ := Option.bind_eq_some_iff.1 h
          cases h
        · cases h
    obtain ⟨ms, -, hstart⟩ := Option.bind_eq_some_iff.1 hstart
    obtain ⟨d, hd, hstart⟩ := Option.bind_eq_some_iff.1 hstart
    cases hstart
    obtain ⟨document, -, hd⟩ := Option.bind_eq_some_iff.1 hd
    rw [readBack, Descriptor.readBack_of_ofJson? hd]

end Request

namespace Command

/-- The command that is read back. -/
def readBack : Command → Command
  | .executeProcess request => .executeProcess request.readBack

theorem ofJson?_toJson (c : Command) : ofJson? c.toJson = some c.readBack := by
  obtain ⟨request⟩ := c
  simp [ofJson?, toJson, readBack, Json.adjacent?, Json.choice?, request.ofJson?_toJson]

/-- A command that was read is read back as it is. -/
theorem readBack_of_ofJson? {j : Json} {c : Command} (h : ofJson? j = some c) :
    c.readBack = c := by
  obtain ⟨⟨tag, payload, reading⟩, -, h⟩ := Option.bind_eq_some_iff.1 h
  obtain ⟨command, -, h⟩ := Option.bind_eq_some_iff.1 h
  split at h
  · obtain ⟨request, hrequest, rfl⟩ := Option.map_eq_some_iff.1 h
    rw [readBack, Request.readBack_of_ofJson? hrequest]
  · cases h

end Command

namespace LifecycleEvent

/-- The name of a client in documents. -/
def clientToJson (client : Uuid) : Json := .str client.text

theorem nullable?_optional (parent : Option Uuid) :
    Json.nullable? Json.uuid? (toJson.optional clientToJson parent) = some parent := by
  cases parent with
  | none => rfl
  | some client =>
    show (Json.uuid? (.str client.text)).map some = _
    rw [Json.uuid?_text]
    rfl

theorem ofJson?_tagged (type : String) (payload : Members) :
    ofJson? (toJson.tagged type payload) = payloadOfJson? type (.obj payload) := by
  simp [ofJson?, toJson.tagged, Json.adjacent?, Json.choice?]

theorem ofJson?_toJson (e : LifecycleEvent Uuid) : ofJson? (e.toJson clientToJson) = some e := by
  cases e with
  | started client processName =>
    rw [toJson, ofJson?_tagged]
    simp [payloadOfJson?, Json.objectRecord?, Json.record?, Members.required?, clientToJson]
  | updated client state =>
    rw [toJson, ofJson?_tagged]
    simp [payloadOfJson?, Json.objectRecord?, Json.record?, Members.required?, clientToJson,
      state.ofJson?_toJson]
  | finished client parent state =>
    have hparent := nullable?_optional parent
    rw [toJson, ofJson?_tagged]
    simp [payloadOfJson?, Json.objectRecord?, Json.record?, Members.required?, Members.optional?,
      clientToJson, hparent, state.ofJson?_toJson]
  | failed client parent error =>
    have hparent := nullable?_optional parent
    rw [toJson, ofJson?_tagged]
    simp [payloadOfJson?, Json.objectRecord?, Json.record?, Members.required?, Members.optional?,
      clientToJson, hparent]

end LifecycleEvent

/-! ## Errors, accounts, settings and scripts -/

/-- A text that may be left out, but is there. -/
@[simp] theorem Json.nullable?_str (s : String) : nullable? string? (.str s) = some (some s) := rfl

theorem ServiceError.ofJson?_toJson (e : ServiceError) : ofJson? e.toJson = some e := by
  cases e with
  | recoverable message fieldErrors replacement =>
    cases replacement with
    | none =>
      simp [ofJson?, toJson, Json.tagged?, Json.tagName?, recoverableOfJson?, Json.record?,
        Members.required?, Members.optional?]
    | some s =>
      simp [ofJson?, toJson, Json.tagged?, Json.tagName?, recoverableOfJson?, Json.record?,
        Members.required?, Members.optional?, s.nullable?_toJson]
  | unrecoverable message cause =>
    cases cause <;>
      simp [ofJson?, toJson, Json.tagged?, Json.tagName?, unrecoverableOfJson?, Json.record?,
        Members.required?, Members.optional?]

theorem Credentials.ofJson?_toJson (c : Credentials) : ofJson? c.toJson = some c := by
  simp [ofJson?, toJson, fields, Json.record?, Members.required?, Members.optional?]

theorem User.ofJson?_toJson (u : User) : ofJson? u.toJson = some u := by
  obtain ⟨userId, displayName, locale, roles, loggedInAt⟩ := u
  cases locale <;>
    simp [ofJson?, toJson, fields, Json.record?, Members.required?, Members.optional?]

/-- Settings are read field by field. -/
theorem Settings.ofJson?_obj {mainProcess locale : String} {view : Json} {viewport : Viewport}
    {autoContinue : Bool} (hviewport : Viewport.ofJson? view = some viewport) :
    ofJson? (.obj [("main_process", .str mainProcess), ("locale", .str locale), ("viewport", view),
      ("auto_continue", .bool autoContinue)]) =
        some ⟨mainProcess, locale, viewport, autoContinue⟩ := by
  simp [ofJson?, fields, Json.record?, Members.optional?, hviewport]

theorem Settings.ofJson?_toJson (s : Settings) : ofJson? s.toJson = some s :=
  ofJson?_obj s.viewport.ofJson?_toJson

theorem Rule.ofJson?_name (r : Rule) : ofJson? (.str r.name) = some r := by
  cases r <;> rfl

theorem ScriptParameter.ofJson?_toJson (p : ScriptParameter) : ofJson? p.toJson = some p := by
  obtain ⟨name, label, default, required, rule⟩ := p
  cases rule with
  | none => simp [ofJson?, toJson, fields, Json.record?, Members.required?, Members.optional?]
  | some rule =>
    have hrule : Json.nullable? Rule.ofJson? (.str rule.name) = some (some rule) :=
      congrArg (Option.map some) rule.ofJson?_name
    simp [ofJson?, toJson, fields, Json.record?, Members.required?, Members.optional?, hrule]

theorem ScriptStep.ofJson?_toJson (s : ScriptStep) : ofJson? s.toJson = some s := by
  obtain ⟨step, style, parameters, autoContinue, canRollback, immediateInteraction, spawn⟩ := s
  have hparameters := Json.list?_map parameters fun p _ => p.ofJson?_toJson
  cases style <;>
    simp [ofJson?, toJson, fields, Json.record?, Members.required?, Members.optional?, hparameters]

theorem Script.ofJson?_toJson (s : Script) : ofJson? s.toJson = some s := by
  have hsteps := Json.list?_map s.steps fun t _ => t.ofJson?_toJson
  simp [ofJson?, toJson, fields, Json.record?, Members.required?, Members.optional?, hsteps]

/-! ## All types -/

/-- The types of the values that go over the wire. -/
inductive WireType where
  | mode
  | viewport
  | descriptor
  | parameter
  | snapshot
  | serviceError
  | request
  | command
  | interaction
  | event
  | credentials
  | user
  | settings
  | script

namespace WireType

/-- The values of a type. -/
def Carrier : WireType → Type
  | mode => Mode
  | viewport => Viewport
  | descriptor => Descriptor
  | parameter => Parameter
  | snapshot => Snapshot
  | serviceError => ServiceError
  | request => Request
  | command => Command
  | interaction => Interaction
  | event => LifecycleEvent Uuid
  | credentials => Credentials
  | user => User
  | settings => Settings
  | script => Script

/-- Writes a value as a document. -/
def encode : (w : WireType) → w.Carrier → Json
  | mode => Mode.toJson
  | viewport => Viewport.toJson
  | descriptor => Descriptor.toJson
  | parameter => Parameter.toJson
  | snapshot => Snapshot.toJson
  | serviceError => ServiceError.toJson
  | request => Request.toJson
  | command => Command.toJson
  | interaction => Interaction.toJson
  | event => LifecycleEvent.toJson LifecycleEvent.clientToJson
  | credentials => Credentials.toJson
  | user => User.toJson
  | settings => Settings.toJson
  | script => Script.toJson

/-- Reads a value from a document. -/
def decode : (w : WireType) → Json → Option w.Carrier
  | mode => Mode.ofJson? .direct
  | viewport => Viewport.ofJson?
  | descriptor => Descriptor.ofJson?
  | parameter => Parameter.ofJson?
  | snapshot => Snapshot.ofJson?
  | serviceError => ServiceError.ofJson?
  | request => Request.ofJson? .direct
  | command => Command.ofJson?
  | interaction => Interaction.ofJson? .direct
  | event => LifecycleEvent.ofJson?
  | credentials => Credentials.ofJson?
  | user => User.ofJson?
  | settings => Settings.ofJson?
  | script => Script.ofJson?

/-- The value that is read back where a value was written. -/
def readBack : (w : WireType) → w.Carrier → w.Carrier
  | descriptor => Descriptor.readBack
  | request => Request.readBack
  | command => Command.readBack
  | _ => id

/-- Each type is read back by its own rules. -/
theorem decode_encode (w : WireType) (v : w.Carrier) :
    w.decode (w.encode v) = some (w.readBack v) := by
  cases w with
  | mode => exact Mode.ofJson?_toJson v .direct
  | viewport => exact Viewport.ofJson?_toJson v
  | descriptor => exact Descriptor.ofJson?_toJson v
  | parameter => exact Parameter.ofJson?_toJson v
  | snapshot => exact Snapshot.ofJson?_toJson v
  | serviceError => exact ServiceError.ofJson?_toJson v
  | request => exact Request.ofJson?_toJson v .direct
  | command => exact Command.ofJson?_toJson v
  | interaction => exact Interaction.ofJson?_toJson v .direct
  | event => exact LifecycleEvent.ofJson?_toJson v
  | credentials => exact Credentials.ofJson?_toJson v
  | user => exact User.ofJson?_toJson v
  | settings => exact Settings.ofJson?_toJson v
  | script => exact Script.ofJson?_toJson v

/-- What was read is what is read back. -/
theorem readBack_of_decode {w : WireType} {j : Json} {v : w.Carrier} (h : w.decode j = some v) :
    w.readBack v = v := by
  cases w with
  | descriptor => exact Descriptor.readBack_of_ofJson? h
  | request => exact Request.readBack_of_ofJson? h
  | command => exact Command.readBack_of_ofJson? h
  | _ => rfl

end WireType

/-- **Values survive the wire.** A value of any type that is written as a document is read back as it
was, except that an input of a descriptor that is nothing is read back as left out; and a value that was
once read is written and read back as it is. -/
theorem values_survive_wire (w : WireType) :
    (∀ v : w.Carrier, w.decode (w.encode v) = some (w.readBack v)) ∧
      ∀ (j : Json) (v : w.Carrier), w.decode j = some v → w.decode (w.encode v) = some v := by
  refine ⟨w.decode_encode, fun j v h => ?_⟩
  rw [w.decode_encode, WireType.readBack_of_decode h]

/-- The command to start an order, with an input or without. -/
def orderCommand (input : Option Value) : Command :=
  .executeProcess (.start ⟨"Order", input, "en-US", .none⟩)

/-- The same as a document in which the input is nothing and the viewport is left out. -/
def orderDocument : Json :=
  .obj [("command", .str "EXECUTE_PROCESS"), ("payload", .obj [("type", .str "start"),
    ("descriptor", .obj [("name", .str "Order"), ("input", .null), ("locale", .str "en-US")])])]

/-- An input that is nothing gets lost once, whether it is read or written. -/
theorem values_survive_wire_order :
    WireType.command.decode orderDocument = some (orderCommand none) ∧
      WireType.command.decode (WireType.command.encode (orderCommand none)) =
        some (orderCommand none) ∧
      WireType.command.decode (WireType.command.encode (orderCommand (some .null))) =
        some (orderCommand none) := by
  have hread : WireType.command.decode orderDocument = some (orderCommand none) := rfl
  exact ⟨hread, (values_survive_wire .command).2 orderDocument _ hread,
    (values_survive_wire .command).1 (orderCommand (some .null))⟩

end Stepwise
