/-
# Records in documents

How the fields of a record are found in a document tree. A record is written as an object or
as the array of its fields in their order. In an object unknown members are passed over, and
a known field may occur once only; in an array fields at the end may be left out. A record
with several forms carries a tag that says which one is written.

* `Json.record?` : the members of a record;
* `required?`, `optional?` : the value of a field;
* `Json.choice?` : one of several names;
* `Json.tagged?`, `Json.adjacent?` : a tag among the fields, or beside a payload.
-/
import Stepwise.Json.Basic
import Stepwise.Uuid
import Stepwise.Timestamp

namespace Stepwise

/-- The members of a record by the names of its fields. -/
abbrev Members := List (String × Json)

namespace Members

/-- The first member with a key. -/
def get? (ms : Members) (key : String) : Option Json := (ms.find? (·.1 == key)).map (·.2)

/-- How often a key occurs. -/
def count (ms : Members) (key : String) : Nat := ms.countP (·.1 == key)

/-- The value of a field that has to be there. -/
def required? {α : Type} (ms : Members) (key : String) (decode : Json → Option α) : Option α :=
  (ms.get? key).bind decode

/-- The value of a field, or a default where the field is left out. -/
def optional? {α : Type} (ms : Members) (key : String) (default : α)
    (decode : Json → Option α) : Option α :=
  match ms.get? key with
  | none => some default
  | some j => decode j

/-- A member found under a key is one of the members. -/
theorem mem_of_get? {ms : Members} {key : String} {j : Json} (h : ms.get? key = some j) :
    (key, j) ∈ ms := by
  obtain ⟨e, he, rfl⟩ := Option.map_eq_some_iff.1 h
  have hkey := List.find?_some he
  rw [← beq_iff_eq.1 hkey]
  exact List.mem_of_find?_eq_some he

end Members

namespace Json

/-- The members of a record with given fields. -/
def record? (fields : List String) : Json → Option Members
  | .obj members => if fields.all fun f => Members.count members f ≤ 1 then some members else none
  | .arr items => if items.length ≤ fields.length then some (fields.zip items) else none
  | _ => none

/-- The members of a record that can only be written as an object. -/
def objectRecord? (fields : List String) : Json → Option Members
  | .obj members => record? fields (.obj members)
  | _ => none

/-! ## Plain values -/

def string? : Json → Option String
  | .str s => some s
  | _ => none

def bool? : Json → Option Bool
  | .bool b => some b
  | _ => none

/-- An integer of 32 bits without sign. -/
def uint32? : Json → Option UInt32
  | .num (.int n) => if 0 ≤ n && n < UInt32.size then some (UInt32.ofNat n.toNat) else none
  | _ => none

def uuid? (j : Json) : Option Uuid := j.string?.bind Uuid.ofText?

def timestamp? (j : Json) : Option Timestamp := j.string?.bind Timestamp.ofText?

/-- Free-form data; every tree is some. -/
def value? (j : Json) : Option Value := some (.ofTree j)

/-- A value that may be absent. -/
def nullable? {α : Type} (decode : Json → Option α) : Json → Option (Option α)
  | .null => some none
  | j => (decode j).map some

/-- The items of a list, decoded one by one; a decoder may rely on getting an item. -/
def eachOf? {α : Type} : (items : List Json) → ((j : Json) → j ∈ items → Option α) →
    Option (List α)
  | [], _ => some []
  | j :: rest, decode =>
    (decode j List.mem_cons_self).bind fun a =>
      (eachOf? rest fun k hk => decode k (List.mem_cons_of_mem _ hk)).map (a :: ·)

def list? {α : Type} (decode : Json → Option α) : Json → Option (List α)
  | .arr items => eachOf? items fun j _ => decode j
  | _ => none

/-- A map from texts to texts; of several members with one key the last counts. -/
def textMap? : Json → Option (KeyMap String)
  | .obj members =>
    (members.foldr (fun e entries => entries.bind fun es =>
      e.2.string?.map fun s => (e.1, s) :: es) (some [])).map KeyMap.ofList
  | _ => none

/-- A map from texts to texts as an object. -/
def ofTextMap (m : KeyMap String) : Json := .obj (m.entries.map fun e => (e.1, .str e.2))

/-! ## Choices and tags -/

/-- How a tree reached its decoder. Data that had to be set aside until a tag was found is read
a little more freely. -/
inductive Reading where
  | direct
  | setAside
deriving DecidableEq

/-- The name of a choice without data: the name itself, or an object whose only member has the
name as its key and nothing as its value. -/
def choice? (reading : Reading) : Json → Option String
  | .str name => some name
  | .obj [(name, .null)] => some name
  | .obj [(name, .obj [])] => if reading = .setAside then some name else none
  | _ => none

/-- The name in a tag; data set aside may give its number instead. -/
def tagName? (reading : Reading) (names : List String) : Json → Option String
  | .str name => some name
  | .num (.int n) => if reading = .setAside && 0 ≤ n then names[n.toNat]? else none
  | _ => none

/-- The tag of a record and the record without it: a member, or the first item of an array. -/
def tagged? (tag : String) : Json → Option (Json × Json)
  | .obj members =>
    if Members.count members tag = 1 then
      (Members.get? members tag).map fun t => (t, .obj (members.filter fun e => !(e.1 == tag)))
    else none
  | .arr (t :: rest) => some (t, .arr rest)
  | _ => none

/-- A tag and a payload beside it, and how the payload is read: it is set aside if it stands in
front of the tag. -/
def adjacent? (tag payload : String) : Json → Option (Json × Json × Reading)
  | .obj members =>
    if Members.count members tag = 1 && Members.count members payload = 1 then
      let first := members.find? fun e => e.1 == tag || e.1 == payload
      let reading := if first.any (·.1 == payload) then Reading.setAside else Reading.direct
      (Members.get? members tag).bind fun t =>
        (Members.get? members payload).map fun p => (t, p, reading)
    else none
  | .arr [t, p] => some (t, p, .direct)
  | _ => none

/-! ## Sizes -/

/-- The members of a record are smaller than the tree they are found in. -/
theorem sizeOf_of_mem_record? {fields : List String} {j : Json} {ms : Members}
    (h : j.record? fields = some ms) {e : String × Json} (he : e ∈ ms) :
    sizeOf e.2 < sizeOf j := by
  unfold record? at h
  split at h
  · next members =>
    split at h
    · obtain rfl := Option.some.inj h
      have := List.sizeOf_lt_of_mem he
      obtain ⟨k, v⟩ := e
      simp at this ⊢
      omega
    · exact absurd h (by simp)
  · next items =>
    split at h
    · obtain rfl := Option.some.inj h
      have := List.sizeOf_lt_of_mem (List.of_mem_zip (a := e.1) (b := e.2) he).2
      simp
      omega
    · exact absurd h (by simp)
  · exact absurd h (by simp)

end Json

end Stepwise
