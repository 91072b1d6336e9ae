/-
# Documents

The tree of a JSON document. An object keeps its members as they are written, in order and
with repeated keys, because a record may be refused for a repeated key while free-form data
is not.

* `Json` : the tree;
* `Json.normalize` : members in key order, the last of several with one key;
* `Value` : free-form data, a tree that is its own normal form.
-/
import Stepwise.Json.Number
import Stepwise.KeyMap
import Stepwise.Text.Blank

namespace Stepwise

/-- A document tree. -/
inductive Json where
  | null
  | bool (b : Bool)
  | num (n : Number)
  | str (s : String)
  | arr (items : List Json)
  | obj (members : List (String × Json))
deriving Inhabited

/-- Adds an entry in front of a list in key order, unless a later entry has its key. -/
def insertMissing {α : Type} (key : String) (value : α) (entries : List (String × α)) :
    List (String × α) :=
  if entries.any (·.1 == key) then entries else insertEntry key value entries

namespace Json

mutual
/-- The normal form of a tree: the members of every object in key order, each key once. Of
several members with one key the last counts. -/
def normalize : Json → Json
  | .arr items => .arr (normalizeItems items)
  | .obj members => .obj (normalizeMembers members)
  | .null => .null
  | .bool b => .bool b
  | .num n => .num n
  | .str s => .str s
/-- The normal forms of the items of an array. -/
def normalizeItems : List Json → List Json
  | [] => []
  | j :: rest => normalize j :: normalizeItems rest
/-- The members of an object in normal form. -/
def normalizeMembers : List (String × Json) → List (String × Json)
  | [] => []
  | (key, j) :: rest => insertMissing key (normalize j) (normalizeMembers rest)
end

/-- Members that are missing later are added in order, so the key order is kept. -/
theorem inKeyOrder_insertMissing {α : Type} (key : String) (value : α)
    {entries : List (String × α)} (h : InKeyOrder entries) :
    InKeyOrder (insertMissing key value entries) := by
  unfold insertMissing
  split
  · exact h
  · exact inKeyOrder_insertEntry key value h

/-- Normalised members are in key order. -/
theorem inKeyOrder_normalizeMembers :
    ∀ members : List (String × Json), InKeyOrder (normalizeMembers members)
  | [] => List.Pairwise.nil
  | (key, j) :: rest => by
    rw [normalizeMembers]
    exact inKeyOrder_insertMissing key _ (inKeyOrder_normalizeMembers rest)

/-- A member in front of members with larger keys stays in front. -/
theorem insertMissing_of_lt {α : Type} {key : String} {value : α}
    {entries : List (String × α)} (h : ∀ e ∈ entries, key < e.1) :
    insertMissing key value entries = (key, value) :: entries := by
  have hmissing : entries.any (·.1 == key) = false := by
    rw [List.any_eq_false]
    intro e he heq
    have := h e he
    rw [beq_iff_eq.1 heq] at this
    exact String.lt_irrefl _ this
  rw [insertMissing, hmissing, if_neg (by simp), insertEntry_of_lt h]

/-- Members in key order whose values are normal are their own normal form. -/
theorem normalizeMembers_of_ordered {members : List (String × Json)}
    (hord : InKeyOrder members) (hval : ∀ e ∈ members, normalize e.2 = e.2) :
    normalizeMembers members = members := by
  induction members with
  | nil => rfl
  | cons e rest ih =>
    obtain ⟨key, j⟩ := e
    have hlt := (List.pairwise_cons.1 hord).1
    rw [normalizeMembers, ih (List.pairwise_cons.1 hord).2
      fun e he => hval e (List.mem_cons_of_mem _ he)]
    rw [insertMissing_of_lt hlt, hval (key, j) List.mem_cons_self]

/-- The members of a normal form come from members of the tree. -/
theorem mem_insertMissing {α : Type} {key : String} {value : α} {e : String × α}
    {entries : List (String × α)} (h : e ∈ insertMissing key value entries) :
    e = (key, value) ∨ e ∈ entries := by
  unfold insertMissing at h
  split at h
  · exact .inr h
  · exact mem_insertEntry h

mutual
/-- A normal form is its own normal form. -/
theorem normalize_normalize : ∀ j : Json, normalize (normalize j) = normalize j
  | .arr items => by simp [normalize, normalizeItems_normalizeItems items]
  | .obj members => by
    simp only [normalize]
    rw [normalizeMembers_of_ordered (inKeyOrder_normalizeMembers members)
      (normal_of_mem_normalizeMembers members)]
  | .null => rfl
  | .bool _ => rfl
  | .num _ => rfl
  | .str _ => rfl
/-- The items of a normal form are normal. -/
theorem normalizeItems_normalizeItems :
    ∀ items : List Json, normalizeItems (normalizeItems items) = normalizeItems items
  | [] => rfl
  | j :: rest => by
    simp [normalizeItems, normalize_normalize j, normalizeItems_normalizeItems rest]
/-- The member values of a normal form are normal. -/
theorem normal_of_mem_normalizeMembers :
    ∀ (members : List (String × Json)), ∀ e ∈ normalizeMembers members, normalize e.2 = e.2
  | [], e, he => by simp [normalizeMembers] at he
  | (key, j) :: rest, e, he => by
    rw [normalizeMembers] at he
    rcases mem_insertMissing he with rfl | he
    · exact normalize_normalize j
    · exact normal_of_mem_normalizeMembers rest e he
end

end Json

/-- Free-form data: a tree in normal form, so that equal data are equal values. -/
structure Value where
  tree : Json
  normal : tree.normalize = tree

namespace Value

@[ext] theorem ext {v w : Value} (h : v.tree = w.tree) : v = w := by
  cases v; cases w; simp_all

/-- The data of a tree. -/
def ofTree (j : Json) : Value := ⟨j.normalize, j.normalize_normalize⟩

/-- The absent value. -/
def null : Value := ⟨.null, rfl⟩

/-- A text as a value. -/
def str (s : String) : Value := ⟨.str s, rfl⟩

instance : Inhabited Value := ⟨null⟩

/-- A value is the data of its tree. -/
theorem ofTree_tree (v : Value) : ofTree v.tree = v := ext v.normal

/-- Nothing usable: the absent value, or a text of blanks. -/
def isEmpty (v : Value) : Bool :=
  match v.tree with
  | .null => true
  | .str s => Text.isBlankText s
  | _ => false

/-- The entries of an object; none for any other value. -/
def entries? (v : Value) : Option (List (String × Value)) :=
  match v.tree with
  | .obj members => some (members.map fun e => (e.1, ofTree e.2))
  | _ => none

end Value

end Stepwise
