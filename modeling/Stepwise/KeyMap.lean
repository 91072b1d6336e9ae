/-
# Maps from text keys

A finite map from text keys to values, kept as a list of entries whose keys strictly
increase. A map therefore has one representation, and walking it visits the keys in
order. Keys are ordered by code point.

* `KeyMap.insert` replaces the value of a key that is present;
* `KeyMap.ofList` keeps the last of several entries with one key;
* `KeyMap.ofList_entries` : a map is rebuilt from its own entries.
-/

universe u v

namespace Stepwise

/-- Adds an entry to a list in key order, taking the place of an entry with the same key. -/
def insertEntry {α : Type u} (key : String) (value : α) :
    List (String × α) → List (String × α)
  | [] => [(key, value)]
  | (k, v) :: rest =>
    if key < k then (key, value) :: (k, v) :: rest
    else if key = k then (key, value) :: rest
    else (k, v) :: insertEntry key value rest

/-- A list of entries is in key order if each key is below all later ones. -/
def InKeyOrder {α : Type u} (entries : List (String × α)) : Prop :=
  entries.Pairwise fun a b => a.1 < b.1

/-- An inserted list holds the new entry and some of the old ones. -/
theorem mem_insertEntry {α : Type u} {key : String} {value : α} {e : String × α}
    {entries : List (String × α)} (h : e ∈ insertEntry key value entries) :
    e = (key, value) ∨ e ∈ entries := by
  induction entries with
  | nil => simpa [insertEntry] using h
  | cons head rest ih =>
    obtain ⟨k, v⟩ := head
    unfold insertEntry at h
    split at h
    · simpa using h
    · split at h
      · rcases List.mem_cons.1 h with rfl | h
        · exact .inl rfl
        · exact .inr (List.mem_cons_of_mem _ h)
      · rcases List.mem_cons.1 h with rfl | h
        · exact .inr List.mem_cons_self
        · exact (ih h).imp id (List.mem_cons_of_mem _)

/-- Insertion keeps the key order. -/
theorem inKeyOrder_insertEntry {α : Type u} (key : String) (value : α)
    {entries : List (String × α)} (h : InKeyOrder entries) :
    InKeyOrder (insertEntry key value entries) := by
  induction entries with
  | nil => simp [insertEntry, InKeyOrder]
  | cons head rest ih =>
    obtain ⟨k, v⟩ := head
    have hrest : InKeyOrder rest := (List.pairwise_cons.1 h).2
    have hhead : ∀ e ∈ rest, k < e.1 := (List.pairwise_cons.1 h).1
    unfold insertEntry
    split
    · next hlt =>
      refine List.pairwise_cons.2 ⟨fun e he => ?_, h⟩
      rcases List.mem_cons.1 he with rfl | he
      · exact hlt
      · exact String.lt_trans hlt (hhead e he)
    · next hnlt =>
      split
      · next heq => exact List.pairwise_cons.2 ⟨fun e he => heq ▸ hhead e he, hrest⟩
      · next hne =>
        refine List.pairwise_cons.2 ⟨fun e he => ?_, ih hrest⟩
        rcases mem_insertEntry he with rfl | he
        · rcases Std.lt_trichotomy key k with hlt | heq | hgt
          · exact absurd hlt hnlt
          · exact absurd heq hne
          · exact hgt
        · exact hhead e he

/-- A key below all others is inserted in front. -/
theorem insertEntry_of_lt {α : Type u} {key : String} {value : α}
    {entries : List (String × α)} (h : ∀ e ∈ entries, key < e.1) :
    insertEntry key value entries = (key, value) :: entries := by
  cases entries with
  | nil => rfl
  | cons head rest =>
    obtain ⟨k, v⟩ := head
    have : key < k := h (k, v) List.mem_cons_self
    simp [insertEntry, this]

/-- A finite map from text keys, as its entries in key order. -/
structure KeyMap (α : Type u) where
  entries : List (String × α)
  ordered : InKeyOrder entries
deriving DecidableEq

namespace KeyMap

variable {α : Type u}

@[ext] theorem ext {m n : KeyMap α} (h : m.entries = n.entries) : m = n := by
  cases m; cases n; simp_all

/-- The map without entries. -/
def empty : KeyMap α := ⟨[], List.Pairwise.nil⟩

instance : Inhabited (KeyMap α) := ⟨empty⟩

/-- The map with one more key, or with a new value for a key it has. -/
def insert (m : KeyMap α) (key : String) (value : α) : KeyMap α :=
  ⟨insertEntry key value m.entries, inKeyOrder_insertEntry key value m.ordered⟩

/-- The value of a key. -/
def get? (m : KeyMap α) (key : String) : Option α :=
  (m.entries.find? fun e => e.1 == key).map (·.2)

/-- The key has a value. -/
def contains (m : KeyMap α) (key : String) : Bool := m.entries.any (·.1 == key)

/-- The keys in ascending order. -/
def keys (m : KeyMap α) : List String := m.entries.map (·.1)

/-- The map has no entry. -/
def isEmpty (m : KeyMap α) : Bool := m.entries.isEmpty

/-- The map without a key. -/
def erase (m : KeyMap α) (key : String) : KeyMap α :=
  ⟨m.entries.filter fun e => !(e.1 == key), List.Pairwise.filter _ m.ordered⟩

/-- The map of a list of entries; of several entries with one key the last counts. -/
def ofList (entries : List (String × α)) : KeyMap α :=
  entries.foldl (fun m e => m.insert e.1 e.2) empty

/-- Inserting entries that follow all those present, in order, appends them. -/
theorem foldl_insert_entries (m : KeyMap α) (entries : List (String × α))
    (h : InKeyOrder (m.entries ++ entries)) :
    (entries.foldl (fun m e => m.insert e.1 e.2) m).entries = m.entries ++ entries := by
  induction entries generalizing m with
  | nil => simp
  | cons e rest ih =>
    have key : (m.insert e.1 e.2).entries = m.entries ++ [e] := by
      have hlast : ∀ a ∈ m.entries, a.1 < e.1 := fun a ha =>
        (List.pairwise_append.1 h).2.2 a ha e List.mem_cons_self
      show insertEntry e.1 e.2 m.entries = _
      clear ih h
      generalize m.entries = xs at hlast
      induction xs with
      | nil => rfl
      | cons a xs ihx =>
        have hlt := hlast a List.mem_cons_self
        have hne : e.1 ≠ a.1 := fun heq => String.lt_irrefl _ (heq ▸ hlt)
        have hn : ¬ e.1 < a.1 := fun hgt => String.lt_irrefl _ (String.lt_trans hlt hgt)
        simp [insertEntry, hn, hne, ihx fun b hb => hlast b (List.mem_cons_of_mem _ hb)]
    rw [List.foldl_cons, ih (m.insert e.1 e.2) (by rw [key]; simpa using h), key]
    simp

/-- A map is rebuilt from its entries. -/
theorem ofList_entries (m : KeyMap α) : ofList m.entries = m := by
  apply ext
  have := foldl_insert_entries empty m.entries (by simpa [empty] using m.ordered)
  simpa [ofList, empty] using this

end KeyMap

end Stepwise
