/-
# Looking up in maps from text keys and in lists

* `getLast?_filterMap_concat` : what is found last in a list that goes on;
* `KeyMap.get?_insert` : an inserted value is found, and all others as before;
* `KeyMap.get?_erase` : a key that is taken out is not found;
* `KeyMap.get?_ofList` : of several entries with one key the last is found;
* `KeyMap.contains_insert`, `KeyMap.contains_ofList` : the keys of a map;
* `KeyMap.get?_ofList_eq_some_iff` : of entries with different keys each is found;
* `KeyMap.ext_get?` : two maps in which the same is found are equal;
* `KeyMap.foldl_insert_eq_ofList` : a map in which every key is set anew is made from nothing.
-/
import Stepwise.KeyMap

universe u

namespace Stepwise

variable {α : Type u}

theorem find?_insertEntry (key : String) (value : α) (entries : List (String × α)) (other : String) :
    (insertEntry key value entries).find? (·.1 == other) =
      if key = other then some (key, value) else entries.find? (·.1 == other) := by
  induction entries with
  | nil =>
    rw [insertEntry, List.find?_singleton]
    simp
  | cons head rest ih =>
    obtain ⟨k, v⟩ := head
    rw [insertEntry]
    split
    · rw [List.find?_cons]
      by_cases h : key = other
      · simp [h]
      · rw [beq_false_of_ne h, if_neg h]
    · split
      · next heq =>
        subst heq
        rw [List.find?_cons, List.find?_cons]
        by_cases h : key = other
        · simp [h]
        · rw [beq_false_of_ne h, if_neg h]
      · next hne =>
        rw [List.find?_cons, List.find?_cons, ih]
        by_cases h : key = other
        · have hk : (k == other) = false := by simpa [← h] using fun heq => hne heq.symm
          simp [h, hk]
        · simp [h]

/-- What is found last in a list that goes on is found in its last item, or else before. -/
theorem getLast?_filterMap_concat {β γ : Type} (f : β → Option γ) (xs : List β) (x : β) :
    ((xs ++ [x]).filterMap f).getLast? = (f x).or (xs.filterMap f).getLast? := by
  rw [List.filterMap_append, List.getLast?_append]
  cases h : f x <;> simp [h]

namespace KeyMap

variable (m : KeyMap α) (key other : String) (value : α)

@[simp] theorem get?_empty : (empty : KeyMap α).get? key = none := rfl

/-- An inserted value is found at its key, and all others as before. -/
theorem get?_insert :
    (m.insert key value).get? other = if key = other then some value else m.get? other := by
  rw [get?, insert, find?_insertEntry]
  split <;> rfl

/-- What is taken out is not found any more, and all others as before. -/
theorem get?_erase :
    (m.erase key).get? other = if key = other then none else m.get? other := by
  rw [get?, get?, erase, List.find?_filter]
  by_cases h : key = other
  · subst h
    simp
  · rw [if_neg h]
    congr 2
    funext e
    by_cases he : e.1 = other
    · simp [he, Ne.symm h]
    · simp [he]

/-- Of several inserted entries with one key the last is found, and all others as before. -/
theorem get?_foldl_insert (entries : List (String × α)) :
    (entries.foldl (fun m e => m.insert e.1 e.2) m).get? key =
      ((entries.reverse.find? (·.1 == key)).map (·.2)).or (m.get? key) := by
  induction entries generalizing m with
  | nil => rfl
  | cons e rest ih =>
    rw [List.foldl_cons, ih, get?_insert, List.reverse_cons, List.find?_append]
    cases rest.reverse.find? (·.1 == key) with
    | some found => rfl
    | none =>
      rw [List.find?_singleton]
      by_cases h : e.1 = key
      · simp [h]
      · simp [h]

/-- Of several entries with one key the last is found. -/
theorem get?_ofList (entries : List (String × α)) :
    (ofList entries).get? key = (entries.reverse.find? (·.1 == key)).map (·.2) := by
  rw [ofList, get?_foldl_insert, get?_empty, Option.or_none]

/-- What is found was an entry. -/
theorem mem_of_get?_ofList {entries : List (String × α)} {key : String} {value : α}
    (h : (ofList entries).get? key = some value) : (key, value) ∈ entries := by
  rw [get?_ofList] at h
  obtain ⟨⟨k, v⟩, hfind, rfl⟩ := Option.map_eq_some_iff.1 h
  have hk : k = key := by simpa using List.find?_some hfind
  rw [← hk]
  exact List.mem_reverse.1 (List.mem_of_find?_eq_some hfind)

/-- Every key of an entry is found. -/
theorem exists_get?_ofList {entries : List (String × α)} {key : String} {value : α}
    (h : (key, value) ∈ entries) : ∃ found, (ofList entries).get? key = some found := by
  rw [get?_ofList]
  cases hfind : entries.reverse.find? (·.1 == key) with
  | some found => exact ⟨found.2, rfl⟩
  | none =>
    have := List.find?_eq_none.1 hfind (key, value) (List.mem_reverse.2 h)
    simp at this

/-! ## Keys -/

theorem contains_eq_isSome : m.contains key = (m.get? key).isSome := by
  rw [contains, get?, Option.isSome_map, List.isSome_find?]

theorem contains_of_get? {m : KeyMap α} {key : String} {value : α} (h : m.get? key = some value) :
    m.contains key = true := by
  rw [contains_eq_isSome, h, Option.isSome_some]

/-- Inserting an entry adds its key. -/
theorem contains_insert : (m.insert key value).contains other = (key == other || m.contains other) := by
  rw [contains_eq_isSome, contains_eq_isSome, get?_insert]
  by_cases h : key = other
  · simp [h]
  · simp [h]

/-- The keys of a map are those of the entries that it is made from. -/
theorem contains_ofList (entries : List (String × α)) :
    (ofList entries).contains key = entries.any (·.1 == key) := by
  rw [contains_eq_isSome, get?_ofList, Option.isSome_map, List.isSome_find?, List.any_reverse]

/-! ## Different keys -/

/-- Among entries with different keys each is found. -/
theorem find?_of_mem {entries : List (String × α)} (distinct : (entries.map (·.1)).Nodup)
    {e : String × α} (h : e ∈ entries) : entries.find? (·.1 == e.1) = some e := by
  induction entries with
  | nil => cases h
  | cons first rest ih =>
    obtain ⟨fresh, hrest⟩ := List.nodup_cons.1 distinct
    rcases List.mem_cons.1 h with rfl | h
    · exact List.find?_cons_of_pos (beq_self_eq_true e.1)
    · have hne : first.1 ≠ e.1 := fun heq => fresh (List.mem_map.2 ⟨e, h, heq.symm⟩)
      rw [List.find?_cons_of_neg (by simpa using hne)]
      exact ih hrest h

/-- In a map made from entries with different keys just these are found. -/
theorem get?_ofList_eq_some_iff {entries : List (String × α)}
    (distinct : (entries.map (·.1)).Nodup) {key : String} {value : α} :
    (ofList entries).get? key = some value ↔ (key, value) ∈ entries := by
  refine ⟨mem_of_get?_ofList, fun h => ?_⟩
  have distinct' : (entries.reverse.map (·.1)).Nodup := by
    rw [List.map_reverse]
    exact (List.reverse_perm _).nodup_iff.2 distinct
  rw [get?_ofList, find?_of_mem distinct' (List.mem_reverse.2 h)]
  rfl

/-- The keys of a map are different. -/
theorem nodup_keys (m : KeyMap α) : m.keys.Nodup := by
  refine List.nodup_iff_pairwise_ne.2 (List.pairwise_map.2 (m.ordered.imp ?_))
  exact fun hlt heq => String.lt_irrefl _ (heq ▸ hlt)

/-! ## Equality -/

/-- What is found are the entries. -/
theorem get?_eq_some_iff {m : KeyMap α} {key : String} {value : α} :
    m.get? key = some value ↔ (key, value) ∈ m.entries := by
  constructor
  · intro h
    rw [← ofList_entries m] at h
    exact mem_of_get?_ofList h
  · intro h
    rw [get?, find?_of_mem m.nodup_keys h]
    rfl

/-- The keys of a map are those of the entries that it is made from. -/
theorem perm_keys_ofList {entries : List (String × α)} (distinct : (entries.map (·.1)).Nodup) :
    (ofList entries).keys.Perm (entries.map (·.1)) := by
  refine (List.perm_ext_iff_of_nodup (nodup_keys _) distinct).2 fun key => ?_
  simp only [keys, List.mem_map, Prod.exists, ← get?_eq_some_iff,
    get?_ofList_eq_some_iff distinct]

/-- No entry comes twice. -/
theorem nodup_entries (m : KeyMap α) : m.entries.Nodup :=
  (List.pairwise_map.1 m.nodup_keys).imp fun h heq => h (congrArg Prod.fst heq)

/-- Two maps in which the same is found are equal. -/
theorem ext_get? {m n : KeyMap α} (h : ∀ key, m.get? key = n.get? key) : m = n := by
  have hperm : m.entries.Perm n.entries := by
    refine (List.perm_ext_iff_of_nodup m.nodup_entries n.nodup_entries).2 fun e => ?_
    rw [← get?_eq_some_iff, h, get?_eq_some_iff]
  refine KeyMap.ext (hperm.eq_of_pairwise (fun a b _ _ hab hba => ?_) m.ordered n.ordered)
  exact absurd (String.lt_trans hab hba) (String.lt_irrefl _)

/-- A map in which every key is set anew is the same as one made from nothing. -/
theorem foldl_insert_eq_ofList {m : KeyMap α} {entries : List (String × α)}
    (h : ∀ key, m.contains key = true → entries.any (·.1 == key) = true) :
    entries.foldl (fun m e => m.insert e.1 e.2) m = ofList entries := by
  refine ext_get? fun key => ?_
  rw [get?_foldl_insert, get?_ofList]
  cases hfind : entries.reverse.find? (·.1 == key) with
  | some found => rfl
  | none =>
    -- a key that is not set anew was not there
    have hnot : entries.any (·.1 == key) = false := by
      rw [← List.any_reverse, ← List.isSome_find?, hfind]
      rfl
    have hnone : (m.get? key).isSome = false := by
      rw [← contains_eq_isSome]
      exact Bool.eq_false_iff.2 fun hmem => by rw [h key hmem] at hnot; cases hnot
    rw [Option.isSome_eq_false_iff, Option.isNone_iff_eq_none] at hnone
    rw [hnone]
    rfl

end KeyMap

end Stepwise
