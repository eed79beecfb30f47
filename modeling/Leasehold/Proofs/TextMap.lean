import Leasehold.TextMap

/-!
# Inserting many pairs into a map

The look-ups after pairs were inserted one after the other. Keys that are not
among the pairs keep their values, and where the keys of the pairs are distinct
each has the value it came with. A map is what its own pairs insert.
-/

namespace Leasehold.TextMap

variable {α : Type}

/-- Inserting under other keys does not change a look-up. -/
theorem get?_insertMany_of_ne {key : String} {pairs : List (String × α)}
    (others : ∀ pair ∈ pairs, pair.1 ≠ key) (map : TextMap α) :
    (map.insertMany pairs).get? key = map.get? key := by
  induction pairs generalizing map with
  | nil => rfl
  | cons pair rest ih =>
      have step := ih (fun other member => others other (List.mem_cons_of_mem _ member))
        (map.insert pair.1 pair.2)
      rw [get?_insert, if_neg (others pair List.mem_cons_self)] at step
      exact step

/-- Of pairs with distinct keys each one stays. -/
theorem get?_insertMany_of_mem {key : String} {value : α} {pairs : List (String × α)}
    (distinct : pairs.Pairwise fun a b => a.1 ≠ b.1) (member : (key, value) ∈ pairs)
    (map : TextMap α) : (map.insertMany pairs).get? key = some value := by
  induction pairs generalizing map with
  | nil => contradiction
  | cons pair rest ih =>
      rcases List.pairwise_cons.mp distinct with ⟨unlike, distinctRest⟩
      rcases List.mem_cons.mp member with rfl | member
      · have kept := get?_insertMany_of_ne (fun other listed => (unlike other listed).symm)
          (map.insert key value)
        rw [get?_insert, if_pos rfl] at kept
        exact kept
      · exact ih distinctRest member (map.insert pair.1 pair.2)

/-- Of pairs with one key some stays. -/
theorem exists_get?_insertMany {key : String} {pairs : List (String × α)}
    (listed : ∃ pair ∈ pairs, pair.1 = key) (map : TextMap α) :
    ∃ value, (key, value) ∈ pairs ∧ (map.insertMany pairs).get? key = some value := by
  induction pairs generalizing map with
  | nil =>
      rcases listed with ⟨_, member, _⟩
      contradiction
  | cons pair rest ih =>
      by_cases later : ∃ other ∈ rest, other.1 = key
      · rcases ih later (map.insert pair.1 pair.2) with ⟨value, member, found⟩
        exact ⟨value, List.mem_cons_of_mem _ member, found⟩
      · rcases listed with ⟨other, member, rfl⟩
        rcases List.mem_cons.mp member with rfl | member
        · have kept := get?_insertMany_of_ne (fun pair member same => later ⟨pair, member, same⟩)
            (map.insert other.1 other.2)
          rw [get?_insert, if_pos rfl] at kept
          exact ⟨other.2, List.mem_cons_self, kept⟩
        · exact absurd ⟨other, member, rfl⟩ later

/-- What was inserted, or was there before, is all that is there. -/
theorem mem_of_get?_insertMany {key : String} {value : α} {pairs : List (String × α)}
    {map : TextMap α} (found : (map.insertMany pairs).get? key = some value) :
    (key, value) ∈ pairs ∨ map.get? key = some value := by
  induction pairs generalizing map with
  | nil => exact .inr found
  | cons pair rest ih =>
      have found : ((map.insert pair.1 pair.2).insertMany rest).get? key = some value := found
      rcases ih found with listed | present
      · exact .inl (List.mem_cons_of_mem _ listed)
      · rw [get?_insert] at present
        split at present
        next same =>
          cases present
          exact .inl (same ▸ List.mem_cons_self)
        next => exact .inr present

theorem mem_of_get?_ofList {key : String} {value : α} {pairs : List (String × α)}
    (found : (ofList pairs).get? key = some value) : (key, value) ∈ pairs :=
  (mem_of_get?_insertMany found).resolve_right fun absent => by simp at absent

theorem distinct_toList (map : TextMap α) : map.toList.Pairwise fun a b => a.1 ≠ b.1 :=
  map.sorted.imp fun less => String.ne_of_lt less

/-- A map is the map of its pairs. -/
@[simp]
theorem ofList_toList (map : TextMap α) : ofList map.toList = map := by
  refine ext fun key => ?_
  cases found : map.get? key with
  | some value =>
      exact get?_insertMany_of_mem map.distinct_toList ((get?_eq_some_iff map key value).mp found) _
  | none =>
      refine (get?_insertMany_of_ne (fun pair member same => ?_) empty).trans (get?_empty key)
      have present := (get?_eq_some_iff map pair.1 pair.2).mpr member
      rw [same, found] at present
      contradiction

/-- A value is under its key. -/
theorem get?_of_mem {map : TextMap α} {pair : String × α} (member : pair ∈ map.toList) :
    map.get? pair.1 = some pair.2 :=
  (get?_eq_some_iff map pair.1 pair.2).mpr member

theorem mem_keys_iff {map : TextMap α} {key : String} :
    key ∈ map.keys ↔ ∃ value, map.get? key = some value := by
  simp [keys, get?_eq_some_iff]

@[simp]
theorem toList_map {β : Type} (f : α → β) (m : TextMap α) :
    (m.map f).toList = m.toList.map fun pair => (pair.1, f pair.2) :=
  rfl

end Leasehold.TextMap
