import Archetype.Proofs.Model.Index

/-!
Maps as plain lists of entries. Whatever is done to a map, its entries are those of a list to which
the same is done without an index, no key stands in it twice, and the index finds each key at its
place; so every question about a key is answered as by looking through the list.
-/

namespace Archetype.MergeMap

inductive Operation (α : Type) where
  | insert (key : String) (order : Int64) (value : α)
  | update (key : String) (f : α → α)
  | remove (key : String)
  | sort

namespace Operation

variable {α : Type}

def apply (map : MergeMap α) : Operation α → MergeMap α
  | .insert key order value => map.insert key order value
  | .update key f => map.update key f
  | .remove key => (map.remove key).2
  | .sort => map.sort

/-- The change of a plain list. What is put under a key that is there takes the place of the entry
with that key, and what is put under a new one goes to the end. -/
def onEntries (entries : List (Entry α)) : Operation α → List (Entry α)
  | .insert key order value =>
      if entries.any (·.key = key) then
        entries.map fun entry => if entry.key = key then ⟨key, order, value⟩ else entry
      else entries ++ [⟨key, order, value⟩]
  | .update key f =>
      entries.map fun entry =>
        if entry.key = key then { entry with value := f entry.value } else entry
  | .remove key => entries.filter (·.key ≠ key)
  | .sort => entries.mergeSort fun a b => decide (a.order ≤ b.order)

end Operation

variable {α : Type} {map : MergeMap α} {key : String}

theorem any_key_iff {entries : List (Entry α)} :
    entries.any (·.key = key) = true ↔ key ∈ entries.map (·.key) := by
  simp [List.mem_map]

theorem eraseIdx_eq_filter {entries : List (Entry α)} (distinct : (entries.map (·.key)).Nodup)
    {i : Nat} (here : (entries.map (·.key))[i]? = some key) :
    entries.eraseIdx i = entries.filter (·.key ≠ key) := by
  induction entries generalizing i with
  | nil => simp at here
  | cons entry rest ih =>
      rw [List.map_cons, List.nodup_cons] at distinct
      obtain ⟨fresh, distinct⟩ := distinct
      cases i with
      | zero =>
          obtain rfl : entry.key = key := by simpa using here
          have others : ∀ other ∈ rest, decide (other.key ≠ entry.key) = true :=
            fun other member => decide_eq_true fun same =>
              fresh (List.mem_map.2 ⟨other, member, same⟩)
          rw [List.eraseIdx_cons_zero, List.filter_cons_of_neg (by simp),
            List.filter_eq_self.2 others]
      | succ i =>
          rw [List.map_cons, List.getElem?_cons_succ] at here
          have differ : entry.key ≠ key := fun same => fresh (same ▸ List.mem_of_getElem? here)
          rw [List.eraseIdx_cons_succ, List.filter_cons_of_pos (by simpa using differ),
            ih distinct here]

/-! What a change does to the entries. -/

section

variable (indexed : map.Indexed)
include indexed

theorem entries_insert_eq (key : String) (order : Int64) (value : α) :
    (map.insert key order value).entries =
      (Operation.insert key order value).onEntries map.entries := by
  rw [insert, Operation.onEntries]
  cases position : map.position? key with
  | none =>
      have absent := indexed.position?_eq_none.1 position
      rw [if_neg fun there => absent (any_key_iff.1 there)]
  | some i =>
      have present := List.mem_of_getElem? (indexed.position?_eq_some.1 position)
      rw [if_pos (any_key_iff.2 present)]
      refine (indexed.modify_eq_map position _).trans (List.map_congr_left fun entry _ => ?_)
      by_cases named : entry.key = key
      · simp [named]
      · simp [named]

theorem entries_update (key : String) (f : α → α) :
    (map.update key f).entries = (Operation.update key f).onEntries map.entries := by
  rw [update, Operation.onEntries]
  cases position : map.position? key with
  | none =>
      have absent := indexed.position?_eq_none.1 position
      have others : ∀ entry ∈ map.entries, (if entry.key = key then
          { entry with value := f entry.value } else entry) = entry := fun entry member =>
        if_neg fun named => absent (List.mem_map.2 ⟨entry, member, named⟩)
      exact ((List.map_congr_left others).trans (List.map_id _)).symm
  | some i => exact indexed.modify_eq_map position _

theorem entries_erase (key : String) :
    (map.erase key).entries = map.entries.filter (·.key ≠ key) := by
  rw [erase]
  cases position : map.position? key with
  | none =>
      have absent := indexed.position?_eq_none.1 position
      have others : ∀ entry ∈ map.entries, decide (entry.key ≠ key) = true := fun entry member =>
        decide_eq_true fun named => absent (List.mem_map.2 ⟨entry, member, named⟩)
      exact (List.filter_eq_self.2 others).symm
  | some i => exact eraseIdx_eq_filter indexed.distinct (indexed.position?_eq_some.1 position)

theorem entries_apply (operation : Operation α) :
    (operation.apply map).entries = operation.onEntries map.entries := by
  cases operation with
  | insert key order value => exact entries_insert_eq indexed key order value
  | update key f => exact entries_update indexed key f
  | remove key => exact entries_erase indexed key
  | sort => rfl

theorem Indexed.apply (operation : Operation α) : (operation.apply map).Indexed := by
  cases operation with
  | insert key order value => exact indexed.insert key order value
  | update key f => exact indexed.update key f
  | remove key => exact indexed.erase key
  | sort => exact indexed.sort

/-- What a sequence of changes does to a map it does to the list of its entries. -/
theorem indexed_run (operations : List (Operation α)) :
    (operations.foldl Operation.apply map).Indexed ∧
      (operations.foldl Operation.apply map).entries =
        operations.foldl Operation.onEntries map.entries := by
  induction operations generalizing map with
  | nil => exact ⟨indexed, rfl⟩
  | cons operation rest ih =>
      rw [List.foldl_cons, List.foldl_cons, ← entries_apply indexed operation]
      exact ih (indexed.apply operation)

/-! What a map answers. -/

theorem Indexed.position?_iff {i : Nat} :
    map.position? key = some i ↔ ∃ entry, map.entries[i]? = some entry ∧ entry.key = key := by
  rw [indexed.position?_eq_some, keys, List.getElem?_map, Option.map_eq_some_iff]

theorem Indexed.position?_of_mem_index {i : Nat} (member : (key, i) ∈ map.index) :
    map.position? key = some i := by
  rw [indexed.positioned, positions_eq, List.mem_reverse, List.mem_zipIdx_iff_getElem?] at member
  exact indexed.position?_eq_some.2 member

theorem Indexed.contains_eq_any (key : String) :
    map.contains key = map.entries.any (·.key = key) := by
  rw [Bool.eq_iff_iff, indexed.contains_iff, any_key_iff]
  rfl

end

/-- After every sequence of changes a map has the entries that the plain list has: one for each
key, and the index holds the place of each key and nothing else. What is found under a key, its
order, whether it is there, what is taken out and what is left then are as for the list. -/
theorem map_is_association_list (operations : List (Operation α)) :
    let map := operations.foldl Operation.apply ({} : MergeMap α)
    let entries := operations.foldl Operation.onEntries []
    map.entries = entries ∧ (entries.map (·.key)).Nodup ∧
      (∀ key i, map.position? key = some i ↔
        ∃ entry, entries[i]? = some entry ∧ entry.key = key) ∧
      (∀ key i, (key, i) ∈ map.index → map.position? key = some i) ∧
      ∀ key,
        map.get? key = (entries.find? (·.key = key)).map (·.value) ∧
          map.order? key = (entries.find? (·.key = key)).map (·.order) ∧
          map.contains key = entries.any (·.key = key) ∧
          (map.remove key).1 = (entries.find? (·.key = key)).map (·.value) ∧
          (map.remove key).2.entries = entries.filter (·.key ≠ key) := by
  intro map entries
  obtain ⟨indexed, same⟩ : map.Indexed ∧ map.entries = entries := indexed_run .empty operations
  have found : ∀ key, map.entry? key = entries.find? (·.key = key) := fun key =>
    same ▸ indexed.entry?_eq_find? key
  refine ⟨same, same ▸ indexed.distinct, fun key i => same ▸ indexed.position?_iff,
    fun key i member => indexed.position?_of_mem_index member, fun key => ⟨?_, ?_, ?_, ?_, ?_⟩⟩
  · rw [get?, found]
  · rw [order?, found]
  · rw [indexed.contains_eq_any, same]
  · rw [remove, get?, found]
  · rw [remove, entries_erase indexed, same]

end Archetype.MergeMap
