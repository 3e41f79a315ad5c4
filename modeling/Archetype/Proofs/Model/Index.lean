import Archetype.Model.MergeMap
import Mathlib.Data.List.Induction
import Mathlib.Data.List.InsertIdx
import Mathlib.Data.List.Nodup

/-!
The index of a map says where each key stands, after every operation. So an operation changes the
keys of a map as it would those of the plain list of its entries.
-/

namespace Archetype.MergeMap

variable {α : Type} {map : MergeMap α} {key other : String} {order : Int64} {value : α}

theorem positions_eq (entries : List (Entry α)) :
    positions entries = (entries.map (·.key)).zipIdx.reverse := by
  rw [positions, List.zipIdx_map]
  rfl

theorem positions_append (entries : List (Entry α)) (entry : Entry α) :
    positions (entries ++ [entry]) = (entry.key, entries.length) :: positions entries := by
  simp [positions, List.zipIdx_append]

theorem lookup_zipIdx {keys : List String} (distinct : keys.Nodup) {i : Nat} :
    keys.zipIdx.reverse.lookup key = some i ↔ keys[i]? = some key := by
  induction keys using List.reverseRecOn with
  | nil => simp
  | append_singleton keys last ih =>
      rw [List.nodup_append] at distinct
      obtain ⟨distinct, -, apart⟩ := distinct
      have ih := ih distinct
      rw [List.zipIdx_append, List.reverse_append]
      simp only [List.zipIdx_singleton, List.reverse_singleton, List.singleton_append,
        List.lookup_cons, Nat.zero_add]
      by_cases same : key = last
      · subst same
        have absent : keys[i]? ≠ some key := by
          intro found
          exact apart key (List.mem_of_getElem? found) key (List.mem_singleton_self _) rfl
        simp only [beq_self_eq_true, Option.some.injEq]
        rcases Nat.lt_trichotomy i keys.length with before | here | after
        · rw [List.getElem?_append_left before]
          exact iff_of_false (Nat.ne_of_gt before) absent
        · subst here
          simp
        · rw [List.getElem?_eq_none (by rw [List.length_append]; exact after)]
          exact iff_of_false (Nat.ne_of_lt after) nofun
      · rw [beq_eq_false_iff_ne.2 same]
        simp only [ih]
        rcases Nat.lt_or_ge i keys.length with before | after
        · rw [List.getElem?_append_left before]
        · rw [List.getElem?_eq_none after, List.getElem?_append_right after]
          refine iff_of_false nofun ?_
          intro found
          exact same (List.mem_singleton.1 (List.mem_of_getElem? found))

/-- The keys are distinct, and the index says where each of them stands. -/
structure Indexed (map : MergeMap α) : Prop where
  distinct : map.keys.Nodup
  positioned : map.index = positions map.entries

namespace Indexed

theorem empty : ({} : MergeMap α).Indexed := ⟨.nil, rfl⟩

theorem ofEntries {entries : List (Entry α)} (distinct : (entries.map (·.key)).Nodup) :
    (ofEntries entries).Indexed := ⟨distinct, rfl⟩

variable (indexed : map.Indexed)
include indexed

theorem position?_eq_some {i : Nat} : map.position? key = some i ↔ map.keys[i]? = some key := by
  rw [position?, indexed.positioned, positions_eq]
  exact lookup_zipIdx indexed.distinct

theorem position?_eq_none : map.position? key = none ↔ key ∉ map.keys := by
  constructor
  · intro absent member
    obtain ⟨i, found⟩ := List.mem_iff_getElem?.1 member
    rw [indexed.position?_eq_some.2 found] at absent
    cases absent
  · intro absent
    cases position : map.position? key with
    | none => rfl
    | some i => exact absurd (List.mem_of_getElem? (indexed.position?_eq_some.1 position)) absent

theorem contains_iff : map.contains key = true ↔ key ∈ map.keys := by
  rw [contains, Option.isSome_iff_ne_none, ne_eq, indexed.position?_eq_none, not_not]

theorem entry?_eq_some {entry : Entry α} :
    map.entry? key = some entry ↔ entry ∈ map.entries ∧ entry.key = key := by
  unfold entry?
  rw [Option.bind_eq_some_iff]
  constructor
  · rintro ⟨i, position, here⟩
    have named := indexed.position?_eq_some.1 position
    rw [keys, List.getElem?_map, here, Option.map_some, Option.some.injEq] at named
    exact ⟨List.mem_of_getElem? here, named⟩
  · rintro ⟨member, rfl⟩
    obtain ⟨i, here⟩ := List.mem_iff_getElem?.1 member
    have named : map.keys[i]? = some entry.key := by
      rw [keys, List.getElem?_map, here, Option.map_some]
    exact ⟨i, indexed.position?_eq_some.2 named, here⟩

theorem get?_eq_some {v : α} :
    map.get? key = some v ↔ ∃ entry ∈ map.entries, entry.key = key ∧ entry.value = v := by
  simp only [get?, Option.map_eq_some_iff, indexed.entry?_eq_some, and_assoc]

theorem eq_ofEntries : map = MergeMap.ofEntries map.entries := by
  rw [MergeMap.ofEntries, ← indexed.positioned]

theorem entry?_eq_find? (key : String) :
    map.entry? key = map.entries.find? (·.key = key) := by
  cases found : map.entries.find? (·.key = key) with
  | some entry =>
      have named := List.find?_some found
      exact indexed.entry?_eq_some.2 ⟨List.mem_of_find?_eq_some found, of_decide_eq_true named⟩
  | none =>
      rw [Option.eq_none_iff_forall_ne_some]
      intro entry here
      obtain ⟨member, named⟩ := indexed.entry?_eq_some.1 here
      exact List.find?_eq_none.1 found entry member (decide_eq_true named)

/-- Maps of the same entries, in whatever order, find the same under each key. -/
theorem entry?_congr {map' : MergeMap α} (indexed' : map'.Indexed)
    (same : ∀ entry, entry ∈ map'.entries ↔ entry ∈ map.entries) (key : String) :
    map'.entry? key = map.entry? key := by
  ext entry
  rw [indexed.entry?_eq_some, indexed'.entry?_eq_some, same]

end Indexed

/-! Changing an entry in its place. -/

theorem map_key_modify {entries : List (Entry α)} (change : Entry α → Entry α)
    (keeps : ∀ entry, (change entry).key = entry.key) (i : Nat) :
    (entries.modify i change).map (·.key) = entries.map (·.key) := by
  induction entries generalizing i with
  | nil => simp
  | cons entry rest ih =>
      cases i with
      | zero => simp [keeps]
      | succ i => simp [ih]

theorem Indexed.modify (indexed : map.Indexed) (change : Entry α → Entry α)
    (keeps : ∀ entry, (change entry).key = entry.key) (i : Nat) :
    Indexed { map with entries := map.entries.modify i change } where
  distinct := by
    rw [keys, map_key_modify change keeps]
    exact indexed.distinct
  positioned := by
    rw [positions_eq, map_key_modify change keeps, ← positions_eq]
    exact indexed.positioned

/-- The entry at the position of a key is the one with that key. -/
theorem Indexed.modify_eq_map (indexed : map.Indexed) {i : Nat}
    (position : map.position? key = some i) (change : Entry α → Entry α) :
    map.entries.modify i change =
      map.entries.map fun entry => if entry.key = key then change entry else entry := by
  have named := indexed.position?_eq_some.1 position
  refine List.ext_getElem? fun j => ?_
  rw [List.getElem?_modify, List.getElem?_map]
  cases here : map.entries[j]? with
  | none => simp
  | some entry =>
      have key_j : map.keys[j]? = some entry.key := by
        rw [keys, List.getElem?_map, here, Option.map_some]
      by_cases same : i = j
      · subst same
        rw [key_j, Option.some.injEq] at named
        simp [named]
      · have differ : entry.key ≠ key := by
          rintro rfl
          exact same (Option.some.inj (position.symm.trans (indexed.position?_eq_some.2 key_j)))
        simp [same, differ]

theorem mem_modify {entries : List (Entry α)} {change : Entry α → Entry α} {i : Nat}
    {entry : Entry α} (member : entry ∈ entries.modify i change) :
    entry ∈ entries ∨ ∃ old ∈ entries, entry = change old := by
  induction entries generalizing i with
  | nil => simp at member
  | cons first rest ih =>
      cases i with
      | zero =>
          rw [List.modify_zero_cons] at member
          rcases List.mem_cons.1 member with rfl | member
          · exact .inr ⟨first, List.mem_cons_self .., rfl⟩
          · exact .inl (List.mem_cons_of_mem _ member)
      | succ i =>
          rw [List.modify_succ_cons] at member
          rcases List.mem_cons.1 member with rfl | member
          · exact .inl (List.mem_cons_self ..)
          · rcases ih member with old | ⟨old, inside, rfl⟩
            · exact .inl (List.mem_cons_of_mem _ old)
            · exact .inr ⟨old, List.mem_cons_of_mem _ inside, rfl⟩

/-! Putting a value under a key. -/

theorem keys_insert (indexed : map.Indexed) :
    (map.insert key order value).keys =
      if key ∈ map.keys then map.keys else map.keys ++ [key] := by
  unfold insert
  cases position : map.position? key with
  | none =>
      rw [if_neg (indexed.position?_eq_none.1 position)]
      simp [keys]
  | some i =>
      have present := List.mem_of_getElem? (indexed.position?_eq_some.1 position)
      rw [if_pos present]
      exact map_key_modify (fun entry => { entry with order, value }) (fun _ => rfl) i

theorem Indexed.insert (indexed : map.Indexed) (key : String) (order : Int64) (value : α) :
    (map.insert key order value).Indexed := by
  unfold MergeMap.insert
  cases position : map.position? key with
  | none =>
      have absent := indexed.position?_eq_none.1 position
      refine ⟨?_, ?_⟩
      · simp only [keys, List.map_append, List.map_cons, List.map_nil]
        refine List.nodup_append.2 ⟨indexed.distinct, List.nodup_singleton _, ?_⟩
        intro old member new single
        rw [List.mem_singleton.1 single]
        exact fun same => absent (same ▸ member)
      · rw [positions_append, ← indexed.positioned]
  | some i =>
      exact indexed.modify (fun entry => { entry with order, value }) (fun _ => rfl) i

theorem count_insert (indexed : map.Indexed) :
    (map.insert key order value).keys.count other =
      if other = key then 1 else map.keys.count other := by
  rw [keys_insert indexed]
  by_cases same : other = key
  · subst same
    rw [if_pos rfl]
    split
    · next present => exact List.count_eq_one_of_mem indexed.distinct present
    · next absent => simp [List.count_append, List.count_eq_zero_of_not_mem absent]
  · rw [if_neg same]
    split
    · rfl
    · simp [List.count_append, Ne.symm same]

theorem forall_insert {p : α → Prop} (all : ∀ entry ∈ map.entries, p entry.value)
    (new : p value) : ∀ entry ∈ (map.insert key order value).entries, p entry.value := by
  unfold insert
  intro entry member
  cases position : map.position? key with
  | none =>
      simp only [position] at member
      rcases List.mem_append.1 member with member | member
      · exact all entry member
      · rw [List.mem_singleton.1 member]
        exact new
  | some i =>
      simp only [position] at member
      rcases mem_modify member with member | ⟨old, -, rfl⟩
      · exact all entry member
      · exact new

/-! Changing the value under a key. -/

theorem keys_update (f : α → α) : (map.update key f).keys = map.keys := by
  unfold update
  cases map.position? key with
  | none => rfl
  | some i =>
      exact map_key_modify (fun entry => { entry with value := f entry.value }) (fun _ => rfl) i

theorem Indexed.update (indexed : map.Indexed) (key : String) (f : α → α) :
    (map.update key f).Indexed := by
  unfold MergeMap.update
  cases map.position? key with
  | none => exact indexed
  | some i =>
      exact indexed.modify (fun entry => { entry with value := f entry.value }) (fun _ => rfl) i

theorem forall_update {p : α → Prop} {f : α → α} (all : ∀ entry ∈ map.entries, p entry.value)
    (step : ∀ value, p value → p (f value)) :
    ∀ entry ∈ (map.update key f).entries, p entry.value := by
  unfold update
  intro entry member
  cases position : map.position? key with
  | none =>
      simp only [position] at member
      exact all entry member
  | some i =>
      simp only [position] at member
      rcases mem_modify member with member | ⟨old, inside, rfl⟩
      · exact all entry member
      · exact step _ (all old inside)

/-! Changing the value under a key that is there, and putting one there otherwise. -/

theorem Indexed.place (indexed : map.Indexed) (key : String) (order : Int64) (value : α)
    (f : α → α) :
    (if map.contains key then map.update key f else map.insert key order value).Indexed := by
  split
  · exact indexed.update key f
  · exact indexed.insert key order value

theorem count_place (indexed : map.Indexed) (f : α → α) :
    (if map.contains key then map.update key f else map.insert key order value).keys.count other =
      if other = key then 1 else map.keys.count other := by
  split
  · next present =>
      rw [keys_update]
      by_cases same : other = key
      · subst same
        rw [if_pos rfl]
        exact List.count_eq_one_of_mem indexed.distinct (indexed.contains_iff.1 present)
      · rw [if_neg same]
  · exact count_insert indexed

theorem forall_place {p : α → Prop} {f : α → α} (all : ∀ entry ∈ map.entries, p entry.value)
    (new : p value) (step : ∀ old, p old → p (f old)) :
    ∀ entry ∈ (if map.contains key then map.update key f
      else map.insert key order value).entries, p entry.value := by
  split
  · exact forall_update all step
  · exact forall_insert all new

/-! Erasing a key. -/

theorem keys_erase (indexed : map.Indexed) : (map.erase key).keys = map.keys.erase key := by
  unfold erase
  cases position : map.position? key with
  | none => rw [List.erase_of_not_mem (indexed.position?_eq_none.1 position)]
  | some i =>
      obtain ⟨bounded, here⟩ := List.getElem?_eq_some_iff.1 (indexed.position?_eq_some.1 position)
      have place : map.keys.idxOf key = i := by
        rw [← here]
        exact indexed.distinct.idxOf_getElem i bounded
      rw [List.erase_eq_eraseIdx_of_idxOf place]
      simp only [keys, MergeMap.ofEntries, List.eraseIdx_map]

theorem Indexed.erase (indexed : map.Indexed) (key : String) : (map.erase key).Indexed := by
  have distinct : (map.erase key).keys.Nodup := by
    rw [keys_erase indexed]
    exact indexed.distinct.erase key
  refine ⟨distinct, ?_⟩
  unfold MergeMap.erase
  cases map.position? key with
  | none => exact indexed.positioned
  | some i => rfl

theorem count_erase (indexed : map.Indexed) :
    (map.erase key).keys.count other = if other = key then 0 else map.keys.count other := by
  rw [keys_erase indexed]
  by_cases same : other = key
  · subst same
    rw [if_pos rfl]
    exact List.count_eq_zero_of_not_mem indexed.distinct.not_mem_erase
  · rw [if_neg same, List.count_erase_of_ne same]

theorem forall_erase {p : Entry α → Prop} (all : ∀ entry ∈ map.entries, p entry) :
    ∀ entry ∈ (map.erase key).entries, p entry := by
  unfold erase
  intro entry member
  cases position : map.position? key with
  | none =>
      simp only [position] at member
      exact all entry member
  | some i =>
      simp only [position] at member
      exact all entry (List.mem_of_mem_eraseIdx member)

/-! Sorting. -/

theorem keys_sort_perm (map : MergeMap α) : map.sort.keys.Perm map.keys :=
  (List.mergeSort_perm _ _).map _

theorem Indexed.sort (indexed : map.Indexed) : map.sort.Indexed :=
  .ofEntries ((keys_sort_perm map).nodup_iff.2 indexed.distinct)

theorem mem_sort {entry : Entry α} : entry ∈ map.sort.entries ↔ entry ∈ map.entries :=
  List.mem_mergeSort

end Archetype.MergeMap
