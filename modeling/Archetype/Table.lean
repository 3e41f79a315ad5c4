/-!
Tables: values under distinct names. Names are kept in increasing order, so two tables with the same
content are equal and are printed alike.
-/

namespace Archetype

structure Table (α : Type) where
  entries : List (String × α) := []
  sorted : entries.Pairwise (·.1 < ·.1) := by exact .nil
  deriving DecidableEq

namespace Table

def empty : Table α := {}

def get? (table : Table α) (name : String) : Option α :=
  (table.entries.find? (·.1 = name)).map (·.2)

def contains (table : Table α) (name : String) : Bool :=
  (table.get? name).isSome

def insertEntry (name : String) (value : α) : List (String × α) → List (String × α)
  | [] => [(name, value)]
  | (n, v) :: rest =>
      if name < n then (name, value) :: (n, v) :: rest
      else if name = n then (name, value) :: rest
      else (n, v) :: insertEntry name value rest

theorem mem_insertEntry {name : String} {value : α} {entries : List (String × α)}
    {entry : String × α} (h : entry ∈ insertEntry name value entries) :
    entry = (name, value) ∨ entry ∈ entries := by
  fun_induction insertEntry name value entries with
  | case1 => simp_all
  | case2 => simp_all
  | case3 =>
      rcases List.mem_cons.1 h with rfl | h
      · simp
      · simp [h]
  | case4 n v rest _ _ ih =>
      rcases List.mem_cons.1 h with rfl | h
      · simp
      · rcases ih h with h | h <;> simp [h]

theorem pairwise_insertEntry {name : String} {value : α} {entries : List (String × α)}
    (h : entries.Pairwise (·.1 < ·.1)) : (insertEntry name value entries).Pairwise (·.1 < ·.1) := by
  fun_induction insertEntry name value entries with
  | case1 => simp
  | case2 n v rest hlt =>
      refine List.pairwise_cons.2 ⟨fun entry hentry => ?_, h⟩
      rcases List.mem_cons.1 hentry with rfl | hentry
      · exact hlt
      · exact String.lt_trans hlt ((List.pairwise_cons.1 h).1 entry hentry)
  | case3 v rest _ => exact List.pairwise_cons.2 (List.pairwise_cons.1 h)
  | case4 n v rest hlt hne ih =>
      refine List.pairwise_cons.2 ⟨fun entry hentry => ?_, ih (List.pairwise_cons.1 h).2⟩
      rcases mem_insertEntry hentry with rfl | hentry
      · exact Std.lt_of_le_of_ne (String.not_lt.1 hlt) (Ne.symm hne)
      · exact (List.pairwise_cons.1 h).1 entry hentry

def insert (table : Table α) (name : String) (value : α) : Table α where
  entries := insertEntry name value table.entries
  sorted := pairwise_insertEntry table.sorted

theorem find?_insertEntry (name : String) (value : α) (entries : List (String × α)) :
    (insertEntry name value entries).find? (·.1 = name) = some (name, value) := by
  fun_induction insertEntry name value entries with
  | case1 => simp
  | case2 => simp
  | case3 => simp
  | case4 n v rest _ differ ih => simp [Ne.symm differ, ih]

theorem get?_insert_self (table : Table α) (name : String) (value : α) :
    (table.insert name value).get? name = some value := by
  rw [get?, insert, find?_insertEntry, Option.map_some]

theorem find?_insertEntry_of_ne {name other : String} (differ : other ≠ name) (value : α)
    (entries : List (String × α)) :
    (insertEntry name value entries).find? (·.1 = other) = entries.find? (·.1 = other) := by
  fun_induction insertEntry name value entries with
  | case1 => simp [Ne.symm differ]
  | case2 => simp [Ne.symm differ]
  | case3 => simp [Ne.symm differ]
  | case4 n v rest _ _ ih =>
      by_cases here : n = other
      · simp [here]
      · simp [here, ih]

theorem get?_insert_of_ne {name other : String} (differ : other ≠ name) (table : Table α)
    (value : α) : (table.insert name value).get? other = table.get? other := by
  rw [get?, insert, find?_insertEntry_of_ne differ, get?]

def erase (table : Table α) (name : String) : Table α where
  entries := table.entries.filter (·.1 ≠ name)
  sorted := table.sorted.filter _

/-- The table of these entries; of two under one name the later counts. -/
def ofList (entries : List (String × α)) : Table α :=
  entries.foldl (fun table (name, value) => table.insert name value) empty

end Table

end Archetype
