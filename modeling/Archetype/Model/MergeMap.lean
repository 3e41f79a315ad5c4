/-!
Maps whose entries keep the order in which their keys were first put, and carry an order number
for sorting. An entry is found by the position of its key, which an index beside the entries holds.
-/

namespace Archetype

structure Entry (α : Type) where
  key : String
  order : Int64
  value : α
  deriving DecidableEq

structure MergeMap (α : Type) where
  entries : List (Entry α) := []
  /-- The positions of the keys. -/
  index : List (String × Nat) := []
  deriving DecidableEq

namespace MergeMap

/-- The positions of the keys of entries; of two under one key the later counts. -/
def positions (entries : List (Entry α)) : List (String × Nat) :=
  (entries.zipIdx.map fun (entry, i) => (entry.key, i)).reverse

def ofEntries (entries : List (Entry α)) : MergeMap α where
  entries := entries
  index := positions entries

variable (map : MergeMap α)

def size : Nat := map.entries.length

def isEmpty : Bool := map.entries.isEmpty

def keys : List String := map.entries.map (·.key)

def position? (key : String) : Option Nat :=
  map.index.lookup key

def entry? (key : String) : Option (Entry α) :=
  (map.position? key).bind fun i => map.entries[i]?

def get? (key : String) : Option α :=
  (map.entry? key).map (·.value)

def order? (key : String) : Option Int64 :=
  (map.entry? key).map (·.order)

def contains (key : String) : Bool :=
  (map.position? key).isSome

/-- Puts a value and its order under a key. A key that is there keeps its place; a new one goes to
the end. -/
def insert (key : String) (order : Int64) (value : α) : MergeMap α :=
  match map.position? key with
  | some i =>
      { map with entries := map.entries.modify i fun entry => { entry with order, value } }
  | none =>
      { entries := map.entries ++ [⟨key, order, value⟩]
        index := (key, map.entries.length) :: map.index }

def update (key : String) (f : α → α) : MergeMap α :=
  match map.position? key with
  | some i =>
      { map with entries := map.entries.modify i fun entry => { entry with value := f entry.value } }
  | none => map

def erase (key : String) : MergeMap α :=
  match map.position? key with
  | some i => ofEntries (map.entries.eraseIdx i)
  | none => map

def remove (key : String) : Option α × MergeMap α :=
  (map.get? key, map.erase key)

/-- Sorts the entries by order; entries of one order keep their places. -/
def sort : MergeMap α :=
  ofEntries (map.entries.mergeSort fun a b => decide (a.order ≤ b.order))

end MergeMap

end Archetype
