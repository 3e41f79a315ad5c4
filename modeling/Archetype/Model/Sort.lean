import Archetype.Model.Basic

/-!
Sorting a model by order, at every level. The sort is stable.
-/

namespace Archetype

def sortOrdered (items : List (Ordered α)) : List (Ordered α) :=
  items.mergeSort fun a b => decide (a.order ≤ b.order)

mutual
def Model.sort : Model → Model
  | ⟨values, ⟨lists, _⟩, ⟨maps, _⟩⟩ =>
      ⟨values.sort, (MergeMap.ofEntries (Model.sortLists lists)).sort,
        (MergeMap.ofEntries (Model.sortMaps maps)).sort⟩

def Model.sortLists : List (Entry (List (Ordered Fragment))) →
    List (Entry (List (Ordered Fragment)))
  | [] => []
  | ⟨key, order, items⟩ :: rest =>
      ⟨key, order, sortOrdered (Fragment.sortItems items)⟩ :: Model.sortLists rest

def Model.sortMaps : List (Entry Model) → List (Entry Model)
  | [] => []
  | ⟨key, order, nested⟩ :: rest => ⟨key, order, nested.sort⟩ :: Model.sortMaps rest

def Fragment.sort : Fragment → Fragment
  | .value v => .value v
  | .list items => .list (sortOrdered (Fragment.sortItems items))
  | .map m => .map m.sort

/-- Sorts every item inside and leaves them in their places. -/
def Fragment.sortItems : List (Ordered Fragment) → List (Ordered Fragment)
  | [] => []
  | ⟨order, fragment⟩ :: rest => ⟨order, fragment.sort⟩ :: Fragment.sortItems rest
end

end Archetype
