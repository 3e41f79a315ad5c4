import Archetype.Model.Basic

/-!
Putting entries into a model and merging models. A value replaces whatever its key held; a list is
appended to the list under its key and a map merged into the map under its key, and both replace an
entry of another sort.
-/

namespace Archetype.Model

def insertValue (model : Model) (key : String) (order : Int64) (v : Value) : Model :=
  ⟨model.values.insert key order v, model.lists.erase key, model.maps.erase key⟩

/-- Appends to the list under a key, which keeps its order; a new list gets the given one. -/
def mergeList (model : Model) (key : String) (order : Int64) (items : ModelList) : Model :=
  let lists :=
    if model.lists.contains key then model.lists.update key (· ++ items)
    else model.lists.insert key order items
  ⟨model.values.erase key, lists, model.maps.erase key⟩

/-- Changes the map under a key, which keeps its order, or puts a new one there. -/
def placeMap (model : Model) (key : String) (order : Int64) (fresh : Model)
    (grow : Model → Model) : Model :=
  let maps :=
    if model.maps.contains key then model.maps.update key grow
    else model.maps.insert key order fresh
  ⟨model.values.erase key, model.lists.erase key, maps⟩

def mergeLeaves (model : Model) (values : List (Entry Value)) (lists : List (Entry ModelList)) :
    Model :=
  lists.foldl (fun model entry => model.mergeList entry.key entry.order entry.value)
    (values.foldl (fun model entry => model.insertValue entry.key entry.order entry.value) model)

mutual
/-- Puts the entries of the second model into the first: values, then lists, then maps. -/
def merge (model : Model) : Model → Model
  | ⟨values, lists, ⟨maps, _⟩⟩ => mergeMaps (model.mergeLeaves values.entries lists.entries) maps

def mergeMaps (model : Model) : List (Entry Model) → Model
  | [] => model
  | ⟨key, order, nested⟩ :: rest =>
      mergeMaps (model.placeMap key order nested fun existing => existing.merge nested) rest
end

def mergeMap (model : Model) (key : String) (order : Int64) (nested : Model) : Model :=
  model.placeMap key order nested fun existing => existing.merge nested

def put (model : Model) (key : String) (order : Int64) : Fragment → Model
  | .value v => model.insertValue key order v
  | .list items => model.mergeList key order items
  | .map nested => model.mergeMap key order nested

end Archetype.Model
