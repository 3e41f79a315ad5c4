import Archetype.Model.MergeMap
import Archetype.Script.Node
import Archetype.Text.Fields

/-!
Models: what a run produces for rendering. A model holds values, lists and maps, each under a key;
a key is in one of the three only. Lists and nested maps grow by merging.
-/

namespace Archetype

structure Ordered (α : Type) where
  order : Int64
  value : α

mutual
inductive Model where
  | mk (values : MergeMap Value) (lists : MergeMap (List (Ordered Fragment)))
      (maps : MergeMap Model)

/-- A part of a model: a value, a list or a nested map. -/
inductive Fragment where
  | value (v : Value)
  | list (items : List (Ordered Fragment))
  | map (m : Model)
end

abbrev ModelList := List (Ordered Fragment)

namespace Model

def empty : Model := ⟨{}, {}, {}⟩

def values : Model → MergeMap Value
  | ⟨values, _, _⟩ => values

def lists : Model → MergeMap ModelList
  | ⟨_, lists, _⟩ => lists

def maps : Model → MergeMap Model
  | ⟨_, _, maps⟩ => maps

def size (model : Model) : Nat :=
  model.values.size + model.lists.size + model.maps.size

def isEmpty (model : Model) : Bool :=
  model.values.isEmpty && model.lists.isEmpty && model.maps.isEmpty

/-- The keys of the values, then of the lists, then of the maps. -/
def keys (model : Model) : List String :=
  model.values.keys ++ model.lists.keys ++ model.maps.keys

def descend? (model : Model) : List String → Option Model
  | [] => some model
  | key :: rest => (model.maps.get? key).bind fun nested => nested.descend? rest

/-- The value under a key, or else at a dotted path through nested maps. -/
def lookup? (model : Model) (path : String) : Option Value :=
  match model.values.get? path with
  | some v => some v
  | none =>
      match Text.cutLast? '.' path.toList with
      | none => none
      | some (way, key) =>
          (model.descend? ((Text.fields '.' way).map .ofList)).bind fun nested =>
            nested.values.get? (.ofList key)

end Model

end Archetype
