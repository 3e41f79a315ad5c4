import Archetype.Json.Printer
import Archetype.Model.Basic

/-!
A model as JSON: the values, then the lists, then the maps, each in its own order.
-/

namespace Archetype

def Value.toJson : Value → Json
  | .null => .null
  | .string s => .string s
  | .bool b => .bool b
  | .int i => .number (.int i.toInt)
  | .list items => .array (items.map .string)

mutual
def Model.toJson : Model → Json
  | ⟨values, ⟨lists, _⟩, ⟨maps, _⟩⟩ =>
      .object (values.entries.map (fun entry => (entry.key, entry.value.toJson))
        ++ Model.listMembers lists ++ Model.mapMembers maps)

def Model.listMembers : List (Entry (List (Ordered Fragment))) → List (String × Json)
  | [] => []
  | ⟨key, _, items⟩ :: rest => (key, .array (Fragment.items items)) :: Model.listMembers rest

def Model.mapMembers : List (Entry Model) → List (String × Json)
  | [] => []
  | ⟨key, _, nested⟩ :: rest => (key, nested.toJson) :: Model.mapMembers rest

def Fragment.toJson : Fragment → Json
  | .value v => v.toJson
  | .list items => .array (Fragment.items items)
  | .map m => m.toJson

def Fragment.items : List (Ordered Fragment) → List Json
  | [] => []
  | ⟨_, fragment⟩ :: rest => fragment.toJson :: Fragment.items rest
end

end Archetype
