import Archetype.Table
import Archetype.Value

/-!
The attributes of a node: values by name, of which some are read as strings or truth values.
-/

namespace Archetype

abbrev Attributes := Table Value

namespace Attributes

def string? (attributes : Attributes) (name : String) : Option String :=
  match attributes.get? name with
  | some (.string s) => some s
  | _ => none

def isTrue (attributes : Attributes) (name : String) : Bool :=
  attributes.get? name == some (.bool true)

end Attributes

end Archetype
