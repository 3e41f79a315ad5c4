import Archetype.Text.Integer
import Archetype.Value

/-!
The text of a value, as diagnostics and printed trees show it and as a template takes it in.
-/

namespace Archetype

def truthWord : Bool → String
  | true => "true"
  | false => "false"

/-- The text in diagnostics: lists in brackets, null by its name. -/
def Value.text : Value → String
  | .null => "null"
  | .string s => s
  | .bool b => truthWord b
  | .int i => Text.integer i.toInt
  | .list items => "[" ++ ", ".intercalate items ++ "]"

/-- The text put in place of a reference: lists joined by commas, null as nothing. -/
def Value.plain : Value → String
  | .null => ""
  | .string s => s
  | .bool b => truthWord b
  | .int i => Text.integer i.toInt
  | .list items => ",".intercalate items

end Archetype
