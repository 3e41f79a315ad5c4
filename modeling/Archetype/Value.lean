/-!
Values: the data that inputs, variables and model entries hold. A null value is string-typed and
reads as the empty value of every type.
-/

namespace Archetype

inductive ValueType where
  | string
  | boolean
  | int
  | list
  deriving DecidableEq

def ValueType.name : ValueType → String
  | .string => "string"
  | .boolean => "boolean"
  | .int => "int"
  | .list => "list"

inductive Value where
  | null
  | string (text : String)
  | bool (b : Bool)
  | int (i : Int64)
  | list (items : List String)
  deriving DecidableEq

def Value.type : Value → ValueType
  | .null => .string
  | .string _ => .string
  | .bool _ => .boolean
  | .int _ => .int
  | .list _ => .list

def Value.isNull : Value → Bool
  | .null => true
  | _ => false

end Archetype
