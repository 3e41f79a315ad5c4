import Archetype.Error
import Archetype.Text.Blank
import Archetype.Text.Fields

/-!
Reading a value as a type, and reading a text as a value of a type. Null reads as the empty value
of every type; any other value reads as its own type only.
-/

namespace Archetype.Value

def mismatch (expected : ValueType) (found : Value) : Except RunError α :=
  .error (.typeMismatch expected found)

def asString : Value → Except RunError String
  | .string s => .ok s
  | .null => .ok ""
  | v => mismatch .string v

def asBool : Value → Except RunError Bool
  | .bool b => .ok b
  | .null => .ok false
  | v => mismatch .boolean v

def asInt : Value → Except RunError Int64
  | .int i => .ok i
  | .null => .ok 0
  | v => mismatch .int v

def asList : Value → Except RunError (List String)
  | .list items => .ok items
  | .null => .ok []
  | v => mismatch .list v

def lowercase (s : String) : String :=
  .ofList (s.toList.map Char.toLower)

def readTruth? (word : String) : Option Bool :=
  if lowercase word ∈ ["true", "yes", "y"] then some true
  else if lowercase word ∈ ["false", "no", "n"] then some false
  else none

/-- The items between commas, without the blanks around them and without empty ones. -/
def readItems (s : String) : List String :=
  ((Text.fields ',' (Text.trimmed s.toList)).map Text.trimmed).filterMap fun item =>
    if item = [] then none else some (.ofList item)

/-- The value of a type that a raw text stands for. A string is taken as it is; for the other
types the blanks around the text do not count. -/
def parse (type : ValueType) (raw : String) : Except RunError Value :=
  match type with
  | .string => .ok (.string raw)
  | .boolean =>
      match readTruth? (Text.trim raw) with
      | some b => .ok (.bool b)
      | none => mismatch .boolean (.string raw)
  | .int =>
      match Text.readInt64? (Text.trimmed raw.toList) with
      | some i => .ok (.int i)
      | none => mismatch .int (.string raw)
  | .list => .ok (.list (readItems raw))

/-- The value as one of a type: a string is parsed, any other value must have the type. -/
def coerce (type : ValueType) (v : Value) : Except RunError Value :=
  if v.type = type then .ok v
  else
    match v with
    | .string raw => parse type raw
    | v => mismatch type v

end Archetype.Value
