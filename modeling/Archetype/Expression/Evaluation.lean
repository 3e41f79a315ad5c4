import Archetype.Expression.Basic
import Archetype.Value.Reading

/-!
The value of an expression over a source of variables. A connective does not look at its right
operand once the left one settles it; a comparison looks at both.
-/

namespace Archetype

/-- What a variable path stands for, or why it stands for nothing. -/
abbrev Variables := String → Except RunError Value

def Variables.none : Variables := fun path => .error (.unresolvedVariable path)

def Text.occursIn (needle : List Char) : List Char → Bool
  | [] => needle.isEmpty
  | c :: rest => needle.isPrefixOf (c :: rest) || occursIn needle rest

/-- Equality of values, where null also equals the empty string. -/
def Value.equal : Value → Value → Bool
  | .null, .string s => s = ""
  | .string s, .null => s = ""
  | v, w => v = w

/-- A list contains the items of a list or a single string; a string contains what occurs in it. -/
def Value.contains : (v part : Value) → Except RunError Bool
  | .list items, .list parts => .ok (parts.all (· ∈ items))
  | .list items, part => do
      let s ← part.asString
      .ok (s ∈ items)
  | v, part => do
      let s ← v.asString
      let t ← part.asString
      .ok (Text.occursIn t.toList s.toList)

/-- The number of items of a list or of characters of a string. -/
def Value.size : Value → Except RunError Int64
  | .list items => .ok (.ofNat items.length)
  | v => do
      let s ← v.asString
      .ok (.ofNat s.length)

namespace Expression

def compareValues : Comparison → (v w : Value) → Except RunError Bool
  | .equal, v, w => .ok (v.equal w)
  | .notEqual, v, w => .ok (!v.equal w)
  | .contains, v, w => v.contains w

def evaluate (lookup : Variables) : Expression → Except RunError Value
  | .literal v => .ok v
  | .var path => lookup path
  | .not e => do
      let b ← (← e.evaluate lookup).asBool
      .ok (.bool (!b))
  | .sizeOf e => do
      let n ← (← e.evaluate lookup).size
      .ok (.int n)
  | .logic op l r => do
      let b ← (← l.evaluate lookup).asBool
      if b = op.absorbing then .ok (.bool b)
      else do
        let b ← (← r.evaluate lookup).asBool
        .ok (.bool b)
  | .compare op l r => do
      let v ← l.evaluate lookup
      let w ← r.evaluate lookup
      let b ← compareValues op v w
      .ok (.bool b)

def holds (lookup : Variables) (e : Expression) : Except RunError Bool := do
  (← e.evaluate lookup).asBool

end Expression

end Archetype
