import Archetype.Value

/-!
Condition expressions: literals and variables under negation, size, connectives and comparisons.
-/

namespace Archetype

inductive Connective where
  | and
  | or
  deriving DecidableEq

inductive Comparison where
  | equal
  | notEqual
  | contains
  deriving DecidableEq

inductive Expression where
  | literal (v : Value)
  | var (path : String)
  | not (e : Expression)
  | sizeOf (e : Expression)
  | logic (op : Connective) (l r : Expression)
  | compare (op : Comparison) (l r : Expression)
  deriving DecidableEq

/-- The truth value that settles a connective when its left operand has it. -/
def Connective.absorbing : Connective → Bool
  | .and => false
  | .or => true

def Expression.isLiteral : Expression → Bool
  | .literal _ => true
  | _ => false

/-- The variable paths of an expression, from left to right, one for each mention. -/
def Expression.paths : Expression → List String
  | .literal _ => []
  | .var path => [path]
  | .not e => e.paths
  | .sizeOf e => e.paths
  | .logic _ l r => l.paths ++ r.paths
  | .compare _ l r => l.paths ++ r.paths

end Archetype
