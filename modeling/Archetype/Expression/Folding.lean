import Archetype.Expression.Evaluation

/-!
Folding the constant parts of an expression. Only a left operand may settle a connective, so that
a variable that would have been read is still read.
-/

namespace Archetype.Expression

def foldNot : Expression → Expression
  | .literal (.bool b) => .literal (.bool (!b))
  | .not e => e
  | e => .not e

def foldLogic (op : Connective) : (l r : Expression) → Expression
  | .literal (.bool b), r => if b = op.absorbing then .literal (.bool b) else r
  | l, .literal (.bool b) => if b = op.absorbing then .logic op l (.literal (.bool b)) else l
  | l, r => .logic op l r

def foldCompare (op : Comparison) : (l r : Expression) → Expression
  | .literal v, .literal w =>
      match compareValues op v w with
      | .ok b => .literal (.bool b)
      | .error _ => .compare op (.literal v) (.literal w)
  | l, r => .compare op l r

def foldSizeOf : Expression → Expression
  | .literal v =>
      match v.size with
      | .ok n => .literal (.int n)
      | .error _ => .sizeOf (.literal v)
  | e => .sizeOf e

def fold : Expression → Expression
  | .literal v => .literal v
  | .var path => .var path
  | .not e => foldNot e.fold
  | .sizeOf e => foldSizeOf e.fold
  | .logic op l r => foldLogic op l.fold r.fold
  | .compare op l r => foldCompare op l.fold r.fold

/-- The truth value of an expression that folds to one. -/
def constant? (e : Expression) : Option Bool :=
  match e.fold with
  | .literal (.bool b) => some b
  | _ => none

end Archetype.Expression
