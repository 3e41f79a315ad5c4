import Archetype.Expression.Error
import Archetype.Expression.Lexer

/-!
The grammar of expressions, loosest first: disjunctions of conjunctions of comparisons of prefixed
operands. Every binary operator groups to the left, and a list literal holds strings only.
-/

namespace Archetype.Expression

/-- A fault of the grammar, before the text it was found in is attached. -/
inductive Fault where
  | unexpected (found : Lexeme) (expected : Expected)
  | unexpectedEnd
  deriving DecidableEq

def Fault.inSource (source : String) : Fault → ExpressionError
  | .unexpected found expected =>
      .unexpectedToken source (offset source found.text) found.token expected
  | .unexpectedEnd => .unexpectedEnd source

abbrev Reader (α : Type) := List Lexeme → Except Fault (α × List Lexeme)

def listItems (items : List String) : Reader Expression
  | [] => .error .unexpectedEnd
  | ⟨.string s, _⟩ :: ⟨.comma, _⟩ :: rest => listItems (items ++ [s]) rest
  | ⟨.string s, _⟩ :: ⟨.closeBracket, _⟩ :: rest => .ok (.literal (.list (items ++ [s])), rest)
  | ⟨.string _, _⟩ :: other :: _ => .error (.unexpected other .listContinuation)
  | ⟨.string _, _⟩ :: [] => .error .unexpectedEnd
  | other :: _ => .error (.unexpected other .listItem)

def listLiteral : Reader Expression
  | ⟨.closeBracket, _⟩ :: rest => .ok (.literal (.list []), rest)
  | lexemes => listItems [] lexemes

def closeParen : Reader Unit
  | [] => .error .unexpectedEnd
  | ⟨.closeParen, _⟩ :: rest => .ok ((), rest)
  | other :: _ => .error (.unexpected other .closeParen)

/-- Extends what was read so far by every following operator with its right operand. The first
argument bounds the number of operators. -/
def extend (op : Token → Option (Expression → Expression → Expression))
    (operand : Reader Expression) : Nat → Expression → Reader Expression
  | 0, left, lexemes => .ok (left, lexemes)
  | _ + 1, left, [] => .ok (left, [])
  | n + 1, left, lexeme :: rest =>
      match op lexeme.token with
      | none => .ok (left, lexeme :: rest)
      | some combine => do
          let (right, rest) ← operand rest
          extend op operand n (combine left right) rest

/-- At most so many operators with their operands, grouped to the left. -/
def chain (bound : Nat) (op : Token → Option (Expression → Expression → Expression))
    (operand : Reader Expression) : Reader Expression := fun lexemes => do
  let (first, rest) ← operand lexemes
  extend op operand bound first rest

def comparisonOf : Token → Option (Expression → Expression → Expression)
  | .compare op => some (.compare op)
  | _ => none

def connectiveOf (op : Connective) : Token → Option (Expression → Expression → Expression)
  | .logic op' => if op = op' then some (.logic op) else none
  | _ => none

def disjunction (bound : Nat) (operand : Reader Expression) : Reader Expression :=
  chain bound (connectiveOf .or)
    (chain bound (connectiveOf .and) (chain bound comparisonOf operand))

/-- An operand with its prefix operators. The first argument bounds the nesting of prefix operators
and parentheses, and the operators between parentheses. Each takes a token, so a number that is
higher than the number of tokens is always enough. -/
def operand : Nat → Reader Expression
  | 0, _ => .error .unexpectedEnd
  | _ + 1, [] => .error .unexpectedEnd
  | n + 1, lexeme :: rest =>
      match lexeme.token with
      | .bang => do
          let (e, rest) ← operand n rest
          .ok (.not e, rest)
      | .sizeOf => do
          let (e, rest) ← operand n rest
          .ok (.sizeOf e, rest)
      | .truth b => .ok (.literal (.bool b), rest)
      | .int i => .ok (.literal (.int i), rest)
      | .string s => .ok (.literal (.string s), rest)
      | .var path => .ok (.var path, rest)
      | .openParen => do
          let (e, rest) ← disjunction n (operand n) rest
          let ((), rest) ← closeParen rest
          .ok (e, rest)
      | .openBracket => listLiteral rest
      | _ => .error (.unexpected lexeme .operand)

def ofLexemes (lexemes : List Lexeme) : Except Fault Expression := do
  let bound := lexemes.length + 1
  match ← disjunction bound (operand bound) lexemes with
  | (e, []) => .ok e
  | (_, other :: _) => .error (.unexpected other .endOfExpression)

def parse (source : String) : Except ExpressionError Expression :=
  match lexemes source.toList with
  | .error rest => .error (.invalidToken source (offset source rest))
  | .ok lexemes => (ofLexemes lexemes).mapError (·.inSource source)

end Archetype.Expression
