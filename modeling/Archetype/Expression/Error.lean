import Archetype.Expression.Token

/-!
Why a text is not an expression. Offsets count the bytes of the UTF-8 form before the fault.
-/

namespace Archetype

inductive Expression.Expected where
  | endOfExpression
  | operand
  | closeParen
  | listItem
  | listContinuation
  deriving DecidableEq

def Expression.Expected.describe : Expression.Expected → String
  | .endOfExpression => "end of expression"
  | .operand => "a value"
  | .closeParen => "')'"
  | .listItem => "a string list item"
  | .listContinuation => "',' or ']'"

inductive ExpressionError where
  | invalidToken (source : String) (offset : Nat)
  | unexpectedToken (source : String) (offset : Nat) (found : Expression.Token)
      (expected : Expression.Expected)
  | unexpectedEnd (source : String)
  deriving DecidableEq

def ExpressionError.message : ExpressionError → String
  | .invalidToken source offset =>
      "unexpected character at offset " ++ toString offset ++ " in '" ++ source ++ "'"
  | .unexpectedToken source offset found expected =>
      "unexpected " ++ found.describe ++ " at offset " ++ toString offset ++ " in '" ++ source
        ++ "', expected " ++ expected.describe
  | .unexpectedEnd source => "unexpected end of expression '" ++ source ++ "'"

end Archetype
