import Archetype.Expression.Basic
import Archetype.Text.Integer

/-!
The words of the expression language, and how a diagnostic names each of them.
-/

namespace Archetype.Expression

inductive Token where
  | truth (b : Bool)
  | logic (op : Connective)
  | compare (op : Comparison)
  | bang
  | sizeOf
  | openParen
  | closeParen
  | openBracket
  | closeBracket
  | comma
  | var (path : String)
  | string (s : String)
  | int (i : Int64)
  deriving DecidableEq

/-- The tokens with one fixed spelling. Where one spelling begins another, the longer is first. -/
def Token.fixed : List (String × Token) :=
  [("true", .truth true), ("false", .truth false), ("contains", .compare .contains),
   ("sizeof", .sizeOf), ("==", .compare .equal), ("!=", .compare .notEqual), ("!", .bang),
   ("&&", .logic .and), ("||", .logic .or), ("(", .openParen), (")", .closeParen),
   ("[", .openBracket), ("]", .closeBracket), (",", .comma)]

def Token.spelling (t : Token) : String :=
  match fixed.find? (·.2 = t) with
  | some (word, _) => word
  | none => ""

def Token.describe : Token → String
  | .var path => "variable '$\x7b" ++ path ++ "\x7d'"
  | .string s => "string '" ++ s ++ "'"
  | .int i => "integer " ++ Text.integer i.toInt
  | t => "'" ++ t.spelling ++ "'"

end Archetype.Expression
