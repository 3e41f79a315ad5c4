import Archetype.Expression.Token
import Archetype.Value.Text

/-!
The text of an expression. Every binary operator is parenthesised, so the text spells the
expression back whatever the precedences.
-/

namespace Archetype.Expression

def escaped (c : Char) : List Char :=
  if c = '\\' || c = '\'' then ['\\', c] else [c]

def quote (s : String) : String :=
  "'" ++ String.ofList (s.toList.flatMap escaped) ++ "'"

def literalText : Value → String
  | .null => "''"
  | .string s => quote s
  | .list items => "[" ++ ", ".intercalate (items.map quote) ++ "]"
  | v => v.text

def text : Expression → String
  | .literal v => literalText v
  | .var path => "$\x7b" ++ path ++ "\x7d"
  | .not e => "!" ++ e.text
  | .sizeOf e => "sizeof " ++ e.text
  | .logic op l r => "(" ++ l.text ++ " " ++ (Token.logic op).spelling ++ " " ++ r.text ++ ")"
  | .compare op l r => "(" ++ l.text ++ " " ++ (Token.compare op).spelling ++ " " ++ r.text ++ ")"

end Archetype.Expression
