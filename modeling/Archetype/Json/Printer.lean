import Archetype.Json.Number

/-!
The text of JSON data, on one line or indented by two spaces. Only quotes, backslashes and control
characters are escaped.
-/

namespace Archetype.Json

def hexDigit (n : Nat) : Char :=
  if n < 10 then Char.ofNat (n + 48) else Char.ofNat (n + 87)

def escaped (c : Char) : List Char :=
  match c with
  | '"' => ['\\', '"']
  | '\\' => ['\\', '\\']
  | '\n' => ['\\', 'n']
  | '\r' => ['\\', 'r']
  | '\t' => ['\\', 't']
  | '\x08' => ['\\', 'b']
  | '\x0c' => ['\\', 'f']
  | c =>
      if c.toNat < 0x20 then
        ['\\', 'u', '0', '0', hexDigit (c.toNat / 16), hexDigit (c.toNat % 16)]
      else [c]

def quote (s : String) : String :=
  "\"" ++ String.ofList (s.toList.flatMap escaped) ++ "\""

mutual
def compact : Json → String
  | .null => "null"
  | .bool true => "true"
  | .bool false => "false"
  | .number n => n.text
  | .string s => quote s
  | .array items => "[" ++ ",".intercalate (compactItems items) ++ "]"
  | .object members => "\x7b" ++ ",".intercalate (compactMembers members) ++ "\x7d"

def compactItems : List Json → List String
  | [] => []
  | item :: rest => item.compact :: compactItems rest

def compactMembers : List (String × Json) → List String
  | [] => []
  | (name, value) :: rest => (quote name ++ ":" ++ value.compact) :: compactMembers rest
end

def spaces (n : Nat) : String :=
  .ofList (List.replicate n ' ')

def block (opening closing : String) (indent : Nat) : List String → String
  | [] => opening ++ closing
  | lines =>
      opening ++ "\n" ++ ",\n".intercalate (lines.map (spaces (indent + 2) ++ ·)) ++ "\n"
        ++ spaces indent ++ closing

mutual
/-- The text with every item and member on a line of its own, inside a given indentation. -/
def indented (indent : Nat) : Json → String
  | .array items => block "[" "]" indent (indentedItems (indent + 2) items)
  | .object members => block "\x7b" "\x7d" indent (indentedMembers (indent + 2) members)
  | .null => "null"
  | .bool true => "true"
  | .bool false => "false"
  | .number n => n.text
  | .string s => quote s

def indentedItems (indent : Nat) : List Json → List String
  | [] => []
  | item :: rest => item.indented indent :: indentedItems indent rest

def indentedMembers (indent : Nat) : List (String × Json) → List String
  | [] => []
  | (name, value) :: rest =>
      (quote name ++ ": " ++ value.indented indent) :: indentedMembers indent rest
end

def pretty (json : Json) : String :=
  json.indented 0

end Archetype.Json
