import Archetype.Json.Number

/-!
JSON text as a tree that still holds what only some readers mind: numerals whose number may be out
of range, strings that may hold half a surrogate pair, names that may repeat, and any nesting. A
reader that skips a part of a document does not judge it; a reader that takes it does.
-/

namespace Archetype.Json

/-- A string is `none` if one of its escapes is half of a surrogate pair. -/
inductive Raw where
  | null
  | bool (b : Bool)
  | number (n : Numeral)
  | string (s : Option String)
  | array (items : List Raw)
  | object (members : List (Option String × Raw))

namespace Raw

def isSpace (c : Char) : Bool :=
  c = ' ' || c = '\n' || c = '\t' || c = '\r'

def skipSpaces (cs : List Char) : List Char :=
  cs.dropWhile isSpace

def hexValue? (c : Char) : Option Nat :=
  if '0' ≤ c ∧ c ≤ '9' then some (c.toNat - 48)
  else if 'a' ≤ c ∧ c ≤ 'f' then some (c.toNat - 87)
  else if 'A' ≤ c ∧ c ≤ 'F' then some (c.toNat - 55)
  else none

def hex4? (a b c d : Char) : Option Nat := do
  let a ← hexValue? a
  let b ← hexValue? b
  let c ← hexValue? c
  let d ← hexValue? d
  some (((a * 16 + b) * 16 + c) * 16 + d)

def escape? (c : Char) : Option Char :=
  match c with
  | '"' => some '"'
  | '\\' => some '\\'
  | '/' => some '/'
  | 'b' => some '\x08'
  | 'f' => some '\x0c'
  | 'n' => some '\n'
  | 'r' => some '\r'
  | 't' => some '\t'
  | _ => none

/-- A character of a string, or the code of a half of a surrogate pair. -/
inductive Letter where
  | char (c : Char)
  | half (code : Nat)

def letterOf (code : Nat) : Letter :=
  if 0xD800 ≤ code ∧ code < 0xE000 then .half code else .char (Char.ofNat code)

def letters : List Char → Except Fault (List Letter × List Char)
  | [] => .error .unexpectedEnd
  | '"' :: rest => .ok ([], rest)
  | '\\' :: 'u' :: a :: b :: c :: d :: rest => do
      let some code := hex4? a b c d | .error .badEscape
      let (ls, rest) ← letters rest
      .ok (letterOf code :: ls, rest)
  | '\\' :: c :: rest => do
      let some c := escape? c | .error .badEscape
      let (ls, rest) ← letters rest
      .ok (.char c :: ls, rest)
  | '\\' :: [] => .error .unexpectedEnd
  | c :: rest =>
      if c.toNat < 0x20 then .error .controlCharacter
      else do
        let (ls, rest) ← letters rest
        .ok (.char c :: ls, rest)

/-- Joins the two halves of each surrogate pair; `none` if a half stands alone. -/
def joinPairs : List Letter → Option (List Char)
  | [] => some []
  | .char c :: rest => (joinPairs rest).map (c :: ·)
  | .half high :: .half low :: rest =>
      if high < 0xDC00 ∧ 0xDC00 ≤ low then
        (joinPairs rest).map
          (Char.ofNat (0x10000 + (high - 0xD800) * 0x400 + (low - 0xDC00)) :: ·)
      else none
  | .half _ :: _ => none

def stringBody (cs : List Char) : Except Fault (Option String × List Char) :=
  (letters cs).map fun (ls, rest) => ((joinPairs ls).map .ofList, rest)

def digits (cs : List Char) : List Char × List Char :=
  (cs.takeWhile Char.isDigit, cs.dropWhile Char.isDigit)

/-- The digits before the point: a single zero, or digits that do not begin with one. -/
def wholePart (cs : List Char) : Except Fault (List Char × List Char) :=
  match digits cs with
  | ([], _) => .error .badNumber
  | ('0' :: _ :: _, _) => .error .badNumber
  | parts => .ok parts

def fractionPart : List Char → Except Fault (List Char × List Char)
  | '.' :: rest =>
      match digits rest with
      | ([], _) => .error .badNumber
      | parts => .ok parts
  | cs => .ok ([], cs)

def exponentDigits (negative : Bool) (cs : List Char) :
    Except Fault (Option (Bool × List Char) × List Char) :=
  match digits cs with
  | ([], _) => .error .badNumber
  | (ds, rest) => .ok (some (negative, ds), rest)

def exponentPart : List Char → Except Fault (Option (Bool × List Char) × List Char)
  | c :: rest =>
      if c = 'e' || c = 'E' then
        match rest with
        | '+' :: rest => exponentDigits false rest
        | '-' :: rest => exponentDigits true rest
        | rest => exponentDigits false rest
      else .ok (none, c :: rest)
  | [] => .ok (none, [])

def numeral (negative : Bool) (cs : List Char) : Except Fault (Raw × List Char) := do
  let (whole, rest) ← wholePart cs
  let (fraction, rest) ← fractionPart rest
  let (exponent, rest) ← exponentPart rest
  .ok (.number ⟨negative, whole, fraction, exponent⟩, rest)

mutual
/-- Reads one value and gives the text after it. The first argument bounds the nesting; two for
each character is enough. -/
def value : Nat → List Char → Except Fault (Raw × List Char)
  | 0, _ => .error .unexpectedEnd
  | n + 1, cs =>
      match skipSpaces cs with
      | [] => .error .unexpectedEnd
      | 'n' :: 'u' :: 'l' :: 'l' :: rest => .ok (.null, rest)
      | 't' :: 'r' :: 'u' :: 'e' :: rest => .ok (.bool true, rest)
      | 'f' :: 'a' :: 'l' :: 's' :: 'e' :: rest => .ok (.bool false, rest)
      | '"' :: rest => (stringBody rest).map fun (s, rest) => (.string s, rest)
      | '[' :: rest =>
          match skipSpaces rest with
          | ']' :: rest => .ok (.array [], rest)
          | rest => items n [] rest
      | '{' :: rest =>
          match skipSpaces rest with
          | '}' :: rest => .ok (.object [], rest)
          | rest => members n [] rest
      | '-' :: rest => numeral true rest
      | c :: rest =>
          if c.isDigit then numeral false (c :: rest) else .error (.unexpectedCharacter c)

/-- Reads the items of an array after those already read, which are held in reverse. -/
def items : Nat → List Raw → List Char → Except Fault (Raw × List Char)
  | 0, _, _ => .error .unexpectedEnd
  | n + 1, before, cs =>
      match value n cs with
      | .error fault => .error fault
      | .ok (item, rest) =>
          match skipSpaces rest with
          | ',' :: rest => items n (item :: before) rest
          | ']' :: rest => .ok (.array (item :: before).reverse, rest)
          | c :: _ => .error (.unexpectedCharacter c)
          | [] => .error .unexpectedEnd

def members : Nat → List (Option String × Raw) → List Char → Except Fault (Raw × List Char)
  | 0, _, _ => .error .unexpectedEnd
  | n + 1, before, cs =>
      match skipSpaces cs with
      | '"' :: rest =>
          match stringBody rest with
          | .error fault => .error fault
          | .ok (name, rest) =>
              match skipSpaces rest with
              | ':' :: rest =>
                  match value n rest with
                  | .error fault => .error fault
                  | .ok (item, rest) =>
                      match skipSpaces rest with
                      | ',' :: rest => members n ((name, item) :: before) rest
                      | '}' :: rest => .ok (.object ((name, item) :: before).reverse, rest)
                      | c :: _ => .error (.unexpectedCharacter c)
                      | [] => .error .unexpectedEnd
              | c :: _ => .error (.unexpectedCharacter c)
              | [] => .error .unexpectedEnd
      | c :: _ => .error (.unexpectedCharacter c)
      | [] => .error .unexpectedEnd
end

def ofText (text : String) : Except Fault Raw := do
  let cs := text.toList
  let (tree, rest) ← value (2 * cs.length + 2) cs
  match skipSpaces rest with
  | [] => .ok tree
  | c :: _ => .error (.unexpectedCharacter c)

end Raw

end Archetype.Json
