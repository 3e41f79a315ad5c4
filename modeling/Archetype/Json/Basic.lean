/-!
JSON data. The members of an object keep their order, which is what printing shows.
-/

namespace Archetype

/-- A number is an integer where it is written as one and fits 64 bits, and a double otherwise. -/
inductive Json.Number where
  | int (i : Int)
  | float (x : Float)

inductive Json where
  | null
  | bool (b : Bool)
  | number (n : Json.Number)
  | string (s : String)
  | array (items : List Json)
  | object (members : List (String × Json))

/-- Why a text is not a JSON document, or not one of the expected shape. -/
inductive Json.Fault where
  | unexpectedEnd
  | unexpectedCharacter (c : Char)
  | controlCharacter
  | badEscape
  | loneSurrogate
  | badNumber
  | numberOutOfRange
  | tooDeep
  | expected (what : String)
  | missingField (name : String)
  | duplicateField (name : String)
  deriving DecidableEq

def Json.Fault.message : Json.Fault → String
  | .unexpectedEnd => "unexpected end of text"
  | .unexpectedCharacter c => "unexpected character '" ++ String.singleton c ++ "'"
  | .controlCharacter => "control character in a string"
  | .badEscape => "invalid escape"
  | .loneSurrogate => "half of a surrogate pair"
  | .badNumber => "invalid number"
  | .numberOutOfRange => "number out of range"
  | .tooDeep => "nested too deeply"
  | .expected what => "expected " ++ what
  | .missingField name => "missing field '" ++ name ++ "'"
  | .duplicateField name => "duplicate field '" ++ name ++ "'"

/-- The value of a member; of two under one name the later counts. -/
def Json.member? (name : String) : List (String × Json) → Option Json
  | [] => none
  | (n, value) :: rest =>
      match member? name rest with
      | some later => some later
      | none => if n = name then some value else none

theorem Json.mem_of_member? {name : String} {members : List (String × Json)} {value : Json}
    (found : member? name members = some value) : (name, value) ∈ members := by
  induction members with
  | nil => cases found
  | cons entry rest ih =>
      obtain ⟨n, v⟩ := entry
      rw [member?] at found
      cases later : member? name rest with
      | some other =>
          rw [later] at found ih
          exact List.mem_cons_of_mem _ (ih found)
      | none =>
          rw [later] at found
          by_cases same : n = name
          · simp only [same, if_true, Option.some.injEq] at found
            simp [same, found]
          · simp [same] at found

end Archetype
