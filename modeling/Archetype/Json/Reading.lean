import Archetype.Json.Raw
import Archetype.Table

/-!
Reading JSON trees by shape. A reader is given the nesting it may still enter; each array or object
takes one level of it. Records may be written as objects, with unknown members skipped, or as
arrays of their fields in order.
-/

namespace Archetype.Json

namespace Raw

/-- The deepest nesting that is read: one array or object less than this. -/
def nestingLimit : Nat := 128

def enter (depth : Nat) : Except Fault Nat :=
  if depth ≤ 1 then .error .tooDeep else .ok (depth - 1)

mutual
/-- The data of a tree. Object members come in increasing order of their names. -/
def json (depth : Nat) : Raw → Except Fault Json
  | .null => .ok .null
  | .bool b => .ok (.bool b)
  | .number n =>
      match n.number? with
      | some n => .ok (.number n)
      | none => .error .numberOutOfRange
  | .string (some s) => .ok (.string s)
  | .string none => .error .loneSurrogate
  | .array items => do
      let depth ← enter depth
      let items ← jsonItems depth items
      .ok (.array items)
  | .object members => do
      let depth ← enter depth
      let members ← jsonMembers depth [] members
      .ok (.object members)

def jsonItems (depth : Nat) : List Raw → Except Fault (List Json)
  | [] => .ok []
  | item :: rest => do
      let item ← item.json depth
      let rest ← jsonItems depth rest
      .ok (item :: rest)

def jsonMembers (depth : Nat) (before : List (String × Json)) :
    List (Option String × Raw) → Except Fault (List (String × Json))
  | [] => .ok before
  | (none, _) :: _ => .error .loneSurrogate
  | (some name, value) :: rest => do
      let value ← value.json depth
      jsonMembers depth (Table.insertEntry name value before) rest
end

def table (depth : Nat) : Raw → Except Fault (List (String × Json))
  | .object members => do jsonMembers (← enter depth) [] members
  | _ => .error (.expected "an object")

def text : Raw → Except Fault String
  | .string (some s) => .ok s
  | .string none => .error .loneSurrogate
  | _ => .error (.expected "a string")

def truth : Raw → Except Fault Bool
  | .bool b => .ok b
  | _ => .error (.expected "true or false")

def word : Raw → Except Fault UInt32
  | .number n =>
      match n.number? with
      | some (.int i) =>
          if 0 ≤ i ∧ i < UInt32.size then .ok i.toNat.toUInt32 else .error .numberOutOfRange
      | _ => .error (.expected "an integer")
  | _ => .error (.expected "an integer")

def nullable (reader : Raw → Except Fault α) : Raw → Except Fault (Option α)
  | .null => .ok none
  | tree => (reader tree).map some

/-- The members of an object under the given names, in the order of the names. A known name may
not repeat; what stands under unknown names is skipped. -/
def known (names : List String) :
    List (Option String × Raw) → Except Fault (List (Option Raw))
  | [] => .ok (names.map fun _ => none)
  | (none, _) :: _ => .error .loneSurrogate
  | (some name, value) :: rest => do
      let fields ← known names rest
      match names.findIdx? (· = name) with
      | none => .ok fields
      | some i =>
          match fields[i]?.join with
          | none => .ok (fields.set i (some value))
          | some _ => .error (.duplicateField name)

/-- The fields of a record, in the order of their names. -/
def fields (names : List String) : Raw → Except Fault (List (Option Raw))
  | .object members => known names members
  | .array items =>
      if items.length ≤ names.length then
        .ok (items.map some ++ (names.drop items.length).map fun _ => none)
      else .error (.expected "fewer fields")
  | _ => .error (.expected "a record")

def field (reader : Raw → Except Fault α) (missing : Except Fault α) :
    Option Raw → Except Fault α
  | none => missing
  | some tree => reader tree

end Raw

def ofText (text : String) : Except Fault Json := do
  (← Raw.ofText text).json Raw.nestingLimit

end Archetype.Json
