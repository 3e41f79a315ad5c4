/-!
The primitives of the artifact format. Numbers below 251 take one byte; larger ones a marker byte
and two, four or eight bytes, the lowest first. Signed numbers are interleaved: zero, minus one,
one, minus two and so on. Texts and lists carry their length in front.
-/

namespace Archetype.Artifact

inductive Fault where
  | truncated
  | invalidMarker (byte : UInt8)
  | unknownVariant (number : Nat)
  | notText
  | outOfRange
  deriving DecidableEq

def Fault.message : Fault → String
  | .truncated => "the bytes end early"
  | .invalidMarker byte => "invalid byte " ++ toString byte.toNat
  | .unknownVariant number => "unknown variant " ++ toString number
  | .notText => "invalid text"
  | .outOfRange => "number out of range"

abbrev Decoder := StateT (List UInt8) (Except Fault)

def littleEndian : Nat → Nat → List UInt8
  | 0, _ => []
  | width + 1, n => (n % 256).toUInt8 :: littleEndian width (n / 256)

def encodeNat (n : Nat) : List UInt8 :=
  if n < 251 then [n.toUInt8]
  else if n < UInt16.size then 251 :: littleEndian 2 n
  else if n < UInt32.size then 252 :: littleEndian 4 n
  else 253 :: littleEndian 8 n

def decodeByte : Decoder UInt8 := fun bytes =>
  match bytes with
  | [] => .error .truncated
  | byte :: rest => .ok (byte, rest)

def decodeLittleEndian : Nat → Decoder Nat
  | 0 => pure 0
  | width + 1 => do
      let byte ← decodeByte
      let rest ← decodeLittleEndian width
      return byte.toNat + 256 * rest

/-- A number of at most so many bytes, four or eight. -/
def decodeNat (width : Nat) : Decoder Nat := do
  let byte ← decodeByte
  if byte < 251 then return byte.toNat
  else if byte = 251 then decodeLittleEndian 2
  else if byte = 252 then decodeLittleEndian 4
  else if byte = 253 && width = 8 then decodeLittleEndian 8
  else throw (.invalidMarker byte)

/-- The place of an integer in the order zero, minus one, one, minus two and so on. -/
def interleave : Int → Nat
  | .ofNat n => 2 * n
  | .negSucc n => 2 * n + 1

def deinterleave (n : Nat) : Int :=
  if n % 2 = 0 then .ofNat (n / 2) else .negSucc (n / 2)

def encodeBool (b : Bool) : List UInt8 :=
  [if b then 1 else 0]

def decodeBool : Decoder Bool := do
  let byte ← decodeByte
  if byte = 0 then return false
  else if byte = 1 then return true
  else throw (.invalidMarker byte)

def encodeText (s : String) : List UInt8 :=
  let bytes := s.toUTF8.toList
  encodeNat bytes.length ++ bytes

def decodeBytes (n : Nat) : Decoder (List UInt8) := fun bytes =>
  if n ≤ bytes.length then .ok (bytes.take n, bytes.drop n) else .error .truncated

def decodeText : Decoder String := do
  let bytes ← decodeBytes (← decodeNat 8)
  match String.fromUTF8? ⟨bytes.toArray⟩ with
  | some s => return s
  | none => throw .notText

def encodeOption (encode : α → List UInt8) : Option α → List UInt8
  | none => encodeBool false
  | some a => encodeBool true ++ encode a

def decodeOption (decode : Decoder α) : Decoder (Option α) := do
  if ← decodeBool then return some (← decode) else return none

def encodeList (encode : α → List UInt8) (items : List α) : List UInt8 :=
  encodeNat items.length ++ items.flatMap encode

def decodeMany (decode : Decoder α) : Nat → Decoder (List α)
  | 0 => return []
  | n + 1 => do
      let item ← decode
      let rest ← decodeMany decode n
      return item :: rest

def decodeList (decode : Decoder α) : Decoder (List α) := do
  decodeMany decode (← decodeNat 8)

end Archetype.Artifact
