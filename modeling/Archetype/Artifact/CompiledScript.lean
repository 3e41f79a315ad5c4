import Archetype.Artifact.Codec
import Archetype.Files.Failure
import Archetype.Script.Node

/-!
Compiled scripts as bytes, for later runs. Decoding takes the tree as it is written, with its
construction numbers and parsed expressions, and does not check it; bytes after the tree do not
count.
-/

namespace Archetype

structure CompiledScript where
  identity : String
  obfuscated : Bool
  root : Node

namespace Artifact

def decodeVariant (variants : List α) : Decoder α := do
  let number ← decodeNat 4
  match variants[number]? with
  | some variant => return variant
  | none => throw (.unknownVariant number)

def encodeKind (kind : NodeKind) : List UInt8 :=
  encodeNat (NodeKind.all.idxOf kind)

def decodeKind : Decoder NodeKind :=
  decodeVariant NodeKind.all

def encodeInt (i : Int64) : List UInt8 :=
  encodeNat (interleave i.toInt)

def decodeInt : Decoder Int64 := do
  return .ofInt (deinterleave (← decodeNat 8))

def encodeValue : Value → List UInt8
  | .null => encodeNat 0
  | .string s => encodeNat 1 ++ encodeText s
  | .bool b => encodeNat 2 ++ encodeBool b
  | .int i => encodeNat 3 ++ encodeInt i
  | .list items => encodeNat 4 ++ encodeList encodeText items

def decodeValue : Decoder Value := do
  match ← decodeNat 4 with
  | 0 => return .null
  | 1 => return .string (← decodeText)
  | 2 => return .bool (← decodeBool)
  | 3 => return .int (← decodeInt)
  | 4 => return .list (← decodeList decodeText)
  | number => throw (.unknownVariant number)

def encodeExpression : Expression → List UInt8
  | .not e => encodeNat 0 ++ encodeExpression e
  | .logic .and l r => encodeNat 1 ++ encodeExpression l ++ encodeExpression r
  | .logic .or l r => encodeNat 2 ++ encodeExpression l ++ encodeExpression r
  | .compare .equal l r => encodeNat 3 ++ encodeExpression l ++ encodeExpression r
  | .compare .notEqual l r => encodeNat 4 ++ encodeExpression l ++ encodeExpression r
  | .compare .contains l r => encodeNat 5 ++ encodeExpression l ++ encodeExpression r
  | .sizeOf e => encodeNat 6 ++ encodeExpression e
  | .literal v => encodeNat 7 ++ encodeValue v
  | .var path => encodeNat 8 ++ encodeText path

def decodeTwo (decode : Decoder Expression) (combine : Expression → Expression → Expression) :
    Decoder Expression := do
  let l ← decode
  let r ← decode
  return combine l r

def decodeExpression : Nat → Decoder Expression
  | 0 => throw .truncated
  | depth + 1 => do
      match ← decodeNat 4 with
      | 0 => return .not (← decodeExpression depth)
      | 1 => decodeTwo (decodeExpression depth) (.logic .and)
      | 2 => decodeTwo (decodeExpression depth) (.logic .or)
      | 3 => decodeTwo (decodeExpression depth) (.compare .equal)
      | 4 => decodeTwo (decodeExpression depth) (.compare .notEqual)
      | 5 => decodeTwo (decodeExpression depth) (.compare .contains)
      | 6 => return .sizeOf (← decodeExpression depth)
      | 7 => return .literal (← decodeValue)
      | 8 => return .var (← decodeText)
      | number => throw (.unknownVariant number)

def encodeAttribute (entry : String × Value) : List UInt8 :=
  encodeText entry.1 ++ encodeValue entry.2

def decodeAttribute : Decoder (String × Value) := do
  let name ← decodeText
  let value ← decodeValue
  return (name, value)

def encodeLocation (location : Location) : List UInt8 :=
  encodeText location.file ++ encodeNat location.line.toNat

def decodeLocation : Decoder Location := do
  let file ← decodeText
  let line ← decodeNat 4
  return ⟨file, line.toUInt32⟩

mutual
def encodeNode : Node → List UInt8
  | ⟨id, d, e, children⟩ =>
      encodeNat id.number.toNat ++ encodeKind d.kind
        ++ encodeList encodeAttribute d.attributes.entries
        ++ encodeNat children.length ++ encodeNodes children
        ++ encodeOption encodeLocation d.location ++ encodeOption encodeExpression e

def encodeNodes : List Node → List UInt8
  | [] => []
  | node :: rest => encodeNode node ++ encodeNodes rest
end

def decodeNode : Nat → Decoder Node
  | 0 => throw .truncated
  | depth + 1 => do
      let id ← decodeNat 8
      let kind ← decodeKind
      let attributes ← decodeList decodeAttribute
      let children ← decodeList (decodeNode depth)
      let location ← decodeOption decodeLocation
      let expression ← decodeOption fun bytes => decodeExpression (bytes.length + 1) bytes
      return ⟨⟨id.toUInt64⟩, ⟨kind, .ofList attributes, location⟩, expression, children⟩

end Artifact

namespace CompiledScript

def toBytes (script : CompiledScript) : List UInt8 :=
  Artifact.encodeText script.identity ++ Artifact.encodeBool script.obfuscated
    ++ Artifact.encodeNode script.root

/-- The compiled script at the front of the bytes. -/
def ofBytes (bytes : List UInt8) : Except Artifact.Fault CompiledScript :=
  let decode : Artifact.Decoder CompiledScript := do
    let identity ← Artifact.decodeText
    let obfuscated ← Artifact.decodeBool
    let root ← Artifact.decodeNode (bytes.length + 1)
    return ⟨identity, obfuscated, root⟩
  (decode bytes).map (·.1)

end CompiledScript

inductive ArtifactError where
  | notCreated (path : String) (failure : FileFailure)
  | notOpened (path : String) (failure : FileFailure)
  | notRead (path : String) (failure : FileFailure)
  | malformed (fault : Artifact.Fault)
  deriving DecidableEq

def ArtifactError.message : ArtifactError → String
  | .notCreated path failure => "Could not create file '" ++ path ++ "': " ++ failure.message
  | .notOpened path failure => "Could not open file '" ++ path ++ "': " ++ failure.message
  | .notRead path failure => "Could not read from file '" ++ path ++ "': " ++ failure.message
  | .malformed fault => "Deserialization failed: " ++ fault.message

/-- Why the file of a compiled script could not be read: a directory can be opened, but not read. -/
def ArtifactError.ofReading (path : String) : FileFailure → ArtifactError
  | .isDirectory => .notRead path .isDirectory
  | failure => .notOpened path failure

end Archetype
