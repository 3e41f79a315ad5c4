import Archetype.Json.Printer
import Archetype.Json.Reading
import Archetype.Script.Builder

/-!
Scripts written as JSON documents. A document node has a kind and may have attributes, children and
a line number; a document becomes a script if every attribute has a value of its own and every node
can be built. The first fault is reported with the way to its node: the attribute values of a node
come before its children, and the node itself comes last.
-/

namespace Archetype

/-- A script: its root node, and the identity it is known under. -/
structure Script where
  identity : String
  root : Node

namespace Script

def name (script : Script) : String :=
  script.root.name?.getD script.identity

/-- A root as a script of its own: its name is its identity. -/
def ofRoot (root : Node) : Script :=
  ⟨root.name?.getD "main", root⟩

end Script

/-- The value that a piece of JSON stands for. There is none for null, for objects, for numbers
that are not 64-bit integers, and for arrays with anything but strings. -/
def Value.ofJson? : Json → Option Value
  | .string s => some (.string s)
  | .bool b => some (.bool b)
  | .number (.int i) => (Text.int64? i).map .int
  | .array items => (items.mapM fun (item : Json) =>
      match item with
      | .string s => some s
      | _ => none).map .list
  | _ => none

structure Document where
  kind : NodeKind
  attributes : List (String × Json)
  children : List Document
  line : Option UInt32

namespace Document

open Json (Raw Fault)

/-- A kind is its name, or an object with null under that name. -/
def readKind (depth : Nat) : Raw → Except Fault NodeKind
  | .object [(some name, .null)] => do
      let _ ← Raw.enter depth
      known name
  | tree => do known (← tree.text)
where
  known (name : String) : Except Fault NodeKind :=
    match NodeKind.ofName? name with
    | some kind => .ok kind
    | none => .error (.expected "a node kind")

def read : Nat → Raw → Except Fault Document
  | 0, _ => .error .tooDeep
  | 1, _ => .error .tooDeep
  | depth + 2, tree => do
      match ← tree.fields ["kind", "attributes", "children", "line"] with
      | [kind, attributes, children, line] => do
          let kind ← Raw.field (readKind (depth + 1)) (.error (.missingField "kind")) kind
          let attributes ← Raw.field (·.table (depth + 1)) (.ok []) attributes
          let children ←
            match children with
            | none => .ok []
            | some (.array items) => do
                let _ ← Raw.enter (depth + 1)
                items.mapM (read depth)
            | some _ => .error (.expected "an array")
          let line ← Raw.field (·.nullable (·.word)) (.ok none) line
          .ok ⟨kind, attributes, children, line⟩
      | _ => .error (.expected "a record")

def ofText (text : String) : Except Fault Document := do
  read Raw.nestingLimit (← Raw.ofText text)

def values (file : String) (trail : Trail) :
    List (String × Json) → Except DocumentError (List (String × Value))
  | [] => .ok []
  | (name, raw) :: rest =>
      match Value.ofJson? raw with
      | none => .error (.faultyNode file trail (.unsupportedValue name raw.compact))
      | some value => (values file trail rest).map ((name, value) :: ·)

mutual
def build (file : String) (trail : Trail) : Document → Fresh DocumentError Node
  | ⟨kind, attributes, children, line⟩ => do
      let values ← values file trail attributes
      let children ← buildAll file trail 0 children
      let declaration : Declaration :=
        { kind, attributes := .ofList values, location := line.map fun line => ⟨file, line⟩ }
      fun id => (declaration.build children id).mapError fun error =>
        .faultyNode file trail (.invalidNode error)

def buildAll (file : String) (trail : Trail) (position : Nat) :
    List Document → Fresh DocumentError (List Node)
  | [] => pure []
  | document :: rest => do
      let node ← document.build file (trail.down document.kind position)
      let nodes ← buildAll file trail (position + 1) rest
      pure (node :: nodes)
end

def toNode (file : String) (document : Document) : Fresh DocumentError Node :=
  document.build file { root := document.kind }

end Document

def Script.ofText (identity text : String) : Fresh DocumentError Script := fun id =>
  match Document.ofText text with
  | .error fault => .error (.malformed identity fault)
  | .ok document =>
      (document.toNode identity id).map fun (root, next) => (⟨identity, root⟩, next)

end Archetype
