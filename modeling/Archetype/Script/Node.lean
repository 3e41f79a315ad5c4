import Archetype.Expression.Basic
import Archetype.Script.Attributes
import Archetype.Script.Kind
import Archetype.Text.Integer

/-!
Script nodes. A node is a declaration (kind, attributes and source location) with children, a
construction number and, for a condition, its parsed expression. Two nodes are the same if their
kinds, attributes and children are, whatever their numbers and locations.
-/

namespace Archetype

structure Location where
  file : String
  line : UInt32
  deriving DecidableEq

/-- The place of a node in the order of construction. -/
structure NodeId where
  number : UInt64
  deriving DecidableEq

structure Declaration where
  kind : NodeKind
  attributes : Attributes := .empty
  location : Option Location := none
  deriving DecidableEq

structure Node where
  id : NodeId
  declaration : Declaration
  expression : Option Expression
  children : List Node

def defaultOrder : Int64 := 100

def Location.text (location : Location) : String :=
  location.file ++ ":" ++ toString location.line.toNat

def NodeId.text (id : NodeId) : String :=
  toString id.number.toNat

namespace Declaration

def name? (d : Declaration) : Option String := d.attributes.string? "name"
def label? (d : Declaration) : Option String := d.attributes.string? "label"
def help? (d : Declaration) : Option String := d.attributes.string? "help"
def src? (d : Declaration) : Option String := d.attributes.string? "src"
def target? (d : Declaration) : Option String := d.attributes.string? "target"
def default? (d : Declaration) : Option Value := d.attributes.get? "default"
def value? (d : Declaration) : Option Value := d.attributes.get? "value"
def isOptional (d : Declaration) : Bool := d.attributes.isTrue "optional"
def isTransient (d : Declaration) : Bool := d.attributes.isTrue "transient"
def isTemplate (d : Declaration) : Bool := d.attributes.isTrue "template"

def order (d : Declaration) : Int64 :=
  match d.attributes.get? "order" with
  | some (.int i) => i
  | _ => defaultOrder

/-- Presets and variables without a name group bindings of their kind. -/
def isContainer (d : Declaration) : Bool :=
  d.kind.isBinding && d.name?.isNone

def describe (d : Declaration) : String :=
  let name := match d.name? <|> d.src? with
    | some name => " '" ++ name ++ "'"
    | none => ""
  let place := match d.location with
    | some location => " at " ++ location.text
    | none => ""
  d.kind.label ++ name ++ place

end Declaration

namespace Node

abbrev kind (node : Node) : NodeKind := node.declaration.kind
abbrev attributes (node : Node) : Attributes := node.declaration.attributes
abbrev location (node : Node) : Option Location := node.declaration.location
abbrev name? (node : Node) : Option String := node.declaration.name?

def options (node : Node) : List Node :=
  node.children.filter (·.kind = .option)

def methods (node : Node) : List Node :=
  node.children.filter (·.kind = .method)

/-- The children that are walked, all but the methods. -/
def body (node : Node) : List Node :=
  node.children.filter (·.kind ≠ .method)

def isPrunableIfEmpty (node : Node) : Bool :=
  node.kind.prunableIfEmpty && node.children.isEmpty &&
    match node.kind with
    | .preset | .var => node.declaration.isContainer
    | .invokeSource | .invokeCall => false
    | _ => true

mutual
/-- Equality of kinds, attributes and children. -/
def same : Node → Node → Bool
  | ⟨_, d, _, children⟩, ⟨_, d', _, children'⟩ =>
      d.kind = d'.kind && d.attributes = d'.attributes && sameAll children children'

def sameAll : List Node → List Node → Bool
  | [], [] => true
  | node :: rest, node' :: rest' => node.same node' && sameAll rest rest'
  | _, _ => false
end

mutual
/-- The node and everything below it, each node before its children. -/
def preorder : Node → List Node
  | ⟨id, d, e, children⟩ => ⟨id, d, e, children⟩ :: preorderAll children

def preorderAll : List Node → List Node
  | [] => []
  | node :: rest => node.preorder ++ preorderAll rest
end

end Node

end Archetype
