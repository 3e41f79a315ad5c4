import Archetype.Expression.Error
import Archetype.Json.Basic
import Archetype.Script.Kind
import Archetype.Value.Text

/-!
Why a node cannot be built, and why a document is not a script.
-/

namespace Archetype

inductive ExpectedValue where
  | ofType (type : ValueType)
  | declaredOption
  deriving DecidableEq

def ExpectedValue.describe : ExpectedValue → String
  | .ofType type => type.name
  | .declaredOption => "one of the declared options"

/-- Why a node may not stand below another. -/
inductive ChildFault where
  | optionRequired
  | scriptBelowRoot
  | optionOutsideInput
  | childless
  | bindingWithChildren
  | foreignBinding
  | foreignToModel
  | unnamedEntry
  deriving DecidableEq

def ChildFault.describe : ChildFault → String
  | .optionRequired => "at least one option is required"
  | .scriptBelowRoot => "scripts can only be roots"
  | .optionOutsideInput => "options belong to enum and list inputs"
  | .childless => "this node cannot have children"
  | .bindingWithChildren => "a binding cannot have children"
  | .foreignBinding => "containers hold bindings of their own kind"
  | .foreignToModel => "models only hold model nodes and conditions"
  | .unnamedEntry => "model entries outside a list need a name"

inductive NodeError where
  | missingAttribute (kind : NodeKind) (name : String)
  | invalidAttribute (kind : NodeKind) (name : String) (expected : ExpectedValue)
      (found : Value)
  | unknownAttribute (kind : NodeKind) (name : String)
  | invalidChild (parent child : NodeKind) (fault : ChildFault)
  | invalidExpression (kind : NodeKind) (fault : ExpressionError)
  deriving DecidableEq

def NodeError.message : NodeError → String
  | .missingAttribute kind name =>
      kind.label ++ " node is missing required attribute '" ++ name ++ "'"
  | .invalidAttribute kind name expected found =>
      kind.label ++ " node has an invalid '" ++ name ++ "' attribute: expected "
        ++ expected.describe ++ ", found '" ++ found.text ++ "'"
  | .unknownAttribute kind name =>
      kind.label ++ " node does not accept attribute '" ++ name ++ "'"
  | .invalidChild parent child fault =>
      parent.label ++ " node cannot contain a " ++ child.label ++ " node: " ++ fault.describe
  | .invalidExpression kind fault =>
      kind.label ++ " node has an invalid expression: " ++ fault.message

/-- The way from the root of a document to one of its nodes: the kind of the root, then for each
step the kind of the child and its position among its siblings. -/
structure Trail where
  root : NodeKind
  steps : List (NodeKind × Nat) := []
  deriving DecidableEq

def Trail.down (trail : Trail) (kind : NodeKind) (position : Nat) : Trail :=
  { trail with steps := trail.steps ++ [(kind, position)] }

def Trail.text (trail : Trail) : String :=
  trail.steps.foldl
    (fun text (kind, position) => text ++ "/" ++ kind.name ++ "[" ++ toString position ++ "]")
    trail.root.name

/-- What is wrong with one node of a document. -/
inductive DocumentFault where
  | unsupportedValue (name : String) (raw : String)
  | invalidNode (error : NodeError)
  deriving DecidableEq

def DocumentFault.message : DocumentFault → String
  | .unsupportedValue name raw => "unsupported value for '" ++ name ++ "': " ++ raw
  | .invalidNode error => error.message

inductive DocumentError where
  | malformed (file : String) (fault : Json.Fault)
  | faultyNode (file : String) (trail : Trail) (fault : DocumentFault)
  deriving DecidableEq

def DocumentError.message : DocumentError → String
  | .malformed file fault =>
      "Invalid script document '" ++ file ++ "' at '<root>': " ++ fault.message
  | .faultyNode file trail fault =>
      "Invalid script document '" ++ file ++ "' at '" ++ trail.text ++ "': " ++ fault.message

end Archetype
