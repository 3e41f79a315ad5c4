import Archetype.Expression.Parser
import Archetype.Script.Error
import Archetype.Script.Node

/-!
Building nodes. A declaration with its children becomes a node if its attributes are known and of
the right type, the required ones are there, its children may stand below it, and the expression
of a condition parses. The checks come in that order. Every node built gets a number of its own,
larger than those before.
-/

namespace Archetype

/-- Work that builds nodes: it takes the next free number and gives it back, or fails. -/
abbrev Fresh (ε : Type) := StateT NodeId (Except ε)

def NodeId.next (id : NodeId) : NodeId := ⟨id.number + 1⟩

namespace Declaration

/-- The type an attribute must have on a node of some kind; `some none` if any value will do. -/
def attributeType? (kind : NodeKind) (name : String) : Option (Option ValueType) :=
  if name ∈ ["name", "label", "help", "expression", "src", "target"] then some (some .string)
  else if name ∈ ["optional", "transient", "template"] then some (some .boolean)
  else if name = "order" then some (some .int)
  else if name = "default" then some kind.inputType?
  else if name = "value" then some (if kind = .option then some .string else none)
  else none

def checkAttribute (kind : NodeKind) (name : String) (value : Value) : Except NodeError Unit :=
  match attributeType? kind name with
  | none => .error (.unknownAttribute kind name)
  | some none => .ok ()
  | some (some type) =>
      if value.type = type ∧ ¬ value.isNull then .ok ()
      else .error (.invalidAttribute kind name (.ofType type) value)

def checkAttributes (d : Declaration) : Except NodeError Unit :=
  d.attributes.entries.forM fun (name, value) => checkAttribute d.kind name value

/-- The attributes a node must have. A binding has both a name and a value or neither. -/
def required (d : Declaration) : List String :=
  match d.kind with
  | .step | .method | .invokeCall => ["name"]
  | .inputText | .inputBoolean | .inputEnum | .inputList => ["name"]
  | .option | .modelValue => ["value"]
  | .condition => ["expression"]
  | .invokeSource => ["src"]
  | .output => ["src", "target"]
  | .preset | .var =>
      if d.attributes.contains "name" then ["value"]
      else if d.attributes.contains "value" then ["name"]
      else []
  | .script | .modelList | .modelMap => []

def checkRequired (d : Declaration) : Except NodeError Unit :=
  d.required.forM fun name =>
    if d.attributes.contains name then .ok () else .error (.missingAttribute d.kind name)

/-- The values that a default chooses among the options: one, or each item of a list. -/
def chosen : Value → List Value
  | .list items => items.map .string
  | value => [value]

def checkDefault (d : Declaration) (children : List Node) : Except NodeError Unit :=
  if d.kind.takesOptions then
    let options := (children.filter (·.kind = .option)).filterMap (·.declaration.value?)
    match ((d.default?.map chosen).getD []).find? (· ∉ options) with
    | none => .ok ()
    | some unknown => .error (.invalidAttribute d.kind "default" .declaredOption unknown)
  else .ok ()

def needsName (kind : NodeKind) (child : Declaration) : Bool :=
  kind ≠ .modelList && kind ≠ .condition && child.kind.isModel && child.name?.isNone

def childFault? (d child : Declaration) : Option ChildFault :=
  if child.kind = .script then some .scriptBelowRoot
  else if child.kind = .option then
    if d.kind.takesOptions then none else some .optionOutsideInput
  else
    match d.kind with
    | .option | .invokeCall | .invokeSource | .modelValue | .output => some .childless
    | .preset | .var =>
        if d.attributes.contains "name" then some .bindingWithChildren
        else if child.kind ≠ d.kind ∨ child.isContainer then some .foreignBinding
        else none
    | kind =>
        if (kind = .modelList ∨ kind = .modelMap) ∧ ¬ child.kind.isModel ∧ child.kind ≠ .condition
        then some .foreignToModel
        else if needsName kind child then some .unnamedEntry
        else none

def checkChildren (d : Declaration) (children : List Node) : Except NodeError Unit :=
  if d.kind.takesOptions ∧ ¬ children.any (·.kind = .option) then
    .error (.invalidChild d.kind .option .optionRequired)
  else
    children.forM fun child =>
      match d.childFault? child.declaration with
      | some fault => .error (.invalidChild d.kind child.kind fault)
      | none => .ok ()

/-- The parsed expression of a condition; other nodes have none. -/
def parseExpression (d : Declaration) : Except NodeError (Option Expression) :=
  match d.kind, d.attributes.get? "expression" with
  | .condition, some (.string source) =>
      match Expression.parse source with
      | .ok e => .ok (some e)
      | .error fault => .error (.invalidExpression d.kind fault)
  | _, _ => .ok none

def check (d : Declaration) (children : List Node) : Except NodeError (Option Expression) := do
  d.checkAttributes
  d.checkRequired
  d.checkDefault children
  d.checkChildren children
  d.parseExpression

def build (d : Declaration) (children : List Node) : Fresh NodeError Node := fun id =>
  (d.check children).map fun expression => (⟨id, d, expression, children⟩, id.next)

end Declaration

def Node.withChildren (node : Node) (children : List Node) : Fresh NodeError Node :=
  node.declaration.build children

end Archetype
