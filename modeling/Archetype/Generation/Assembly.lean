import Archetype.Model.Merge
import Archetype.Template
import Archetype.Walk

/-!
The second pass of a run: the model is assembled from model nodes, variables and inputs. Model
nodes inside a list or map become its items or entries; everything else goes into the root of the
model.
-/

namespace Archetype

/-- A list or map that was entered and not yet left, with the key and order it will get. -/
structure Pending where
  key : Option String
  order : Int64
  content : Fragment

/-- The model so far, and the lists and maps around the current node, the innermost first. -/
structure Assembling where
  model : Model := .empty
  pending : List Pending := []

/-- Adds an entry to a fragment: an item to a list, or an entry to a map if it has a key. -/
def Fragment.add (whole : Fragment) (key : Option String) (order : Int64) (part : Fragment) :
    Fragment :=
  match whole with
  | .list items => .list (items ++ [⟨order, part⟩])
  | .map m =>
      match key with
      | some key => .map (m.put key order part)
      | none => .map m
  | .value v => .value v

namespace Assembling

/-- Adds a fragment to the innermost pending list or map, or else to the model. An entry without a
key counts in a list only. -/
def add (assembling : Assembling) (key : Option String) (order : Int64) (part : Fragment) :
    Assembling :=
  match assembling.pending with
  | innermost :: rest =>
      { assembling with
        pending := { innermost with content := innermost.content.add key order part } :: rest }
  | [] =>
      match key with
      | some key => { assembling with model := assembling.model.put key order part }
      | none => assembling

def begin (assembling : Assembling) (node : Node) (content : Fragment) : Assembling :=
  { assembling with
    pending := ⟨node.name?, node.declaration.order, content⟩ :: assembling.pending }

def finish (assembling : Assembling) : Assembling :=
  match assembling.pending with
  | [] => assembling
  | innermost :: rest =>
      { assembling with pending := rest }.add innermost.key innermost.order innermost.content

def insertValue (assembling : Assembling) (key : String) (order : Int64) (v : Value) :
    Assembling :=
  { assembling with model := assembling.model.insertValue key order v }

end Assembling

namespace Assembly

def update (f : Assembling → Assembling) : Visit Assembling Unit := do
  Visit.setState (f (← Visit.state))

def variableValue? (tree : ScopeTree) (name : String) : Option Value :=
  (tree.child? tree.current name).bind fun id => (tree.node id).value?

/-- Enters what a binding or an input is worth under a key of the root, unless it is transient or
worth nothing. -/
def enterRoot (node : Node) (key : String) (value : Option Value) : Visit Assembling Unit :=
  match value with
  | some v =>
      if node.declaration.isTransient then pure ()
      else update (·.insertValue key node.declaration.order v)
  | none => pure ()

def enterValue (node : Node) : Visit Assembling Unit := do
  match node.declaration.value? with
  | none => pure ()
  | some value =>
      let v ← Bounded.ofExcept (value.interpolate (← Visit.scope).lookup)
      update (·.add node.name? node.declaration.order (.value v))

def visitor : Visitor Assembling where
  enter node := do
    match node.kind with
    | .modelMap => update (·.begin node (.map .empty))
    | .modelList => update (·.begin node (.list []))
    | .modelValue => enterValue node
    | .var =>
        match node.name? with
        | some name => enterRoot node name (variableValue? (← Visit.scope) name)
        | none => pure ()
    | kind =>
        if kind.isInput then
          let tree ← Visit.scope
          enterRoot node (tree.inputPath tree.current) (tree.node tree.current).value?
        else pure ()
  leave node :=
    match node.kind with
    | .modelMap | .modelList => update (·.finish)
    | _ => pure ()

end Assembly

/-- Assembles the model of a walk, not yet sorted. -/
def assembleModel (library : Library) (limit : Nat) (root : Node) (tree : ScopeTree) :
    Option (Except RunError Model × ScopeTree) := do
  let (result, (tree, assembling)) ← walk Assembly.visitor library limit [] root (tree, {})
  return (result.map fun _ => assembling.model, tree)

end Archetype
