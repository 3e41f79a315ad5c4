import Archetype.Input.Resolver
import Archetype.Template
import Archetype.Walk

/-!
The first pass of a run: every preset, variable and input that the walk reaches is bound. An input
takes an external value before a preset, a preset before what the resolver says, and any of them
before its default; it is resolved at most once.
-/

namespace Archetype

/-- Values that a caller supplies, by path. Of two under one path the first counts. -/
abbrev ValueTable := List (String × Value)

/-- The value under the path by inputs, or else under the full path. -/
def ValueTable.find? (table : ValueTable) (inputPath fullPath : String) : Option Value :=
  table.lookup inputPath <|> table.lookup fullPath

namespace Inputs

variable (externals defaults : ValueTable) (resolver : Resolver ρ)

/-- Consults the resolver, which sees the scope tree but cannot change it. -/
def consult (request : InputRequest) : Visit ρ Resolution := fun (tree, s) => do
  let (result, s) ← resolver request tree s
  return (result, (tree, s))

def presetOf (node : ScopeNode) : Option Value :=
  (node.variants.reverse.find? (·.origin = .preset)).map (·.value)

def bindValid (request : InputRequest) (id : ScopeId) (value : Value) (origin : Origin) :
    Visit σ Unit := do
  Bounded.ofExcept (request.validate value)
  Visit.modifyScope (·.bindAt id value origin)

/-- The default of an input: the caller's, taken as the type of the input, or the declared one. -/
def defaultOf (type : ValueType) (node : Node) (inputPath fullPath : String) :
    Except RunError (Option Value) :=
  match ValueTable.find? defaults inputPath fullPath with
  | some value => (value.coerce type).map some
  | none => .ok node.declaration.default?

/-- Binds the nearest preset of that name around an input that has none of its own. Says whether
the input has one now. -/
def bindPreset (request : InputRequest) (type : ValueType) (id : ScopeId) : Visit σ Bool := do
  let tree ← Visit.scope
  if (tree.node id).hasPreset then return true
  match (tree.findPreset? id request.name).bind fun found => presetOf (tree.node found) with
  | none => return false
  | some preset =>
      bindValid request id (← Bounded.ofExcept (preset.coerce type)) .preset
      return true

/-- Does what the resolver says about an input with that full path. -/
def bindResolved (request : InputRequest) (type : ValueType) (id : ScopeId) (fullPath : String) :
    Visit ρ Unit := do
  match ← consult resolver request with
  | .value value => bindValid request id (← Bounded.ofExcept (value.coerce type)) .user
  | .useDefault =>
      if request.default.isSome then pure () else throw (.unresolvedVariable fullPath)
  | .skip =>
      if request.optional then Visit.modifyScope (·.markSkipped id)
      else throw (.unresolvedVariable fullPath)
  | .unresolved => throw (.unresolvedVariable fullPath)

/-- Resolves the input whose scope is the current one, unless it was visited before. -/
def resolveInput (node : Node) : Visit ρ Unit := do
  let tree ← Visit.scope
  let id := tree.current
  if (tree.node id).visited then return
  Visit.modifyScope (·.markVisited id)
  let type := node.kind.inputType?.getD .string
  let inputPath := tree.inputPath id
  let fullPath := tree.path id
  let default ← Bounded.ofExcept (defaultOf defaults type node inputPath fullPath)
  let request := InputRequest.ofNode node inputPath default
  match default with
  | some value => bindValid request id value .default
  | none => pure ()
  let hasPreset ← bindPreset request type id
  match ValueTable.find? externals inputPath fullPath with
  | some value => bindValid request id (← Bounded.ofExcept (value.coerce type)) .external
  | none => if hasPreset then pure () else bindResolved resolver request type id fullPath

def bindDeclared (origin : Origin) (name : String) (value : Value) : Visit σ Unit := do
  let tree ← Visit.scope
  let value ← Bounded.ofExcept (value.interpolate tree.lookup)
  let (id, tree) := tree.declare name
  Visit.setScope (tree.bindAt id value origin)

def visitor : Visitor ρ where
  enter node :=
    if node.kind.isInput then resolveInput externals defaults resolver node
    else
      match node.kind, node.name?, node.declaration.value? with
      | .preset, some name, some value => bindDeclared .preset name value
      | .var, some name, some value => bindDeclared .default name value
      | _, _, _ => pure ()

end Inputs

def resolveInputs (externals defaults : ValueTable) (resolver : Resolver ρ) (library : Library)
    (limit : Nat) (root : Node) : Visit ρ Unit := do
  walk (Inputs.visitor externals defaults resolver) library limit [] root
  Bounded.ofExcept (← Visit.scope).requireResolved

end Archetype
