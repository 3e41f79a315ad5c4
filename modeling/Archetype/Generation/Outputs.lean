import Archetype.Template
import Archetype.Walk

/-!
The third pass of a run: the output plan, one file for each output node that the walk reaches.
-/

namespace Archetype

/-- A file to produce. A template is rendered with the model, any other source is copied. -/
structure OutputFile where
  src : String
  target : String
  template : Bool
  deriving DecidableEq

namespace Outputs

def visitor : Visitor (List OutputFile) where
  enter node := do
    match node.kind, node.declaration.src?, node.declaration.target? with
    | .output, some src, some target =>
        let target ← Bounded.ofExcept (Template.interpolate (← Visit.scope).lookup target)
        Visit.setState ((← Visit.state) ++ [⟨src, target, node.declaration.isTemplate⟩])
    | _, _, _ => pure ()

end Outputs

def collectOutputs (library : Library) (limit : Nat) (root : Node) (tree : ScopeTree) :
    Option (Except RunError (List OutputFile) × ScopeTree) := do
  let (result, (tree, outputs)) ← walk Outputs.visitor library limit [] root (tree, [])
  return (result.map fun _ => outputs, tree)

end Archetype
