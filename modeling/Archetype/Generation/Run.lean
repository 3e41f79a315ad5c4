import Archetype.Generation.Assembly
import Archetype.Generation.Config
import Archetype.Generation.Outputs
import Archetype.Model.Sort

/-!
A run: the script is compiled if asked, then walked three times over one scope tree. The first walk
resolves inputs, the second assembles the model, which is then sorted, and the third collects the
output plan; model and plan are handed to a renderer.
-/

namespace Archetype

abbrev Renderer (τ : Type) := Model → List OutputFile → ExceptT RunError (StateM τ) Unit

structure Generator where
  script : Script
  library : Library := .empty
  externals : ValueTable := []
  defaults : ValueTable := []
  options : Option CompileOptions := none
  filter : Node → Bool := fun _ => true

structure Report where
  /-- The tree that was walked. -/
  root : Node
  scope : ScopeTree
  model : Model
  outputs : List OutputFile

/-- The value in effect of every bound input, by its path by inputs. Of two inputs with one path the
later counts. -/
def Report.inputValues (report : Report) : Table Value :=
  let bound := (List.range report.scope.size).filterMap fun id =>
    let node := report.scope.node id
    if node.frame = .input then node.value?.map (report.scope.inputPath id, ·) else none
  .ofList bound

namespace Generator

/-- Applies a run configuration: its values come before earlier ones. -/
def configure (generator : Generator) (config : RunConfig) : Except RunError Generator := do
  let externals ← config.externalValues
  let defaults ← config.defaultValues
  return { generator with
    externals := externals ++ generator.externals
    defaults := defaults ++ generator.defaults
    options := config.compile <|> generator.options }

def tree (generator : Generator) (next : NodeId) : Except CompileError Node :=
  match generator.options with
  | none => .ok generator.script.root
  | some options =>
      (compile options generator.filter generator.library generator.script next).map (·.1)

/-- The three passes over a tree, each within the limit, and the rendering. -/
def passes (generator : Generator) (resolver : Resolver ρ) (renderer : Renderer τ) (limit : Nat)
    (root : Node) (resolving : ρ) (rendering : τ) : Option (Except RunError Report × ρ × τ) := do
  let (resolved, (scope, resolving)) ←
    resolveInputs generator.externals generator.defaults resolver generator.library limit root
      ({}, resolving)
  match resolved with
  | .error error => return (.error error, resolving, rendering)
  | .ok () =>
      match ← assembleModel generator.library limit root scope with
      | (.error error, _) => return (.error error, resolving, rendering)
      | (.ok model, scope) =>
          let model := model.sort
          match ← collectOutputs generator.library limit root scope with
          | (.error error, _) => return (.error error, resolving, rendering)
          | (.ok outputs, scope) =>
              let (rendered, rendering) := renderer model outputs rendering
              return (rendered.map fun () => { root, scope, model, outputs }, resolving, rendering)

/-- Runs a script; new nodes are numbered from the given number on. Gives nothing if the limit on
nested invocations, or a bound of the resolver, was too low; a higher one changes nothing else. -/
def run (generator : Generator) (resolver : Resolver ρ) (renderer : Renderer τ) (limit : Nat)
    (next : NodeId) (resolving : ρ) (rendering : τ) :
    Option (Except GenerationError Report × ρ × τ) :=
  match generator.tree next with
  | .error error => some (.error (.compile error), resolving, rendering)
  | .ok root => do
      let (result, states) ← generator.passes resolver renderer limit root resolving rendering
      return (result.mapError .run, states)

end Generator

end Archetype
