import Archetype.Generation.Run
import Archetype.Proofs.Walk.Outcome

/-!
How the passes of a run end. A pass that fails ends the run, and each goes on with the scopes that
the one before it left; the rendering comes last.
-/

namespace Archetype

/-! The walk of a pass that succeeds. -/

theorem walk_of_resolveInputs {externals defaults : ValueTable} {resolver : Resolver ρ}
    {library : Library} {limit : Nat} {root : Node} {c c' : ScopeTree × ρ}
    (resolves : resolveInputs externals defaults resolver library limit root c =
      some (.ok (), c')) :
    walk (Inputs.visitor externals defaults resolver) library limit [] root c =
      some (.ok (), c') := by
  obtain ⟨_, _, walks, rest⟩ := Visit.gives_bind.1 resolves
  obtain ⟨_, _, scope, complete⟩ := Visit.gives_bind.1 rest
  obtain ⟨rfl, rfl⟩ := Visit.gives_scope.1 scope
  obtain ⟨-, rfl⟩ := Visit.gives_ofExcept.1 complete
  exact walks

/-- A later pass gives what its visitor has gathered, and the scopes. -/
theorem gathered_of_ok {work : Visit σ Unit} (gather : σ → α) {s : σ} {tree tree' : ScopeTree}
    {value : α}
    (ends : (do
      let (result, (tree, s)) ← work (tree, s)
      return (result.map fun _ => gather s, tree)) = some (.ok value, tree')) :
    ∃ s', work (tree, s) = some (.ok (), tree', s') ∧ gather s' = value := by
  obtain ⟨⟨result, tree'', s'⟩, works, same⟩ := Option.bind_eq_some_iff.1 ends
  cases result with
  | error error => simp [Except.map] at same
  | ok =>
      cases same
      exact ⟨s', works, rfl⟩

theorem walk_of_assembleModel {library : Library} {limit : Nat} {root : Node}
    {tree tree' : ScopeTree} {model : Model}
    (assembles : assembleModel library limit root tree = some (.ok model, tree')) :
    ∃ assembling, walk Assembly.visitor library limit [] root (tree, {}) =
      some (.ok (), tree', assembling) := by
  obtain ⟨assembling, walks, -⟩ :=
    gathered_of_ok (fun assembling : Assembling => assembling.model) assembles
  exact ⟨assembling, walks⟩

theorem walk_of_collectOutputs {library : Library} {limit : Nat} {root : Node}
    {tree tree' : ScopeTree} {outputs : List OutputFile}
    (collects : collectOutputs library limit root tree = some (.ok outputs, tree')) :
    walk Outputs.visitor library limit [] root (tree, []) = some (.ok (), tree', outputs) := by
  obtain ⟨_, walks, same⟩ := gathered_of_ok (fun outputs => outputs) collects
  rw [walks, same]

namespace Generator

/-- The passes over a tree end with the outcome and leave the scopes. -/
inductive Ends (generator : Generator) (resolver : Resolver ρ) (renderer : Renderer τ) (limit : Nat)
    (root : Node) (resolving : ρ) (rendering : τ) :
    ScopeTree → Except RunError Report × ρ × τ → Prop
  | unresolved
      (resolves : resolveInputs generator.externals generator.defaults resolver generator.library
        limit root ({}, resolving) = some (.error error, left, resolving')) :
      Ends generator resolver renderer limit root resolving rendering left
        (.error error, resolving', rendering)
  | unassembled
      (resolves : resolveInputs generator.externals generator.defaults resolver generator.library
        limit root ({}, resolving) = some (.ok (), scope, resolving'))
      (assembles : assembleModel generator.library limit root scope = some (.error error, left)) :
      Ends generator resolver renderer limit root resolving rendering left
        (.error error, resolving', rendering)
  | unplanned
      (resolves : resolveInputs generator.externals generator.defaults resolver generator.library
        limit root ({}, resolving) = some (.ok (), scope, resolving'))
      (assembles : assembleModel generator.library limit root scope = some (.ok model, scope'))
      (collects : collectOutputs generator.library limit root scope' = some (.error error, left)) :
      Ends generator resolver renderer limit root resolving rendering left
        (.error error, resolving', rendering)
  | unrendered
      (resolves : resolveInputs generator.externals generator.defaults resolver generator.library
        limit root ({}, resolving) = some (.ok (), scope, resolving'))
      (assembles : assembleModel generator.library limit root scope = some (.ok model, scope'))
      (collects : collectOutputs generator.library limit root scope' = some (.ok outputs, left))
      (renders : renderer model.sort outputs rendering = (.error error, rendering')) :
      Ends generator resolver renderer limit root resolving rendering left
        (.error error, resolving', rendering')
  | rendered
      (resolves : resolveInputs generator.externals generator.defaults resolver generator.library
        limit root ({}, resolving) = some (.ok (), scope, resolving'))
      (assembles : assembleModel generator.library limit root scope = some (.ok model, scope'))
      (collects : collectOutputs generator.library limit root scope' = some (.ok outputs, left))
      (renders : renderer model.sort outputs rendering = (.ok (), rendering')) :
      Ends generator resolver renderer limit root resolving rendering left
        (.ok { root, scope := left, model := model.sort, outputs }, resolving', rendering')

variable {generator : Generator} {resolver : Resolver ρ} {renderer : Renderer τ} {limit : Nat}
  {root : Node} {resolving : ρ} {rendering : τ} {outcome : Except RunError Report × ρ × τ}

theorem exists_ends
    (ends : generator.passes resolver renderer limit root resolving rendering = some outcome) :
    ∃ left, Ends generator resolver renderer limit root resolving rendering left outcome := by
  obtain ⟨⟨resolved, scope, resolving'⟩, resolves, ends⟩ := Option.bind_eq_some_iff.1 ends
  cases resolved with
  | error error =>
      cases ends
      exact ⟨_, .unresolved resolves⟩
  | ok _ =>
      obtain ⟨⟨assembled, scope'⟩, assembles, ends⟩ := Option.bind_eq_some_iff.1 ends
      cases assembled with
      | error error =>
          cases ends
          exact ⟨_, .unassembled resolves assembles⟩
      | ok model =>
          obtain ⟨⟨planned, left⟩, collects, ends⟩ := Option.bind_eq_some_iff.1 ends
          cases planned with
          | error error =>
              cases ends
              exact ⟨_, .unplanned resolves assembles collects⟩
          | ok outputs =>
              rcases renders : renderer model.sort outputs rendering with ⟨rendered, rendering'⟩
              simp only [renders] at ends
              cases rendered with
              | error error =>
                  cases ends
                  exact ⟨_, .unrendered resolves assembles collects renders⟩
              | ok _ =>
                  cases ends
                  exact ⟨_, .rendered resolves assembles collects renders⟩

theorem Ends.passes {left : ScopeTree}
    (ends : Ends generator resolver renderer limit root resolving rendering left outcome) :
    generator.passes resolver renderer limit root resolving rendering = some outcome := by
  unfold Generator.passes
  cases ends with
  | unresolved resolves => simp [resolves]
  | unassembled resolves assembles => simp [resolves, assembles]
  | unplanned resolves assembles collects => simp [resolves, assembles, collects]
  | unrendered resolves assembles collects renders =>
      simp [resolves, assembles, collects, renders, Except.map]
  | rendered resolves assembles collects renders =>
      simp [resolves, assembles, collects, renders, Except.map]

end Generator

end Archetype
