import Archetype.Proofs.Generation.Endings
import Archetype.Proofs.Generation.Visitors
import Archetype.Proofs.Walk.Linked

/-!
The three passes of a run side by side. Each decides every condition anew, over the scopes that the
passes before it left behind. They enter the same nodes in the same scopes exactly if no condition
has changed its mind by the end of input resolution.
-/

namespace Archetype

open Visit (Gives)

namespace Generator

variable {generator : Generator} {resolver : Resolver ρ} {renderer : Renderer τ} {root : Node}
  {resolving : ρ}

/-- Traces of the three passes, each over the scopes that the one before it left behind; the scopes
after input resolution and after the last pass. -/
def Traced (generator : Generator) (resolver : Resolver ρ) (root : Node) (resolving : ρ)
    (inputs model outputs : List Event) (resolved final : ScopeTree) : Prop :=
  ∃ resolving' assembled assembling plan,
    Walked (Inputs.visitor generator.externals generator.defaults resolver) generator.library
      (Methods.declare [] root) [root] ({}, resolving) inputs (resolved, resolving') ∧
    Walked Assembly.visitor generator.library (Methods.declare [] root) [root]
      (resolved, {}) model (assembled, assembling) ∧
    Walked Outputs.visitor generator.library (Methods.declare [] root) [root]
      (assembled, []) outputs (final, plan)

/-- Every condition that a pass decided is decided alike over later scopes. -/
def DecidedAlike (trace : List Event) (later : ScopeTree) : Prop :=
  ∀ node tree truth, .decided node tree truth ∈ trace →
    node.holdsIn ⟨later.nodes, tree.frames⟩ = .ok truth

/-! The passes of a run that succeeds. -/

theorem exists_walks {limit : Nat} {rendering : τ} {report : Report} {states : ρ × τ}
    (succeeds : generator.passes resolver renderer limit root resolving rendering =
      some (.ok report, states)) :
    ∃ resolved resolving' assembled assembling plan,
      Gives (walk (Inputs.visitor generator.externals generator.defaults resolver)
        generator.library limit [] root) ({}, resolving) () (resolved, resolving') ∧
      Gives (walk Assembly.visitor generator.library limit [] root) (resolved, {}) ()
        (assembled, assembling) ∧
      Gives (walk Outputs.visitor generator.library limit [] root) (assembled, []) ()
        (report.scope, plan) := by
  obtain ⟨left, ends⟩ := exists_ends succeeds
  cases ends with
  | rendered resolves assembles collects =>
      obtain ⟨assembling, second⟩ := walk_of_assembleModel assembles
      exact ⟨_, _, _, _, _, walk_of_resolveInputs resolves, second, walk_of_collectOutputs collects⟩

theorem exists_traced {limit : Nat} {rendering : τ} {report : Report} {states : ρ × τ}
    (succeeds : generator.passes resolver renderer limit root resolving rendering =
      some (.ok report, states)) :
    ∃ inputs model outputs resolved,
      generator.Traced resolver root resolving inputs model outputs resolved report.scope := by
  obtain ⟨resolved, resolving', assembled, assembling, plan, first, second, third⟩ :=
    exists_walks succeeds
  obtain ⟨inputs, first⟩ := exists_walked first
  obtain ⟨model, second⟩ := exists_walked second
  obtain ⟨outputs, third⟩ := exists_walked third
  exact ⟨inputs, model, outputs, resolved, _, _, _, _, first, second, third⟩

/-! A later pass against the first. -/

variable {inputs later : List Event} {resolved : ScopeTree} {visitor : Visitor σ}
  {reader : Visitor α} {library : Library} {s s' : σ} {d d' : ScopeTree × α}

/-- A later pass that starts from the scopes of the first enters the same nodes in the same scopes
if the conditions are decided alike, and only then; it has changed no scope in the end. -/
theorem entries_eq_iff (extending : visitor.Extends) (reads : reader.Reads)
    (first : Walked visitor library (Methods.declare [] root) [root] ({}, s) inputs (resolved, s'))
    (again : Walked reader library (Methods.declare [] root) [root] d later d')
    (start : d.1 = resolved) :
    (entries inputs = entries later ↔ DecidedAlike inputs resolved) ∧
      (DecidedAlike inputs resolved → d'.1 = resolved) := by
  have frames : resolved.frames = [] := (first.extends extending .init).frames
  have settled : (⟨resolved.nodes, []⟩ : ScopeTree) = resolved := frames ▸ rfl
  have linked := first.linked extending (Methods.declared_of_root root)
  have linked' := again.linked reads.extends (Methods.declared_of_root root)
  rcases first.compare extending reads .init (.refl resolved) (start.trans settled.symm) again with
    ⟨alike, finish⟩ | split
  · have decided : DecidedAlike inputs resolved := fun _ _ _ decision => alike.holdsIn decision
    exact ⟨⟨fun _ => decided, fun _ => alike.entries_eq⟩, fun _ => finish.trans settled⟩
  · have differ := split.entries_ne linked linked'
    have undecided : ¬DecidedAlike inputs resolved := by
      intro decided
      obtain ⟨start, start', node, tree, truth, rest, rest', -, rfl, rfl⟩ := split.exists_split
      have holds := decided node tree truth (by simp)
      obtain ⟨-, holds', -⟩ := linked'.after_decided
      rw [holds] at holds'
      cases truth <;> cases holds'
    exact ⟨⟨fun same => absurd same differ, fun decided => absurd decided undecided⟩,
      fun decided => absurd decided undecided⟩

/-- A run that succeeds walks its tree three times. The three passes enter the same sequence of
nodes, each in the same scope, if and only if every condition that input resolution decides is
decided alike over the scopes that input resolution leaves behind. -/
theorem passes_enter_alike_iff {limit : Nat} {rendering : τ} {report : Report} {states : ρ × τ}
    (succeeds : generator.passes resolver renderer limit root resolving rendering =
      some (.ok report, states)) :
    (∃ inputs model outputs resolved,
      generator.Traced resolver root resolving inputs model outputs resolved report.scope) ∧
    ∀ inputs model outputs resolved final,
      generator.Traced resolver root resolving inputs model outputs resolved final →
        (entries inputs = entries model ∧ entries model = entries outputs ↔
          DecidedAlike inputs resolved) := by
  refine ⟨exists_traced succeeds, ?_⟩
  rintro inputs model outputs resolved final
    ⟨resolving', assembled, assembling, plan, first, second, third⟩
  obtain ⟨sameModel, settled⟩ :=
    entries_eq_iff Inputs.visitor_extends Assembly.visitor_reads first second rfl
  constructor
  · rintro ⟨same, -⟩
    exact sameModel.1 same
  · intro decided
    obtain ⟨sameOutputs, -⟩ :=
      entries_eq_iff Inputs.visitor_extends Outputs.visitor_reads first third (settled decided)
    have same := sameModel.2 decided
    exact ⟨same, same.symm.trans (sameOutputs.2 decided)⟩

/-! A condition that changes its mind. -/

def bindingNode (id : UInt64) (name value : String) : Node where
  id := ⟨id⟩
  declaration :=
    { kind := .var, attributes := .ofList [("name", .string name), ("value", .string value)] }
  expression := none
  children := []

def inputNode : Node where
  id := ⟨3⟩
  declaration :=
    { kind := .inputText, attributes := .ofList [("name", .string "y"), ("default", .string "d")] }
  expression := none
  children := []

def conditionNode : Node where
  id := ⟨2⟩
  declaration :=
    { kind := .condition, attributes := .ofList [("expression", .string "$\x7bx\x7d == '1'")] }
  expression := some (.compare .equal (.var "x") (.literal (.string "1")))
  children := [inputNode]

/-- A script that binds a variable, reads it in a condition and binds it again. -/
def rebinding (again : String) : Generator where
  script := .ofRoot
    { id := ⟨5⟩
      declaration := { kind := .script }
      expression := none
      children := [bindingNode 1 "x" "1", conditionNode, bindingNode 4 "x" again] }

def rebound (again : String) : Option (Except RunError Report × Unit × Unit) :=
  (rebinding again).passes .batch (fun _ _ => pure ()) 1 (rebinding again).script.root () ()

theorem exists_rebound (again : String)
    (ends : (rebound again).map (fun outcome => outcome.1.toOption.isSome) = some true) :
    ∃ report states, rebound again = some (.ok report, states) := by
  cases outcome : rebound again with
  | none => simp [outcome] at ends
  | some pair =>
      obtain ⟨result, states⟩ := pair
      cases result with
      | error error => simp [outcome, Except.toOption] at ends
      | ok report => exact ⟨report, states, rfl⟩

def onceBound : ScopeTree where
  nodes :=
    #[{ children := [1], index := [("x", 1)] },
      { name := "x"
        parent := some 0
        frame := .value
        variants := [⟨.default, .string "1"⟩]
        inEffect := some 0 }]

/-- Input resolution decides one condition, which holds then. -/
theorem decided_rebound {again : String} {inputs : List Event} {c : ScopeTree × Unit}
    (walked : Walked (Inputs.visitor [] [] .batch) .empty
      (Methods.declare [] (rebinding again).script.root) [(rebinding again).script.root]
      ({}, ()) inputs c) :
    .decided conditionNode onceBound true ∈ inputs ∧
      ∀ node tree truth, .decided node tree truth ∈ inputs →
        node = conditionNode ∧ tree = onceBound ∧ truth = true := by
  have root : (rebinding again).script.root.role = .block none := rfl
  have binding : ∀ id value, (bindingNode id "x" value).role = .block none := fun _ _ => rfl
  have condition : conditionNode.role = .condition := rfl
  have input : inputNode.role = .block (some ("y", .input)) := rfl
  have bound : Gives ((Inputs.visitor [] [] Resolver.batch).enter (bindingNode 1 "x" "1"))
      ({}, ()) () (onceBound, ()) := by
    unfold Gives
    decide +kernel
  have holds : conditionNode.holdsIn onceBound = .ok true := by decide +kernel
  obtain ⟨_, _, _, _, _, rfl, enter, below, _, rest⟩ := walked.of_block root
  obtain ⟨rfl, -⟩ := rest.of_nil
  cases enter
  obtain ⟨_, _, _, _, _, rfl, enter, below, leave, rest⟩ := below.of_block (binding 1 "1")
  obtain ⟨rfl, rfl⟩ := below.of_nil
  cases enter.symm.trans bound
  cases leave
  rcases rest.of_condition condition with
    ⟨_, fails, _⟩ | ⟨_, _, _, _, _, _, rfl, _, taken, _, after⟩
  · cases fails.symm.trans holds
  · obtain ⟨_, _, _, _, _, rfl, _, belowInput, _, restInput⟩ := taken.of_block input
    obtain ⟨rfl, -⟩ := belowInput.of_nil
    obtain ⟨rfl, -⟩ := restInput.of_nil
    obtain ⟨_, _, _, _, _, rfl, _, belowAgain, _, restAgain⟩ := after.of_block (binding 4 again)
    obtain ⟨rfl, -⟩ := belowAgain.of_nil
    obtain ⟨rfl, -⟩ := restAgain.of_nil
    constructor
    · simp [ScopeTree.closed, onceBound]
    · intro node tree truth decision
      simpa [ScopeTree.closed, onceBound] using decision

theorem holdsIn_of_gives {work : Visit σ Unit} {c c' : ScopeTree × σ} {node : Node} {truth : Bool}
    (gives : Gives work c () c')
    (holds : (work c).map (fun outcome => node.holdsIn ⟨outcome.2.1.nodes, []⟩) =
      some (.ok truth)) :
    node.holdsIn ⟨c'.1.nodes, []⟩ = .ok truth := by
  rw [show work c = some (.ok (), c') from gives] at holds
  exact Option.some.inj holds

/-- Bound to what it was, the variable leaves the passes alike. -/
theorem passes_enter_alike_of_same_binding : ∃ report states inputs model outputs resolved,
    rebound "1" = some (.ok report, states) ∧
    (rebinding "1").Traced .batch (rebinding "1").script.root () inputs model outputs resolved
      report.scope ∧
    entries inputs = entries model ∧ entries model = entries outputs := by
  obtain ⟨report, states, succeeds⟩ := exists_rebound "1" (by decide +kernel)
  obtain ⟨resolved, _, _, _, _, first, second, third⟩ := exists_walks succeeds
  have holds : conditionNode.holdsIn ⟨resolved.nodes, []⟩ = .ok true :=
    holdsIn_of_gives first (by decide +kernel)
  obtain ⟨inputs, first⟩ := exists_walked first
  obtain ⟨model, second⟩ := exists_walked second
  obtain ⟨outputs, third⟩ := exists_walked third
  have traced : (rebinding "1").Traced .batch (rebinding "1").script.root () inputs model outputs
      resolved report.scope := ⟨_, _, _, _, first, second, third⟩
  have decided : DecidedAlike inputs resolved := by
    intro node tree truth decision
    obtain ⟨rfl, rfl, rfl⟩ := (decided_rebound first).2 _ _ _ decision
    exact holds
  exact ⟨report, states, inputs, model, outputs, resolved, succeeds, traced,
    ((passes_enter_alike_iff succeeds).2 _ _ _ _ _ traced).2 decided⟩

/-- Bound to something else, the variable leaves a node out of the later passes. -/
theorem passes_differ_of_other_binding : ∃ report states inputs model outputs resolved,
    rebound "2" = some (.ok report, states) ∧
    (rebinding "2").Traced .batch (rebinding "2").script.root () inputs model outputs resolved
      report.scope ∧
    entries inputs ≠ entries model := by
  obtain ⟨report, states, succeeds⟩ := exists_rebound "2" (by decide +kernel)
  obtain ⟨resolved, _, _, _, _, first, second, third⟩ := exists_walks succeeds
  have fails : conditionNode.holdsIn ⟨resolved.nodes, []⟩ = .ok false :=
    holdsIn_of_gives first (by decide +kernel)
  obtain ⟨inputs, first⟩ := exists_walked first
  obtain ⟨model, second⟩ := exists_walked second
  obtain ⟨outputs, third⟩ := exists_walked third
  refine ⟨report, states, inputs, model, outputs, resolved, succeeds,
    ⟨_, _, _, _, first, second, third⟩, fun same => ?_⟩
  have alike := (entries_eq_iff Inputs.visitor_extends Assembly.visitor_reads first second rfl).1
  have holds := alike.1 same _ _ _ (decided_rebound first).1
  cases fails.symm.trans holds

end Generator

end Archetype
