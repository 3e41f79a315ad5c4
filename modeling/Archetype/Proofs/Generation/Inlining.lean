import Archetype.Proofs.Flatten.SplicedSites
import Archetype.Proofs.Flatten.SplicedWalk
import Archetype.Proofs.Generation.Endings
import Archetype.Proofs.Generation.Flattening
import Archetype.Proofs.Scope.Retracing

/-!
Runs over a script that is flattened with inlining and without. A body that takes the place of its
invocation brings its scopes one level nearer to the scopes around. Where these dissolve without a
trace in what the scripts look up, both runs give the same answers.
-/

namespace Archetype

def CompileOptions.inlining : CompileOptions := { obfuscate := false, inlineSingleUse := true }

/-- Flattening a script with inlining gives a tree of which pruning removed nothing. -/
structure InlinesTo (library : Library) (script : Script) (next : NodeId) (compiled : Node) :
    Prop where
  compiles : ∃ next', compile .inlining (fun _ => true) library script next = .ok (compiled, next')
  kept : ∃ table children between next',
    CallTable.ofScript library (fun _ => true) false script = .ok table ∧
    Rebuild.script table (fun _ => true) true script next = .ok (children, between) ∧
    script.root.declaration.build children between = .ok (compiled, next')
  /-- The calls have construction numbers of their own. -/
  ids : ((Node.invocations compiled.children).map (·.id)).Nodup

theorem InlinesTo.of_alive {library : Library} {script : Script} {compiled : Node}
    {next between after after' : NodeId} {table : CallTable} {children : List Node}
    (scanned : CallTable.ofScript library (fun _ => true) false script = .ok table)
    (rebuilt : Rebuild.script table (fun _ => true) true script next = .ok (children, between))
    (built : script.root.declaration.build children between = .ok (compiled, after))
    (alive : Prune.node compiled.liveMethods compiled after = .ok (none, after'))
    (ids : ((Node.invocations compiled.children).map (·.id)).Nodup) :
    InlinesTo library script next compiled where
  compiles := ⟨after', compile_eq_ok.2
    ⟨table, children, between, scanned, rebuilt, finishTree_of_alive rfl built alive⟩⟩
  kept := ⟨table, children, between, after, scanned, rebuilt, built⟩
  ids := ids

/-- The frames of the invocations that inlining leaves no call of. -/
def inlinedFrames (library : Library) (script : Script) (scripts : List Script) (compiled : Node) :
    List String :=
  match CallTable.ofScript library (fun _ => true) false script with
  | .error _ => []
  | .ok table =>
      table.dissolvedFrames library (script :: scripts) (compiled.methods.filterMap (·.name?))

/-! What scripts look up. -/

def Node.paths (node : Node) : List String :=
  (node.expression.map (·.paths)).getD [] ++ node.templates.flatMap Template.paths

def NameUses.ofScripts (scripts : List Script) (tables : List ValueTable) : NameUses :=
  let nodes := scripts.flatMap (·.root.preorder)
  { lookedUp := (nodes.flatMap (·.paths)).flatMap ScopePath.names
    asked := (nodes.filter (·.kind.isInput)).map fun node => node.name?.getD ""
    declared := (nodes.filter (·.kind = .var)).filterMap (·.name?)
    supplied := tables.flatten.map (·.1) }

/-- What is asked of scripts so that bodies may take the place of their invocations. -/
structure Inlinable (script : Script) (scripts : List Script) : Prop where
  /-- The scripts have roots of their own kind. -/
  roots : ∀ s ∈ scripts, s.root.kind = .script
  /-- No path that is looked up leads up. -/
  downward : ∀ s ∈ script :: scripts, ∀ node ∈ s.root.preorder, ∀ path ∈ node.paths,
    ScopePath.Downward path
  /-- What counts as binding nothing declares no variable in the scope that it is walked in. -/
  binding : ∀ s ∈ script :: scripts, ∀ node ∈ s.root.preorder, node.bindsNothing = true →
    node.declares = false

theorem ScopePath.mem_names {path name : String} (member : .name name ∈ segments path) :
    name ∈ names path :=
  List.mem_filterMap.2 ⟨.name name, member, rfl⟩

namespace Inlinable

variable {script : Script} {scripts : List Script} {tables : List ValueTable}

theorem goesBy (inlinable : Inlinable script scripts) {s : Script} (known : s ∈ script :: scripts)
    {node : Node} (member : node ∈ s.root.preorder) :
    node.GoesBy (.ofScripts (script :: scripts) tables) := by
  have among : node ∈ (script :: scripts).flatMap (·.root.preorder) :=
    List.mem_flatMap.2 ⟨s, known, member⟩
  have leads : ∀ path ∈ node.paths,
      (NameUses.ofScripts (script :: scripts) tables).Leads path := fun path inside =>
    { downward := inlinable.downward s known node member path inside
      used := fun name named => List.mem_flatMap.2
        ⟨path, List.mem_flatMap.2 ⟨node, among, inside⟩, ScopePath.mem_names named⟩ }
  constructor
  case condition =>
    intro e parsed path inside
    refine leads path (List.mem_append_left _ ?_)
    rw [parsed]
    exact inside
  case templates =>
    intro template there path inside
    exact leads path (List.mem_append_right _ (List.mem_flatMap.2 ⟨template, there, inside⟩))
  case asked =>
    intro input
    exact List.mem_map.2 ⟨node, List.mem_filter.2 ⟨among, input⟩, rfl⟩
  case declared =>
    intro kind name named
    exact List.mem_filterMap.2 ⟨node, List.mem_filter.2 ⟨among, by simpa using kind⟩, named⟩

theorem anyDeclares_of_inlinable (inlinable : Inlinable script scripts) {body : SharedBody}
    {callee : Callee} (drawn : Drawn (script :: scripts) callee body.script body.nodes)
    (inlines : body.isInlinable = true) : Node.anyDeclares body.nodes = false := by
  refine Node.anyDeclares_eq_false.2 fun node member => ?_
  refine inlinable.binding body.script drawn.known node ?_ (List.all_eq_true.1 inlines node member)
  exact Node.mem_preorder.2 (.inr (drawn.preorderAll_subset (Node.subset_preorderAll _ member)))

end Inlinable

namespace Flattenable

variable {script : Script} {scripts : List Script} {table : CallTable}

theorem regular_table (flattenable : Flattenable script scripts)
    (inlinable : Inlinable script scripts) {library : Library}
    (sound : table.Sound library (script :: scripts) script) : table.Regular where
  nodes body member node inside := by
    have drawn := sound.drawn body member
    exact flattenable.orderly.regular _ drawn.known _ (drawn.preorderAll_subset inside)
  optionless body member := by
    refine (sound.drawn body member).optionless ?_ fun s known node => flattenable.regular known
    exact List.forall_mem_cons.2 ⟨flattenable.root, inlinable.roots⟩

end Flattenable

namespace InlinesTo

variable {script : Script} {scripts : List Script} {next : NodeId} {compiled : Node}

/-- A walk of the script comes to the same as the walk of the tree it is flattened into, without the
frames that went. -/
theorem exists_collapsing_walk (flattenable : Flattenable script scripts)
    (inlinable : Inlinable script scripts)
    (inlines : InlinesTo (.ofScripts scripts) script next compiled) (tables : List ValueTable) :
    ∃ δ : Dissolving,
      δ.gone = (Dissolving.ofFrames
        (inlinedFrames (.ofScripts scripts) script scripts compiled)).gone ∧
      ∀ {σ : Type} {visitor : Visitor σ},
        visitor.Collapses δ (.ofScripts (script :: scripts) tables) → visitor.Idles → ∀ limit,
          Visit.Collapses δ (.ofScripts (script :: scripts) tables) (ScopeTree.Inside "")
            (walk visitor (.ofScripts scripts) limit [] script.root)
            (walk visitor (.ofScripts scripts) limit [] compiled) := by
  obtain ⟨table, children, between, next', scanned, rebuilt, built⟩ := inlines.kept
  obtain ⟨declaration, rfl, check⟩ := Declaration.build_eq_ok built
  have known : script ∈ script :: scripts := List.mem_cons_self ..
  have own : script.root ∈ script.root.preorder := Node.mem_preorder.2 (.inl rfl)
  have sound := CallTable.sound_of_ofScript flattenable.atHand known scanned
  obtain ⟨done, surveyed⟩ := CallTable.exists_surveyed scanned
  have bodies := flattenable.regular_table inlinable sound
  have drawn : Drawn (script :: scripts) (.script script.identity) script script.root.body :=
    .script known
  obtain ⟨sites, gives, δ, methods, body, splice, spliced, children, declared, gone⟩ :=
    Rebuild.exists_splice flattenable.ids known sound surveyed bodies
      (fun node inside => flattenable.orderly.regular script known _
        (drawn.preorderAll_subset inside))
      (fun body member => inlinable.anyDeclares_of_inlinable (sound.drawn body member)) rebuilt
      inlines.ids
  refine ⟨δ, by rw [gone, inlinedFrames, scanned], fun {σ visitor} collapses idles limit => ?_⟩
  have here : script.root.Regular := flattenable.regular known own
  have same := FlattensTo.twin flattenable declaration check
  have role : script.root.role = .block none := by
    simp only [Node.role, flattenable.root, NodeKind.frame?]
  have stays : δ.gone "" = false := δ.stays (by simp)
  unfold walk
  rw [Walk.node_eq, Walk.node_eq, same.role_eq]
  simp only [role]
  refine Walk.collapses_around same here.toPlain (inlinable.goesBy known own) collapses
    (fun _ => stays) ?_
  rw [children, Walk.nodes_append, Walk.nodes_of_declarations declared, pure_bind]
  exact splice.collapses_bodies flattenable.atHand flattenable.orderly sound idles bodies
    (fun s known node member => inlinable.goesBy known (Node.mem_preorder.2 (.inr member)))
    collapses limit limit (Nat.le_refl limit) known
    (Methods.covers_declare (flattenable.methods script known) []) (List.Subset.refl _)
    (Node.undeclaring_of_stays stays) spliced.of_body

end InlinesTo

/-! Runs. -/

structure Report.SameAnswers (report report' : Report) : Prop where
  inputValues : report'.inputValues = report.inputValues
  model : report'.model = report.model
  outputs : report'.outputs = report.outputs

/-- Two runs that both fail, or that both succeed with the same answers and leave the resolver and
the renderer in the same states. -/
inductive SameRuns : Except ε Report × α → Except ε Report × α → Prop
  | failed : SameRuns (.error error, states) (.error error', states')
  | succeeded (same : report.SameAnswers report') :
      SameRuns (.ok report, states) (.ok report', states)

theorem SameRuns.mapError {ε δ : Type} {first second : Except ε Report × α}
    (f : ε → δ) (same : SameRuns first second) :
    SameRuns (first.1.mapError f, first.2) (second.1.mapError f, second.2) := by
  cases same with
  | failed => exact .failed
  | succeeded same => exact .succeeded same

theorem ScopeTree.Collapsed.inputValues {δ : Dissolving} {a b : ScopeTree}
    (collapsed : Collapsed δ a b) {root root' : Node} {model : Model} {outputs : List OutputFile} :
    Report.inputValues { root := root', scope := b, model, outputs } =
      Report.inputValues { root, scope := a, model, outputs } := by
  unfold Report.inputValues
  simp only
  rw [collapsed.size, ← map_rank_staying, List.filterMap_map, staying, List.filterMap_filter]
  refine congrArg Table.ofList (List.filterMap_congr fun id member => ?_)
  have inside := List.mem_range.1 member
  simp only [Function.comp_apply]
  split
  · next stays =>
      have stands := collapsed.node id inside stays
      rw [stands.frame, stands.value?_eq, collapsed.inputPath inside]
  · next gone =>
      -- A scope that goes is that of an invocation.
      rw [if_neg fun input => gone (collapsed.stays_of_frame (by simp [input]))]

namespace Generator

variable {generator : Generator} {resolver : Resolver ρ} {renderer : Renderer τ} {limit : Nat}

/-- The scopes that the passes over a tree leave, also where they fail. -/
def scopeLeft (generator : Generator) (resolver : Resolver ρ) (limit : Nat) (root : Node)
    (resolving : ρ) : Option ScopeTree := do
  let (resolved, (scope, _)) ←
    resolveInputs generator.externals generator.defaults resolver generator.library limit root
      ({}, resolving)
  match resolved with
  | .error _ => return scope
  | .ok () =>
      match ← assembleModel generator.library limit root scope with
      | (.error _, scope) => return scope
      | (.ok _, scope) => return (← collectOutputs generator.library limit root scope).2

theorem Ends.scopeLeft {root : Node} {resolving : ρ} {rendering : τ} {left : ScopeTree}
    {outcome : Except RunError Report × ρ × τ}
    (ends : Ends generator resolver renderer limit root resolving rendering left outcome) :
    generator.scopeLeft resolver limit root resolving = some left := by
  unfold Generator.scopeLeft
  cases ends with
  | unresolved resolves => simp [resolves]
  | unassembled resolves assembles => simp [resolves, assembles]
  | unplanned resolves assembles collects => simp [resolves, assembles, collects]
  | unrendered resolves assembles collects => simp [resolves, assembles, collects]
  | rendered resolves assembles collects => simp [resolves, assembles, collects]

inductive CollapsedPass (δ : Dissolving) :
    Except RunError α × ScopeTree → Option (Except RunError α × ScopeTree) → Prop
  | error : CollapsedPass δ (.error error, a) (some (.error error', b))
  | ok (collapsed : ScopeTree.Collapsed δ a b) :
      CollapsedPass δ (.ok value, a) (some (.ok value, b))

namespace CollapsedPass

variable {δ : Dissolving} {a : ScopeTree} {second : Option (Except RunError α × ScopeTree)}

theorem exists_error {error : RunError} (pass : CollapsedPass δ (.error error, a) second) :
    ∃ error' b, second = some (.error error', b) := by
  cases pass
  exact ⟨_, _, rfl⟩

theorem exists_ok {value : α} (pass : CollapsedPass δ (.ok value, a) second) :
    ∃ b, ScopeTree.Collapsed δ a b ∧ second = some (.ok value, b) := by
  cases pass with
  | ok collapsed => exact ⟨_, collapsed, rfl⟩

end CollapsedPass

section Pass

/-! A later pass gives what its visitor has gathered, and the scopes. -/

variable {δ : Dissolving} {uses : NameUses} {work work' : Visit σ Unit} {a b left : ScopeTree}
  {result : Except RunError α} {s : σ} (gather : σ → α)
  (ends : (do let (result, (tree, s)) ← work (a, s); return (result.map fun _ => gather s, tree)) =
    some (result, left))
include ends

theorem extends_of_pass (extending : Visit.Extending work) (wf : a.WellFormed) :
    a.Extends left := by
  obtain ⟨_, works, same⟩ := Option.bind_eq_some_iff.1 ends
  cases same
  exact extending works wf

theorem collapsed_pass (collapses : Visit.Collapses δ uses (ScopeTree.Inside "") work work')
    (collapsed : ScopeTree.Collapsed δ a b) (top : a.Inside "")
    (dissolves : left.Dissolves δ uses) :
    CollapsedPass δ (result, left)
      (do let (result, (tree, s)) ← work' (b, s); return (result.map fun _ => gather s, tree)) := by
  obtain ⟨⟨worked, tree, s'⟩, works, same⟩ := Option.bind_eq_some_iff.1 ends
  cases same
  have met := collapses.meets a b s collapsed top works dissolves
  generalize work' (b, s) = second at met ⊢
  cases met with
  | error => exact .error
  | ok collapsed => exact .ok collapsed

end Pass

section Passes

/-! The passes over a tree with frames and over the tree without those that went. -/

variable {δ : Dissolving} {uses : NameUses} {root root' : Node}
  (inputs : Visit.Collapses δ uses (ScopeTree.Inside "")
    (resolveInputs generator.externals generator.defaults resolver generator.library limit root)
    (resolveInputs generator.externals generator.defaults resolver generator.library limit root'))
  (model : Visit.Collapses δ uses (ScopeTree.Inside "")
    (walk Assembly.visitor generator.library limit [] root)
    (walk Assembly.visitor generator.library limit [] root'))
  (outputs : Visit.Collapses δ uses (ScopeTree.Inside "")
    (walk Outputs.visitor generator.library limit [] root)
    (walk Outputs.visitor generator.library limit [] root'))
  {resolving resolving' : ρ} {scope left : ScopeTree}

theorem inside_empty : ScopeTree.Inside "" {} where
  name := rfl
  enclosed := by
    intro around member
    obtain rfl := Nat.le_zero.1 (ScopeTree.le_of_mem_ancestry member)
    decide

include inputs in
theorem collapsed_resolved
    (resolves : resolveInputs generator.externals generator.defaults resolver generator.library
      limit root ({}, resolving) = some (.ok (), left, resolving')) :
    left.WellFormed ∧ left.Inside "" ∧ (left.Dissolves δ uses →
      ∃ b, ScopeTree.Collapsed δ left b ∧
        resolveInputs generator.externals generator.defaults resolver generator.library limit root'
          ({}, resolving) = some (.ok (), b, resolving')) := by
  have grown := inputs.extending resolves .init
  refine ⟨grown.wellFormed, ScopeTree.lasts_inside "" .init grown inside_empty, fun dissolves => ?_⟩
  have met := inputs.meets {} {} resolving .init inside_empty resolves dissolves
  generalize resolveInputs generator.externals generator.defaults resolver generator.library limit
    root' ({}, resolving) = second at met ⊢
  cases met with
  | ok collapsed => exact ⟨_, collapsed, rfl⟩

include model in
theorem collapsed_assembly (wf : scope.WellFormed) (inside : scope.Inside "")
    {result : Except RunError Model}
    (assembles : assembleModel generator.library limit root scope = some (result, left)) :
    scope.Extends left ∧ left.Inside "" ∧ ∀ b, ScopeTree.Collapsed δ scope b →
      left.Dissolves δ uses →
        CollapsedPass δ (result, left) (assembleModel generator.library limit root' b) := by
  have grown := extends_of_pass (fun assembling : Assembling => assembling.model) assembles
    model.extending wf
  exact ⟨grown, ScopeTree.lasts_inside "" wf grown inside, fun _ collapsed dissolves =>
    collapsed_pass (fun assembling : Assembling => assembling.model) assembles model collapsed
      inside dissolves⟩

include inputs model in
theorem collapsed_assembled
    (resolves : resolveInputs generator.externals generator.defaults resolver generator.library
      limit root ({}, resolving) = some (.ok (), scope, resolving'))
    {assembled : Model}
    (assembles : assembleModel generator.library limit root scope = some (.ok assembled, left)) :
    left.WellFormed ∧ left.Inside "" ∧ (left.Dissolves δ uses →
      ∃ b b', resolveInputs generator.externals generator.defaults resolver generator.library limit
          root' ({}, resolving) = some (.ok (), b, resolving') ∧
        ScopeTree.Collapsed δ left b' ∧
        assembleModel generator.library limit root' b = some (.ok assembled, b')) := by
  obtain ⟨wf, inside, resolved⟩ := collapsed_resolved inputs resolves
  obtain ⟨grown, inside', assembly⟩ := collapsed_assembly model wf inside assembles
  refine ⟨grown.wellFormed, inside', fun dissolves => ?_⟩
  obtain ⟨b, collapsed, resolves'⟩ := resolved (dissolves.of_grows grown.grows wf)
  obtain ⟨b', collapsed', assembles'⟩ := (assembly b collapsed dissolves).exists_ok
  exact ⟨b, b', resolves', collapsed', assembles'⟩

include inputs model outputs in
theorem collapsed_plan
    (resolves : resolveInputs generator.externals generator.defaults resolver generator.library
      limit root ({}, resolving) = some (.ok (), scope, resolving'))
    {assembled : Model} {scope' : ScopeTree} {result : Except RunError (List OutputFile)}
    (assembles : assembleModel generator.library limit root scope = some (.ok assembled, scope'))
    (collects : collectOutputs generator.library limit root scope' = some (result, left))
    (dissolves : left.Dissolves δ uses) :
    ∃ b b', resolveInputs generator.externals generator.defaults resolver generator.library limit
        root' ({}, resolving) = some (.ok (), b, resolving') ∧
      assembleModel generator.library limit root' b = some (.ok assembled, b') ∧
      CollapsedPass δ (result, left) (collectOutputs generator.library limit root' b') := by
  obtain ⟨wf, inside, assembly⟩ := collapsed_assembled inputs model resolves assembles
  have grown := extends_of_pass (fun outputs : List OutputFile => outputs) collects
    outputs.extending wf
  obtain ⟨b, b', resolves', collapsed, assembles'⟩ :=
    assembly (dissolves.of_grows grown.grows wf)
  exact ⟨b, b', resolves', assembles', collapsed_pass (fun outputs : List OutputFile => outputs)
    collects outputs collapsed inside dissolves⟩

include inputs model outputs in
/-- The passes over a tree without the frames that went come to the same, if the frames dissolve in
the scopes that are left. -/
theorem same_passes (resolving : ρ) (rendering : τ)
    (dissolves : ∀ tree, generator.scopeLeft resolver limit root resolving = some tree →
      tree.Dissolves δ uses) {outcome : Except RunError Report × ρ × τ}
    (ends : generator.passes resolver renderer limit root resolving rendering = some outcome) :
    ∃ outcome', generator.passes resolver renderer limit root' resolving rendering = some outcome' ∧
      SameRuns outcome outcome' := by
  obtain ⟨left, ends⟩ := exists_ends ends
  have dissolves := dissolves left ends.scopeLeft
  cases ends with
  | unresolved resolves =>
      have met := inputs.meets {} {} resolving .init inside_empty resolves dissolves
      generalize resolves' : resolveInputs generator.externals generator.defaults resolver
        generator.library limit root' ({}, resolving) = second at met
      cases met
      exact ⟨_, (Ends.unresolved resolves').passes, .failed⟩
  | unassembled resolves assembles =>
      obtain ⟨wf, inside, resolved⟩ := collapsed_resolved inputs resolves
      obtain ⟨grown, -, assembly⟩ := collapsed_assembly model wf inside assembles
      obtain ⟨b, collapsed, resolves'⟩ := resolved (dissolves.of_grows grown.grows wf)
      obtain ⟨_, _, assembles'⟩ := (assembly b collapsed dissolves).exists_error
      exact ⟨_, (Ends.unassembled resolves' assembles').passes, .failed⟩
  | unplanned resolves assembles collects =>
      obtain ⟨b, b', resolves', assembles', plan⟩ :=
        collapsed_plan inputs model outputs resolves assembles collects dissolves
      obtain ⟨_, _, collects'⟩ := plan.exists_error
      exact ⟨_, (Ends.unplanned resolves' assembles' collects').passes, .failed⟩
  | unrendered resolves assembles collects renders =>
      obtain ⟨b, b', resolves', assembles', plan⟩ :=
        collapsed_plan inputs model outputs resolves assembles collects dissolves
      obtain ⟨_, -, collects'⟩ := plan.exists_ok
      exact ⟨_, (Ends.unrendered resolves' assembles' collects' renders).passes, .failed⟩
  | rendered resolves assembles collects renders =>
      obtain ⟨b, b', resolves', assembles', plan⟩ :=
        collapsed_plan inputs model outputs resolves assembles collects dissolves
      obtain ⟨_, collapsed, collects'⟩ := plan.exists_ok
      exact ⟨_, (Ends.rendered resolves' assembles' collects' renders).passes,
        .succeeded ⟨collapsed.inputValues, rfl, rfl⟩⟩

end Passes

def inlined (generator : Generator) : Generator :=
  { generator with options := some .inlining, filter := fun _ => true }

theorem tree_inlined {next next' : NodeId} {compiled : Node}
    (compiles : compile .inlining (fun _ => true) generator.library generator.script next =
      .ok (compiled, next')) : generator.inlined.tree next = .ok compiled := by
  simp only [tree, inlined, compiles, Except.map]

section Runs

variable {scripts : List Script} (library : generator.library = .ofScripts scripts)
  (flattenable : Flattenable generator.script scripts)
  (inlinable : Inlinable generator.script scripts) {next : NodeId} {compiled : Node}
  (inlines : InlinesTo generator.library generator.script next compiled)
  (externalKeys : ∀ entry ∈ generator.externals, '#' ∉ entry.1.toList)
  (defaultKeys : ∀ entry ∈ generator.defaults, '#' ∉ entry.1.toList)
  (blind : ∀ request a b s, resolver request a s = resolver request b s)
  (limit : Nat) (resolving : ρ) (rendering : τ)
  (dissolves : ∀ tree,
    generator.scopeLeft resolver limit generator.script.root resolving = some tree →
      tree.Dissolves
        (.ofFrames (inlinedFrames generator.library generator.script scripts compiled))
        (.ofScripts (generator.script :: scripts) [generator.externals, generator.defaults]))
include library flattenable inlinable inlines externalKeys defaultKeys blind dissolves

/-- The run over a script and the run over the tree it is flattened into with inlining. -/
theorem same_run_inlined {outcome : Except GenerationError Report × ρ × τ}
    (ends : generator.interpreted.run resolver renderer limit next resolving rendering =
      some outcome) :
    ∃ outcome', generator.inlined.run resolver renderer limit next resolving rendering =
      some outcome' ∧ SameRuns outcome outcome' := by
  rw [library] at inlines dissolves
  obtain ⟨δ, gone, collapses⟩ := inlines.exists_collapsing_walk flattenable inlinable
    [generator.externals, generator.defaults]
  have supplied : ∀ {table : ValueTable}, table ∈ [generator.externals, generator.defaults] →
      ∀ entry ∈ table, entry.1 ∈ (NameUses.ofScripts (generator.script :: scripts)
        [generator.externals, generator.defaults]).supplied := fun member entry inside =>
    List.mem_map.2 ⟨entry, List.mem_flatten.2 ⟨_, member, inside⟩, rfl⟩
  have inputs := collapses (Inputs.collapses_visitor blind
    (fun entry member => ⟨externalKeys entry member, supplied (by simp) entry member⟩)
    fun entry member => ⟨defaultKeys entry member, supplied (by simp) entry member⟩)
    Inputs.idles_visitor limit
  have complete := Visit.collapses_bind (ScopeTree.lasts_inside "") inputs fun _ =>
    Visit.collapses_scope_bind (Visit.extending_of_looking
      (Visit.looking_bind Visit.looking_scope fun _ => Visit.looking_ofExcept _))
      fun a b s collapsed _ _ => Visit.meets_ofExcept collapsed.requireResolved collapsed
  have model := collapses Assembly.collapses_visitor Assembly.idles_visitor limit
  have outputs := collapses Outputs.collapses_visitor Outputs.idles_visitor limit
  rw [← library] at complete model outputs
  obtain ⟨⟨result, states⟩, passes, same⟩ := Option.bind_eq_some_iff.1 ends
  cases same
  obtain ⟨⟨result', states'⟩, passes', same⟩ := @same_passes _ _ generator resolver renderer limit
    _ _ _ _ complete model outputs resolving rendering
    (fun tree left => (dissolves tree left).of_gone gone) _ passes
  obtain ⟨next', compiles⟩ := inlines.compiles
  rw [← library] at compiles
  have tree := tree_inlined compiles
  refine ⟨(result'.mapError .run, states'), ?_, same.mapError GenerationError.run⟩
  rw [run, tree]
  exact Option.bind_eq_some_iff.2 ⟨_, passes', rfl⟩

/-- Inlining is unobservable where it dissolves frames without a trace. A run over the tree without
inlining that ends within a limit does so over the tree with inlining. Both succeed or both fail; on
success they give the same input values, the same model and the same plan, and leave the resolver
and the renderer in the same states. -/
theorem inlining_keeps_answers {plain : Node}
    (flattens : FlattensTo generator.library generator.script next plain)
    {outcome : Except GenerationError Report × ρ × τ}
    (ends : generator.flattened.run resolver renderer limit next resolving rendering =
      some outcome) :
    ∃ outcome', generator.inlined.run resolver renderer limit next resolving rendering =
      some outcome' ∧ SameRuns outcome outcome' := by
  have agreeing := @agreeing_runs _ _ generator resolver renderer _ library flattenable _ _ flattens
    externalKeys defaultKeys blind limit resolving rendering
  have inlined := @same_run_inlined _ _ generator resolver renderer _ library flattenable inlinable
    _ _ inlines externalKeys defaultKeys blind limit resolving rendering dissolves
  rw [ends] at agreeing
  generalize generator.interpreted.run resolver renderer limit next resolving rendering = source
    at agreeing inlined
  cases agreeing with
  | failed =>
      obtain ⟨outcome', ends', same⟩ := inlined rfl
      cases same
      exact ⟨_, ends', .failed⟩
  | succeeded agrees =>
      obtain ⟨outcome', ends', same⟩ := inlined rfl
      cases same with
      | succeeded same =>
          exact ⟨_, ends', .succeeded ⟨same.inputValues.trans agrees.inputValues.symm,
            same.model.trans agrees.model.symm, same.outputs.trans agrees.outputs.symm⟩⟩

end Runs

/-! A run of a script of one step. -/

def steppedScript : Script where
  identity := "b"
  root :=
    { id := ⟨5⟩
      declaration := { kind := .script }
      expression := none
      children :=
        [{ id := ⟨4⟩
           declaration := { kind := .step, attributes := .ofList [("name", .string "s")] }
           expression := none
           children :=
             [leaf 1 .inputText [("name", .string "y"), ("default", .string "d")],
               leaf 2 .var [("name", .string "x"), ("value", .string "1")]] }] }

def stepping : Generator := { sourcing with library := .ofScripts [steppedScript] }

theorem flattenable_stepping : Flattenable stepping.script [steppedScript] :=
  .of_pair rfl (by decide +kernel) (by decide +kernel) (by decide +kernel) (by decide +kernel)
    (by decide +kernel) (by decide +kernel)

theorem inlinable_stepping : Inlinable stepping.script [steppedScript] where
  roots := by decide +kernel
  downward := by decide +kernel
  binding := by decide +kernel

def dissolvesIn (compiled : Node) : Bool :=
  (stepping.scopeLeft .batch 5 stepping.script.root ()).all fun tree => tree.Dissolves
    (.ofFrames (inlinedFrames stepping.library stepping.script [steppedScript] compiled))
    (.ofScripts [stepping.script, steppedScript] [stepping.externals, stepping.defaults])

theorem exists_inlinesTo_stepping : ∃ compiled,
    InlinesTo stepping.library stepping.script ⟨20⟩ compiled ∧ compiled.methods = [] ∧
      dissolvesIn compiled := by
  have evaluated : (CallTable.ofScript stepping.library (fun _ => true) false
      stepping.script).toOption.any fun table =>
        (Rebuild.script table (fun _ => true) true stepping.script ⟨20⟩).toOption.any fun rebuilt =>
          (stepping.script.root.declaration.build rebuilt.1 rebuilt.2).toOption.any fun pair =>
            (Prune.node pair.1.liveMethods pair.1 pair.2).toOption.any (·.1.isNone) &&
              decide ((Node.invocations pair.1.children).map (·.id)).Nodup &&
                pair.1.methods.isEmpty && dissolvesIn pair.1 := by
    decide +kernel
  obtain ⟨table, scanned, evaluated⟩ := Stateful.exists_ok_of_any evaluated
  obtain ⟨⟨children, between⟩, rebuilt, evaluated⟩ := Stateful.exists_ok_of_any evaluated
  obtain ⟨⟨compiled, after⟩, built, evaluated⟩ := Stateful.exists_ok_of_any evaluated
  simp only [Bool.and_eq_true, decide_eq_true_eq, List.isEmpty_iff] at evaluated
  obtain ⟨⟨⟨alive, ids⟩, inlined⟩, dissolves⟩ := evaluated
  obtain ⟨⟨pruned, after'⟩, alive, none⟩ := Stateful.exists_ok_of_any alive
  obtain rfl := Option.isNone_iff_eq_none.1 none
  exact ⟨compiled, .of_alive scanned rebuilt built alive ids, inlined, dissolves⟩

/-- The step of the one script takes the place of its invocation, and the other script finds what it
binds as before. -/
theorem inlining_keeps_answers_of_step : ∃ compiled report report',
    stepping.inlined.tree ⟨20⟩ = .ok compiled ∧ compiled.methods = [] ∧
      unattended stepping.flattened = some (.ok report, (), ()) ∧
      unattended stepping.inlined = some (.ok report', (), ()) ∧ report.SameAnswers report' := by
  obtain ⟨plain, flattens⟩ : ∃ plain, FlattensTo stepping.library stepping.script ⟨20⟩ plain :=
    FlattensTo.exists_of_unpruned (by decide +kernel)
  obtain ⟨compiled, inlines, none, dissolves⟩ := exists_inlinesTo_stepping
  have ends : (unattended stepping.flattened).any (·.1.toOption.isSome) := by decide +kernel
  cases outcome : unattended stepping.flattened with
  | none => simp [outcome] at ends
  | some pair =>
      obtain ⟨result, states⟩ := pair
      obtain ⟨outcome', ends', same⟩ := @inlining_keeps_answers _ _ stepping .batch
        (fun _ _ => pure ()) _ rfl flattenable_stepping inlinable_stepping _ _ inlines
        (by simp [stepping, sourcing]) (by simp [stepping, sourcing]) (fun _ _ _ _ => rfl) 5 () ()
        (fun tree left => by simpa [dissolvesIn, left] using dissolves) _ flattens _ outcome
      cases same with
      | failed => simp [outcome, Except.toOption] at ends
      | @succeeded report states report' same =>
          obtain ⟨next', compiles⟩ := inlines.compiles
          exact ⟨compiled, report, report', by rw [tree_inlined compiles], none, rfl, ends', same⟩

end Generator

end Archetype
