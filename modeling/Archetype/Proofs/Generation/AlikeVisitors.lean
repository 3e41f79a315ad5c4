import Archetype.Generation.Assembly
import Archetype.Generation.Outputs
import Archetype.Proofs.Walk.Alike

/-!
What the visitors of the three passes do at nodes that differ in their numbers and in what is below
them: over renamed scopes they go alike.
-/

namespace Archetype

def Node.templates (node : Node) : List String :=
  match node.kind, node.declaration.value?, node.declaration.target? with
  | .preset, some (.string template), _ => [template]
  | .var, some (.string template), _ => [template]
  | .modelValue, some (.string template), _ => [template]
  | .output, _, some target => [target]
  | _, _, _ => []

/-- A node without a number sign in its name or in a path that it looks up. -/
structure Node.Plain (node : Node) : Prop where
  name : ∀ name, node.name? = some name → '#' ∉ name.toList
  condition : ∀ e, node.expression = some e → ∀ path ∈ e.paths, '#' ∉ path.toList
  templates : ∀ template ∈ node.templates, ∀ path ∈ Template.paths template, '#' ∉ path.toList

instance (node : Node) : Decidable node.Plain :=
  decidable_of_iff
    ((∀ name ∈ node.name?, '#' ∉ name.toList) ∧
      (∀ e ∈ node.expression, ∀ path ∈ e.paths, '#' ∉ path.toList) ∧
      ∀ template ∈ node.templates, ∀ path ∈ Template.paths template, '#' ∉ path.toList)
    ⟨fun ⟨name, condition, templates⟩ => ⟨name, condition, templates⟩,
      fun ⟨name, condition, templates⟩ => ⟨name, condition, templates⟩⟩

structure Node.Twin (node twin : Node) : Prop where
  declaration : twin.declaration = node.declaration
  expression : twin.expression = node.expression
  options : twin.options.map InputOption.ofNode = node.options.map InputOption.ofNode

theorem Node.Plain.getD_name? {node : Node} (plain : node.Plain) :
    '#' ∉ (node.name?.getD "").toList := by
  cases named : node.name? with
  | none => simp
  | some name => exact plain.name name named

theorem Node.Twin.request_eq {node twin : Node} (same : node.Twin twin) (path : String)
    (default : Option Value) :
    InputRequest.ofNode twin path default = InputRequest.ofNode node path default := by
  simp only [InputRequest.ofNode, same.options, Node.kind, Node.name?, same.declaration]

structure Visitor.Respects (ρ : Renaming) (visitor : Visitor σ) : Prop where
  enter : ∀ {node twin : Node}, node.Twin twin → node.Plain →
    Visit.Alike ρ (visitor.enter node) (visitor.enter twin)
  leave : ∀ {node twin : Node}, node.Twin twin → node.Plain →
    Visit.Alike ρ (visitor.leave node) (visitor.leave twin)

def NodeKind.isIdle : NodeKind → Bool
  | .condition | .invokeSource | .invokeCall | .method => true
  | _ => false

/-- A visitor that does nothing at conditions, invocations and methods. -/
structure Visitor.Idles (visitor : Visitor σ) : Prop where
  enter : ∀ {node : Node}, node.kind.isIdle → visitor.enter node = pure ()
  leave : ∀ {node : Node}, node.kind.isIdle → visitor.leave node = pure ()

open Visit

variable {ρ : Renaming}

theorem Value.interpolate_alike {a b : ScopeTree} (renamed : ScopeTree.Renamed ρ a b)
    {value : Value}
    (plain : ∀ template, value = .string template →
      ∀ path ∈ Template.paths template, '#' ∉ path.toList) :
    (value.interpolate b.lookup).toOption = (value.interpolate a.lookup).toOption := by
  cases value with
  | string template =>
      simp only [Value.interpolate, toOption_map, renamed.interpolate (plain template rfl)]
  | _ => rfl

theorem Visit.alike_setScope {a b : ScopeTree} (renamed : ScopeTree.Renamed ρ a b) :
    Alike ρ (setScope a : Visit σ Unit) (setScope b) :=
  fun _ _ _ _ => .ok renamed

namespace Inputs

variable {externals defaults : ValueTable} {resolver : Resolver τ}

theorem alike_consult (request : InputRequest)
    (blind : ∀ request a b s, resolver request a s = resolver request b s) :
    Alike ρ (consult resolver request) (consult resolver request) := by
  intro a b s renamed
  have unfolded : ∀ tree, consult resolver request (tree, s) =
      (resolver request tree s).bind fun pair => some (pair.1, (tree, pair.2)) := fun _ => rfl
  rw [unfolded, unfolded, blind request b a]
  cases resolver request a s with
  | none => exact .outOfBounds
  | some pair =>
      obtain ⟨result, s'⟩ := pair
      cases result with
      | error error => exact .error
      | ok value => exact .ok renamed

theorem alike_bindValid (request : InputRequest) (id : ScopeId) (value : Value)
    (origin : Origin) :
    Alike ρ (bindValid request id value origin : Visit σ Unit)
      (bindValid request id value origin) :=
  alike_bind (alike_ofExcept rfl) fun _ =>
    alike_modifyScope fun _ _ renamed => renamed.bindAt id value origin

theorem alike_bindPreset {request : InputRequest} (plain : '#' ∉ request.name.toList)
    (type : ValueType) (id : ScopeId) :
    Alike ρ (bindPreset request type id : Visit σ Bool) (bindPreset request type id) := by
  unfold bindPreset
  refine alike_scope_bind fun a b s renamed => ?_
  have found : b.findPreset? id request.name = a.findPreset? id request.name :=
    renamed.findPreset? (ρ.keeps _ plain) id
  have preset : ∀ found, presetOf (b.node found) = presetOf (a.node found) := by
    intro found
    rw [renamed.node]
    rfl
  simp only [renamed.hasPreset, found, preset]
  split
  · exact alike_pure true a b s renamed
  · cases (a.findPreset? id request.name).bind fun found => presetOf (a.node found) with
    | none => exact alike_pure false a b s renamed
    | some preset =>
        exact alike_bind (alike_ofExcept rfl) (fun value =>
          alike_bind (alike_bindValid request id value .preset) fun _ => alike_pure true)
          a b s renamed

theorem alike_bindResolved (request : InputRequest) (type : ValueType) (id : ScopeId)
    (fullPath fullPath' : String)
    (blind : ∀ request a b s, resolver request a s = resolver request b s) :
    Alike ρ (bindResolved resolver request type id fullPath)
      (bindResolved resolver request type id fullPath') := by
  unfold bindResolved
  refine alike_bind (alike_consult request blind) fun resolution => ?_
  cases resolution with
  | value value =>
      exact alike_bind (alike_ofExcept rfl) fun value => alike_bindValid request id value .user
  | useDefault =>
      simp only
      split
      · exact alike_pure ()
      · exact alike_throw _ _
  | skip =>
      simp only
      split
      · exact alike_modifyScope fun _ _ renamed => renamed.markSkipped id
      · exact alike_throw _ _
  | unresolved => exact alike_throw _ _

/-- What an input takes its value from once its default and its preset are bound. -/
theorem alike_settle (request : InputRequest) (type : ValueType) (id : ScopeId) (hasPreset : Bool)
    {inputPath fullPath fullPath' : String}
    (external : externals.find? inputPath fullPath' = externals.find? inputPath fullPath)
    (blind : ∀ request a b s, resolver request a s = resolver request b s) :
    Alike ρ
      (match externals.find? inputPath fullPath with
        | some value => do
            bindValid request id (← Bounded.ofExcept (value.coerce type)) .external
        | none =>
            if hasPreset then pure () else bindResolved resolver request type id fullPath)
      (match externals.find? inputPath fullPath' with
        | some value => do
            bindValid request id (← Bounded.ofExcept (value.coerce type)) .external
        | none =>
            if hasPreset then pure () else bindResolved resolver request type id fullPath') := by
  rw [external]
  split
  · exact alike_bind (alike_ofExcept rfl) fun value => alike_bindValid request id value .external
  · split
    · exact alike_pure ()
    · exact alike_bindResolved request type id fullPath fullPath' blind

theorem alike_resolveInput {node twin : Node} (same : node.Twin twin) (plain : node.Plain)
    (externalKeys : ∀ entry ∈ externals, '#' ∉ entry.1.toList)
    (defaultKeys : ∀ entry ∈ defaults, '#' ∉ entry.1.toList)
    (blind : ∀ request a b s, resolver request a s = resolver request b s) :
    Alike ρ (resolveInput externals defaults resolver node)
      (resolveInput externals defaults resolver twin) := by
  unfold resolveInput
  refine alike_scope_bind fun a b s renamed => ?_
  have kind : twin.kind = node.kind := congrArg Declaration.kind same.declaration
  have name := plain.getD_name?
  have default : defaultOf defaults (node.kind.inputType?.getD .string) twin
      (b.inputPath b.current) (b.path b.current) =
      defaultOf defaults (node.kind.inputType?.getD .string) node
        (a.inputPath a.current) (a.path a.current) := by
    simp only [defaultOf, renamed.current, renamed.find? defaultKeys, same.declaration]
  have external := renamed.find? externalKeys a.current
  simp only [kind, renamed.current, renamed.inputPath, renamed.visited,
    same.request_eq] at default external ⊢
  split
  · exact alike_pure () a b s renamed
  · refine alike_bind (alike_modifyScope fun _ _ renamed => renamed.markVisited _) (fun _ => ?_)
      a b s renamed
    rw [default]
    refine alike_bind (alike_ofExcept rfl) fun default => ?_
    -- What follows the default is the same with a default and without one.
    have further := fun (request : InputRequest) (plain : '#' ∉ request.name.toList) type id =>
      alike_bind (alike_bindPreset plain type id) fun hasPreset =>
        alike_settle (ρ := ρ) request type id hasPreset external blind
    split
    · exact alike_bind (alike_bindValid _ _ _ _) fun _ => further _ name _ _
    · exact further _ name _ _

theorem alike_bindDeclared (origin : Origin) {name : String} (plain : '#' ∉ name.toList)
    {value : Value} (templates : ∀ template, value = .string template →
      ∀ path ∈ Template.paths template, '#' ∉ path.toList) :
    Alike ρ (bindDeclared origin name value : Visit σ Unit) (bindDeclared origin name value) := by
  unfold bindDeclared
  refine alike_scope_bind fun a b s renamed => ?_
  refine alike_bind (alike_ofExcept (Value.interpolate_alike renamed templates)) (fun value => ?_)
    a b s renamed
  obtain ⟨same, declared⟩ := @ScopeTree.Renamed.ensureChild _ _ _ renamed a.current name .value
    fun hash => absurd hash plain
  rw [ρ.keeps name plain, ← renamed.current] at same declared
  simp only [ScopeTree.declare, same]
  rw [renamed.current] at declared ⊢
  exact alike_setScope (declared.bindAt _ value origin)

theorem respects_visitor
    (externalKeys : ∀ entry ∈ externals, '#' ∉ entry.1.toList)
    (defaultKeys : ∀ entry ∈ defaults, '#' ∉ entry.1.toList)
    (blind : ∀ request a b s, resolver request a s = resolver request b s) :
    (visitor externals defaults resolver).Respects ρ where
  enter := by
    intro node twin same plain
    have kind : twin.kind = node.kind := congrArg Declaration.kind same.declaration
    simp only [visitor, kind, Node.name?, same.declaration]
    split
    · exact alike_resolveInput same plain externalKeys defaultKeys blind
    · split
      · next name value presetKind named valued =>
          refine alike_bindDeclared .preset (plain.name name named) fun template eq => ?_
          exact plain.templates template (by simp [Node.templates, presetKind, valued, eq])
      · next name value varKind named valued =>
          refine alike_bindDeclared .default (plain.name name named) fun template eq => ?_
          exact plain.templates template (by simp [Node.templates, varKind, valued, eq])
      · exact alike_pure ()
  leave := fun _ _ => alike_pure ()

theorem idles_visitor : (visitor externals defaults resolver).Idles where
  enter := by
    intro node idle
    simp only [visitor]
    cases kind : node.kind <;> simp_all [NodeKind.isIdle, NodeKind.isInput]
  leave := fun _ => rfl

end Inputs

namespace Assembly

theorem alike_update (f : Assembling → Assembling) : Alike ρ (update f) (update f) :=
  alike_bind alike_state fun _ => alike_setState _

theorem alike_enterRoot {node twin : Node} (same : node.Twin twin) (key : String)
    (value : Option Value) : Alike ρ (enterRoot node key value) (enterRoot twin key value) := by
  unfold enterRoot
  rw [same.declaration]
  split
  · split
    · exact alike_pure ()
    · exact alike_update _
  · exact alike_pure ()

theorem alike_enterValue {node twin : Node} (same : node.Twin twin) (plain : node.Plain)
    (kind : node.kind = .modelValue) : Alike ρ (enterValue node) (enterValue twin) := by
  unfold enterValue
  simp only [Node.name?, same.declaration]
  split
  · exact alike_pure ()
  · next value valued =>
      refine alike_scope_bind fun a b s renamed => ?_
      have templates : ∀ template, value = .string template →
          ∀ path ∈ Template.paths template, '#' ∉ path.toList := fun template eq =>
        plain.templates template (by simp [Node.templates, kind, valued, eq])
      exact alike_bind (alike_ofExcept (Value.interpolate_alike renamed templates))
        (fun value => alike_update _) a b s renamed

theorem respects_visitor : visitor.Respects ρ where
  enter := by
    intro node twin same plain
    have kind : twin.kind = node.kind := congrArg Declaration.kind same.declaration
    have begins : ∀ content, (fun assembling : Assembling => assembling.begin twin content) =
        fun assembling => assembling.begin node content := by
      intro content
      funext assembling
      simp only [Assembling.begin, Node.name?, same.declaration]
    simp only [visitor, kind, Node.name?, same.declaration, begins]
    split
    · exact alike_update _
    · exact alike_update _
    · next valueKind => exact alike_enterValue same plain valueKind
    · split
      · next name named =>
          refine alike_scope_bind fun a b s renamed => ?_
          have value : variableValue? b name = variableValue? a name := by
            have child := @ScopeTree.Alike.child? _ _ _ renamed.toAlike name a.current
            rw [ρ.keeps name (plain.name name named)] at child
            simp only [variableValue?, renamed.current, child, renamed.value?]
          rw [value]
          exact alike_enterRoot same name _ a b s renamed
      · exact alike_pure ()
    · split
      · refine alike_scope_bind fun a b s renamed => ?_
        rw [renamed.current, renamed.inputPath, renamed.value?]
        exact alike_enterRoot same _ _ a b s renamed
      · exact alike_pure ()
  leave := by
    intro node twin same _
    have kind : twin.kind = node.kind := congrArg Declaration.kind same.declaration
    simp only [visitor, kind]
    split
    · exact alike_update _
    · exact alike_update _
    · exact alike_pure ()

theorem idles_visitor : visitor.Idles where
  enter := by
    intro node idle
    simp only [visitor]
    cases kind : node.kind <;> simp_all [NodeKind.isIdle, NodeKind.isInput]
  leave := by
    intro node idle
    simp only [visitor]
    cases kind : node.kind <;> simp_all [NodeKind.isIdle]

end Assembly

namespace Outputs

theorem respects_visitor : visitor.Respects ρ where
  enter := by
    intro node twin same plain
    have kind : twin.kind = node.kind := congrArg Declaration.kind same.declaration
    simp only [visitor, kind, same.declaration]
    split
    · next src target outputKind sourced targeted =>
        refine alike_scope_bind fun a b s renamed => ?_
        have templates := plain.templates target (by
          simp [Node.templates, outputKind, targeted])
        exact alike_bind (alike_ofExcept (renamed.interpolate templates))
          (fun target => alike_bind alike_state fun _ => alike_setState _) a b s renamed
    · exact alike_pure ()
  leave := fun _ _ => alike_pure ()

theorem idles_visitor : visitor.Idles where
  enter := by
    intro node idle
    simp only [visitor]
    cases kind : node.kind <;> simp_all [NodeKind.isIdle]
  leave := fun _ => rfl

end Outputs

end Archetype
