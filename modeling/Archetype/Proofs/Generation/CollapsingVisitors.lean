import Archetype.Proofs.Generation.Collapsing

/-!
What the visitors of the three passes do at a node inside frames that dissolve: it comes to the same
without them, where what the node goes by is clear of them.
-/

namespace Archetype

structure NameUses.Leads (uses : NameUses) (path : String) : Prop where
  downward : ScopePath.Downward path
  used : ∀ name, .name name ∈ ScopePath.segments path → name ∈ uses.lookedUp

structure Node.GoesBy (uses : NameUses) (node : Node) : Prop where
  condition : ∀ e, node.expression = some e → ∀ path ∈ e.paths, uses.Leads path
  templates : ∀ template ∈ node.templates, ∀ path ∈ Template.paths template, uses.Leads path
  asked : node.kind.isInput = true → node.name?.getD "" ∈ uses.asked
  declared : node.kind = .var → ∀ name, node.name? = some name → name ∈ uses.declared

/-- Inputs and variables take what they are worth from where they are walked, so no frame that goes
may be there. -/
def Node.Settles (δ : Dissolving) (home : String) (node : Node) : Prop :=
  node.kind.isInput = true ∨ node.kind = .var → δ.gone home = false

open ScopeTree (Collapsed Inside Lasts)

structure Visitor.Collapses (δ : Dissolving) (uses : NameUses) (visitor : Visitor σ) : Prop where
  enter : ∀ {node twin : Node} {home : String}, node.Twin twin → node.Plain → node.GoesBy uses →
    node.Settles δ home →
    Visit.Collapses δ uses (Inside home) (visitor.enter node) (visitor.enter twin)
  leave : ∀ {node twin : Node} {home : String}, node.Twin twin →
    Visit.Collapses δ uses (Inside home) (visitor.leave node) (visitor.leave twin)

namespace ScopeTree

variable {δ : Dissolving} {uses : NameUses} {a b tree : ScopeTree} {id number : ScopeId}
  {home : String}

namespace Collapsed

variable (collapsed : Collapsed δ a b) (dissolves : a.Dissolves δ uses)
include collapsed dissolves

theorem interpolate {template : String}
    (plain : ∀ path ∈ Template.paths template, '#' ∉ path.toList)
    (leads : ∀ path ∈ Template.paths template, uses.Leads path) :
    (Template.interpolate b.lookup template).toOption =
      (Template.interpolate a.lookup template).toOption :=
  Template.interpolate_agree fun path member =>
    collapsed.lookup dissolves (leads path member).downward (plain path member)
      (leads path member).used

theorem interpolate_value {value : Value}
    (plain : ∀ template, value = .string template →
      ∀ path ∈ Template.paths template, '#' ∉ path.toList)
    (leads : ∀ template, value = .string template →
      ∀ path ∈ Template.paths template, uses.Leads path) :
    (value.interpolate b.lookup).toOption = (value.interpolate a.lookup).toOption := by
  cases value with
  | string template =>
      simp only [Value.interpolate, toOption_map,
        collapsed.interpolate dissolves (plain template rfl) (leads template rfl)]
  | _ => rfl

theorem holdsIn {node : Node} (plain : node.Plain) (goes : node.GoesBy uses) :
    (node.holdsIn b).toOption = (node.holdsIn a).toOption := by
  unfold Node.holdsIn
  cases parsed : node.expression with
  | none => rfl
  | some e =>
      refine e.holds_agree fun path member => ?_
      have leads := goes.condition e parsed path member
      exact collapsed.lookup dissolves leads.downward (plain.condition e parsed path member)
        leads.used

end Collapsed

structure Bears (δ : Dissolving) (id number : ScopeId) (tree : ScopeTree) : Prop where
  inside : id < tree.size
  stays : tree.stays δ id = true
  rank : tree.rank δ id = number

theorem lasts_bears : Lasts (Bears δ id number) := fun _ grown bears => {
  inside := Nat.lt_of_lt_of_le bears.inside grown.grows.size
  stays := (grown.grows.stays bears.inside).trans bears.stays
  rank := (grown.grows.rank bears.inside).trans bears.rank }

theorem Collapsed.bears_current (collapsed : Collapsed δ a b) (stays : a.stays δ a.current = true) :
    a.Bears δ a.current b.current :=
  ⟨collapsed.before.current_lt, stays, collapsed.current.symm⟩

theorem Inside.stays_current (inside : tree.Inside home) (kept : δ.gone home = false) :
    tree.stays δ tree.current = true := by
  rw [ScopeTree.stays, inside.name, kept]
  rfl

end ScopeTree

open ScopeTree (Bears lasts_bears)
open Visit

variable {δ : Dissolving} {uses : NameUses}

namespace Inputs

variable {externals defaults : ValueTable} {resolver : Resolver τ} {request : InputRequest}
  {type : ValueType} {id number : ScopeId}

theorem collapses_bindValid (request : InputRequest) (value : Value) (origin : Origin) :
    Visit.Collapses δ uses (Bears δ id number)
      (bindValid request id value origin : Visit σ Unit)
      (bindValid request number value origin) := by
  refine collapses_bind lasts_bears (collapses_ofExcept rfl) fun _ => ?_
  refine collapses_modifyScope (fun tree => binding_extends.bindAt tree id value origin)
    fun a b collapsed bears => ?_
  rw [← bears.rank]
  exact collapsed.bindAt bears.inside bears.stays value origin

theorem collapses_bindPreset (plain : '#' ∉ request.name.toList)
    (asked : request.name ∈ uses.asked) :
    Visit.Collapses δ uses (Bears δ id number) (bindPreset request type id : Visit σ Bool)
      (bindPreset request type number) := by
  refine collapses_scope_bind (carries_bindPreset binding_extends request type id)
    fun a b s collapsed bears dissolves => ?_
  have stands := collapsed.node id bears.inside bears.stays
  have own : (b.node number).hasPreset = (a.node id).hasPreset := by
    rw [← bears.rank]
    simp only [ScopeNode.hasPreset, stands.variants]
  have found : (b.findPreset? number request.name).bind (fun found => presetOf (b.node found)) =
      (a.findPreset? id request.name).bind fun found => presetOf (a.node found) := by
    rw [← bears.rank, collapsed.findPreset? dissolves plain asked bears.inside bears.stays,
      Option.bind_map]
    cases there : a.findPreset? id request.name with
    | none => rfl
    | some other =>
        obtain ⟨around, -, search⟩ := Option.bind_eq_some_iff.1 there
        obtain ⟨inside, named, -⟩ := ScopeTree.findUpward?_eq_some collapsed.before search
        have stays : a.stays δ other = true := by
          rw [ScopeTree.stays, named, δ.stays plain]
          rfl
        simp only [Option.bind_some, Function.comp_apply, presetOf,
          (collapsed.node other inside stays).variants]
  simp only [own, found]
  split
  · exact meets_pure true collapsed
  · cases (a.findPreset? id request.name).bind fun found => presetOf (a.node found) with
    | none => exact meets_pure false collapsed
    | some preset =>
        have bound : Visit.Collapses δ uses (Bears δ id number)
            (do bindValid request id (← Bounded.ofExcept (preset.coerce type)) .preset
                return true : Visit σ Bool)
            (do bindValid request number (← Bounded.ofExcept (preset.coerce type)) .preset
                return true) :=
          collapses_bind lasts_bears (collapses_ofExcept rfl) fun value =>
            collapses_bind lasts_bears (collapses_bindValid request value .preset) fun _ =>
              collapses_pure true
        exact bound.meets a b s collapsed bears

variable (blind : ∀ request a b s, resolver request a s = resolver request b s)
include blind

theorem collapses_consult (request : InputRequest) {Q : ScopeTree → Prop} :
    Visit.Collapses δ uses Q (consult resolver request) (consult resolver request) where
  extending := carries_consult binding_extends request
  meets := by
    intro a b s collapsed _ result c ended _
    have unfolded : ∀ tree, consult resolver request (tree, s) =
        (resolver request tree s).bind fun pair => some (pair.1, (tree, pair.2)) := fun _ => rfl
    rw [unfolded] at ended ⊢
    obtain ⟨⟨outcome, s'⟩, asks, same⟩ := Option.bind_eq_some_iff.1 ended
    cases same
    rw [blind request b a, asks]
    cases outcome with
    | error error => exact .error
    | ok value => exact .ok collapsed

theorem collapses_bindResolved (fullPath fullPath' : String) :
    Visit.Collapses δ uses (Bears δ id number)
      (bindResolved resolver request type id fullPath)
      (bindResolved resolver request type number fullPath') := by
  refine collapses_bind lasts_bears (collapses_consult blind request) fun resolution => ?_
  cases resolution with
  | value value =>
      exact collapses_bind lasts_bears (collapses_ofExcept rfl) fun value =>
        collapses_bindValid request value .user
  | useDefault =>
      simp only
      split
      · exact collapses_pure ()
      · exact collapses_throw _ _
  | skip =>
      simp only
      split
      · refine collapses_modifyScope (fun tree => binding_extends.markSkipped tree id)
          fun a b collapsed bears => ?_
        rw [← bears.rank]
        exact collapsed.markSkipped bears.inside bears.stays
      · exact collapses_throw _ _
  | unresolved => exact collapses_throw _ _

theorem collapses_settle (hasPreset : Bool) {inputPath fullPath fullPath' : String}
    (external : externals.find? inputPath fullPath' = externals.find? inputPath fullPath) :
    Visit.Collapses δ uses (Bears δ id number)
      (settle externals resolver request type id inputPath fullPath hasPreset)
      (settle externals resolver request type number inputPath fullPath' hasPreset) := by
  unfold settle
  rw [external]
  split
  · exact collapses_bind lasts_bears (collapses_ofExcept rfl) fun value =>
      collapses_bindValid request value .external
  · split
    · exact collapses_pure ()
    · exact collapses_bindResolved blind fullPath fullPath'

section Resolving

variable {node twin : Node} {home : String} (same : node.Twin twin) (plain : node.Plain)
  (goes : node.GoesBy uses)
include same plain goes

theorem collapses_resolveInput (input : node.kind.isInput = true) (kept : δ.gone home = false)
    (externalKeys : ∀ entry ∈ externals, '#' ∉ entry.1.toList ∧ entry.1 ∈ uses.supplied)
    (defaultKeys : ∀ entry ∈ defaults, '#' ∉ entry.1.toList ∧ entry.1 ∈ uses.supplied) :
    Visit.Collapses δ uses (Inside home) (resolveInput externals defaults resolver node)
      (resolveInput externals defaults resolver twin) := by
  refine collapses_scope_bind (carries_resolveInput binding_extends node)
    fun a b s collapsed inside dissolves => ?_
  intro result c ended final
  have bears := collapsed.bears_current (inside.stays_current kept)
  have visited : (b.node b.current).visited = (a.node a.current).visited := by
    rw [collapsed.current, (collapsed.node _ bears.inside bears.stays).visited]
  have kind : twin.kind = node.kind := congrArg Declaration.kind same.declaration
  have name := plain.getD_name?
  rcases @marks_resolveInput _ externals defaults resolver _ binding_extends node (a, s) c result
    ended with ⟨seen, -⟩ | marked
  · simp only [visited, show (a.node a.current).visited = true from seen, if_true] at ended ⊢
    exact meets_pure () collapsed ended final
  · have grown := marked (collapsed.before.markVisited _)
    have supplied : a.exposed δ a.current = false → a.stayPath δ a.current ∈ uses.supplied →
        a.stayPath δ a.current = a.inputPath a.current :=
      final.supplied_of_grows ((a.grows_markVisited _).trans grown.grows) bears.inside
        ((grown.grows.node _ (by
          rw [ScopeTree.markVisited, ScopeTree.size_modify]
          exact bears.inside)).visited (by
          rw [ScopeTree.markVisited, ScopeTree.node_modify_self bears.inside])) inside.enclosed
    have found : ∀ {table : ValueTable},
        (∀ entry ∈ table, '#' ∉ entry.1.toList ∧ entry.1 ∈ uses.supplied) →
        table.find? (b.inputPath b.current) (b.path b.current) =
          table.find? (a.inputPath a.current) (a.path a.current) := by
      intro table keys
      rw [← bears.rank]
      exact collapsed.find? (fun entry member => (keys entry member).1)
        (fun entry member => (keys entry member).2) bears.inside supplied
    have default : defaultOf defaults (node.kind.inputType?.getD .string) twin
        (b.inputPath b.current) (b.path b.current) =
        defaultOf defaults (node.kind.inputType?.getD .string) node
          (a.inputPath a.current) (a.path a.current) := by
      simp only [defaultOf, found defaultKeys, same.declaration]
    have external := found externalKeys
    have inputPath : b.inputPath b.current = a.inputPath a.current := by
      rw [← bears.rank, collapsed.inputPath bears.inside]
    rw [inputPath] at default
    simp only [kind, visited, same.request_eq, inputPath] at external ended ⊢
    split at ended
    · next seen =>
        simp only [seen, if_true]
        exact meets_pure () collapsed ended final
    · next unseen =>
        rw [if_neg unseen]
        refine (?_ : Visit.Collapses δ uses (Bears δ a.current b.current) _ _).meets a b s collapsed
          bears ended final
        refine collapses_bind lasts_bears (collapses_modifyScope
          (fun tree => binding_extends.markVisited tree _) fun a' b' collapsed' bears' => ?_)
          fun _ => ?_
        · rw [← bears'.rank]
          exact collapsed'.markVisited bears'.inside bears'.stays
        refine collapses_bind lasts_bears (collapses_ofExcept (by rw [default])) fun default => ?_
        -- What follows the default is the same with a default and without one.
        have further : ∀ (request : InputRequest) (type : ValueType), '#' ∉ request.name.toList →
            request.name ∈ uses.asked → Visit.Collapses δ uses (Bears δ a.current b.current)
              (bindPreset request type a.current >>= settle externals resolver request type
                a.current (a.inputPath a.current) (a.path a.current))
              (bindPreset request type b.current >>= settle externals resolver request type
                b.current (a.inputPath a.current) (b.path b.current)) :=
          fun request type plain asked =>
            collapses_bind lasts_bears (collapses_bindPreset plain asked) fun hasPreset =>
              collapses_settle blind hasPreset external
        split
        · exact collapses_bind lasts_bears (collapses_bindValid _ _ _) fun _ =>
            further _ _ name (goes.asked input)
        · exact further _ _ name (goes.asked input)

end Resolving

omit blind in
theorem collapses_bindDeclared (origin : Origin) {home name : String} (plain : '#' ∉ name.toList)
    {value : Value}
    (templates : ∀ template, value = .string template →
      ∀ path ∈ Template.paths template, '#' ∉ path.toList)
    (leads : ∀ template, value = .string template →
      ∀ path ∈ Template.paths template, uses.Leads path) :
    Visit.Collapses δ uses (Inside home) (bindDeclared origin name value : Visit σ Unit)
      (bindDeclared origin name value) := by
  refine collapses_scope_bind (carries_bindDeclared binding_extends origin name value)
    fun a b s collapsed inside dissolves => ?_
  intro result c ended final
  have agrees := collapsed.interpolate_value dissolves templates leads
  rw [bind_eq] at ended ⊢
  unfold Bounded.ofExcept at ended ⊢
  simp only [Option.bind_some] at ended ⊢
  cases given : value.interpolate a.lookup with
  | error error =>
      rw [given] at agrees ended
      cases given' : value.interpolate b.lookup with
      | error error' =>
          cases ended
          exact .error
      | ok value =>
          rw [given'] at agrees
          cases agrees
  | ok bound =>
      rw [given] at agrees ended
      cases given' : value.interpolate b.lookup with
      | error error' =>
          rw [given'] at agrees
          cases agrees
      | ok bound' =>
          rw [given'] at agrees
          cases agrees
          cases ended
          have wf := collapsed.before
          have shaped := wf.ensureChild wf.current_lt name .value
          obtain ⟨number, declared⟩ := collapsed.ensureChild wf.current_lt (δ.stays plain)
            (fun hash => absurd hash plain)
            (final.of_grows (ScopeTree.grows_bindAt _ bound origin) shaped).unmerged
          rw [δ.keeps name plain, ← collapsed.current] at number declared
          have bounded := (ScopeTree.ensureChild_lt wf wf.current_lt name .value).1
          have named : ((a.declare name).2.node (a.declare name).1).name = name :=
            ((shaped.indexed _ _ _).1
              (ScopeTree.child?_ensureChild wf wf.current_lt name .value)).2
          have stays : (a.declare name).2.stays δ (a.declare name).1 = true := by
            rw [ScopeTree.stays, named, δ.stays plain]
            rfl
          have same : (b.declare name).1 = (a.declare name).2.rank δ (a.declare name).1 := number
          simp only [same]
          exact .ok (ScopeTree.Collapsed.bindAt declared bounded stays bound origin)

theorem collapses_visitor
    (externalKeys : ∀ entry ∈ externals, '#' ∉ entry.1.toList ∧ entry.1 ∈ uses.supplied)
    (defaultKeys : ∀ entry ∈ defaults, '#' ∉ entry.1.toList ∧ entry.1 ∈ uses.supplied) :
    (visitor externals defaults resolver).Collapses δ uses where
  enter := by
    intro node twin home same plain goes settles
    have kind : twin.kind = node.kind := congrArg Declaration.kind same.declaration
    simp only [visitor, kind, Node.name?, same.declaration]
    split
    · next input =>
        exact collapses_resolveInput blind same plain goes input (settles (.inl input))
          externalKeys defaultKeys
    · split
      · next name value presetKind named valued =>
          have template : ∀ template, value = .string template → template ∈ node.templates :=
            fun template eq => by simp [Node.templates, presetKind, valued, eq]
          exact collapses_bindDeclared .preset (plain.name name named)
            (fun t eq => plain.templates t (template t eq))
            fun t eq => goes.templates t (template t eq)
      · next name value varKind named valued =>
          have template : ∀ template, value = .string template → template ∈ node.templates :=
            fun template eq => by simp [Node.templates, varKind, valued, eq]
          exact collapses_bindDeclared .default (plain.name name named)
            (fun t eq => plain.templates t (template t eq))
            fun t eq => goes.templates t (template t eq)
      · exact collapses_pure ()
  leave := fun _ => collapses_pure ()

end Inputs

namespace Assembly

theorem collapses_update (f : Assembling → Assembling) {Q : ScopeTree → Prop} (lasts : Lasts Q) :
    Visit.Collapses δ uses Q (update f) (update f) :=
  collapses_bind lasts collapses_state fun _ => collapses_setState _

theorem collapses_enterRoot {node twin : Node} (same : node.Twin twin) (key : String)
    (value : Option Value) {Q : ScopeTree → Prop} (lasts : Lasts Q) :
    Visit.Collapses δ uses Q (enterRoot node key value) (enterRoot twin key value) := by
  unfold enterRoot
  rw [same.declaration]
  split
  · split
    · exact collapses_pure ()
    · exact collapses_update _ lasts
  · exact collapses_pure ()

theorem collapses_enterValue {node twin : Node} {home : String} (same : node.Twin twin)
    (plain : node.Plain) (goes : node.GoesBy uses) (kind : node.kind = .modelValue) :
    Visit.Collapses δ uses (Inside home) (enterValue node) (enterValue twin) := by
  have looking := looking_enterValue node
  unfold enterValue at looking ⊢
  simp only [Node.name?, same.declaration] at looking ⊢
  split
  · exact collapses_pure ()
  · next value valued =>
      have template : ∀ template, value = .string template → template ∈ node.templates :=
        fun template eq => by simp [Node.templates, kind, valued, eq]
      simp only [valued] at looking
      refine collapses_scope_bind (extending_of_looking looking)
        fun a b s collapsed inside dissolves => ?_
      have agrees := collapsed.interpolate_value dissolves
        (fun t eq => plain.templates t (template t eq))
        fun t eq => goes.templates t (template t eq)
      exact (collapses_bind (ScopeTree.lasts_inside home) (collapses_ofExcept agrees) fun value =>
        collapses_update _ (ScopeTree.lasts_inside home)).meets a b s collapsed inside

theorem collapses_visitor : visitor.Collapses δ uses where
  enter := by
    intro node twin home same plain goes settles
    have kind : twin.kind = node.kind := congrArg Declaration.kind same.declaration
    have lasts : Lasts (Inside home) := ScopeTree.lasts_inside home
    have begins : ∀ content, (fun assembling : Assembling => assembling.begin twin content) =
        fun assembling => assembling.begin node content := by
      intro content
      funext assembling
      simp only [Assembling.begin, Node.name?, same.declaration]
    simp only [visitor, kind, Node.name?, same.declaration, begins]
    split
    · exact collapses_update _ lasts
    · exact collapses_update _ lasts
    · next valueKind => exact collapses_enterValue same plain goes valueKind
    · next varKind =>
        split
        · next name named =>
            refine collapses_scope_bind (extending_of_looking
              (looking_bind looking_scope fun _ => looking_enterRoot _ _ _))
              fun a b s collapsed inside dissolves => ?_
            have stays := inside.stays_current (settles (.inr varKind))
            have value : variableValue? b name = variableValue? a name := by
              have child := collapsed.child? dissolves (plain.name name named)
                (goes.declared varKind name named) stays
              rw [← collapsed.current] at child
              rw [variableValue?, child, Option.bind_map, variableValue?]
              refine Option.bind_congr fun id found => ?_
              obtain ⟨member, named'⟩ := (collapsed.before.indexed _ _ _).1 found
              have stays' : a.stays δ id = true := by
                rw [ScopeTree.stays, named', δ.stays (plain.name name named)]
                rfl
              exact (collapsed.node id (collapsed.before.child_lt member).2 stays').value?_eq
            rw [value]
            exact (collapses_enterRoot same name _ lasts).meets a b s collapsed inside
        · exact collapses_pure ()
    · split
      · next input =>
          refine collapses_scope_bind (extending_of_looking
            (looking_bind looking_scope fun _ => looking_enterRoot _ _ _))
            fun a b s collapsed inside dissolves => ?_
          have bears := collapsed.bears_current (inside.stays_current (settles (.inl input)))
          rw [← bears.rank, collapsed.inputPath bears.inside,
            (collapsed.node _ bears.inside bears.stays).value?_eq]
          exact (collapses_enterRoot same _ _ lasts).meets a b s collapsed inside
      · exact collapses_pure ()
  leave := by
    intro node twin home same
    have kind : twin.kind = node.kind := congrArg Declaration.kind same.declaration
    simp only [visitor, kind]
    split
    · exact collapses_update _ (ScopeTree.lasts_inside home)
    · exact collapses_update _ (ScopeTree.lasts_inside home)
    · exact collapses_pure ()

end Assembly

namespace Outputs

theorem collapses_visitor : visitor.Collapses δ uses where
  enter := by
    intro node twin home same plain goes _
    have kind : twin.kind = node.kind := congrArg Declaration.kind same.declaration
    have lasts : Lasts (Inside home) := ScopeTree.lasts_inside home
    have looking := visitor_looks.enter node
    simp only [visitor] at looking
    simp only [visitor, kind, same.declaration]
    split
    · next src target outputKind sourced targeted =>
        have template : target ∈ node.templates := by
          simp [Node.templates, outputKind, targeted]
        simp only [outputKind, sourced, targeted] at looking
        refine collapses_scope_bind (extending_of_looking looking)
          fun a b s collapsed inside dissolves => ?_
        have agrees := collapsed.interpolate dissolves (plain.templates target template)
          (goes.templates target template)
        exact (collapses_bind lasts (collapses_ofExcept agrees) fun target =>
          collapses_bind lasts collapses_state fun _ => collapses_setState _).meets a b s collapsed
            inside
    · exact collapses_pure ()
  leave := fun _ => collapses_pure ()

end Outputs

end Archetype
