import Archetype.Proofs.Generation.Visitors
import Archetype.Proofs.Script.Checking
import Archetype.Proofs.Walk.Comparison

/-!
Where the values of inputs come from. Every value of a scope was taken by the input that is walked
there first, or else a preset or a variable of that scope bound it, which nothing checks against the
input.
-/

namespace Archetype

open Visit (Gives gives_scope gives_bind gives_ofExcept gives_modifyScope gives_setScope)

theorem Value.type_of_parse {type : ValueType} {raw : String} {v : Value}
    (parses : Value.parse type raw = .ok v) : v.type = type := by
  cases type with
  | string =>
      cases parses
      rfl
  | boolean =>
      simp only [Value.parse] at parses
      split at parses
      · cases parses
        rfl
      · cases parses
  | int =>
      simp only [Value.parse] at parses
      split at parses
      · cases parses
        rfl
      · cases parses
  | list =>
      cases parses
      rfl

theorem Value.type_of_coerce {type : ValueType} {v w : Value}
    (coerces : v.coerce type = .ok w) : w.type = type := by
  unfold Value.coerce at coerces
  split at coerces
  · next same =>
      cases coerces
      exact same
  · split at coerces
    · exact Value.type_of_parse coerces
    · cases coerces

theorem InputRequest.hasOption_of_validate {request : InputRequest} {value : Value}
    (valid : request.validate value = .ok ()) :
    ∀ s ∈ request.chosen value, request.hasOption s = true := by
  intro s member
  unfold InputRequest.validate at valid
  split at valid
  · next none => simpa using List.find?_eq_none.1 none s member
  · cases valid

namespace Node

def optionValues (node : Node) : List String :=
  node.options.map fun option => (InputOption.ofNode option).value

/-- A value of the type of an input, chosen among its options if it has any. -/
structure Accepts (node : Node) (value : Value) : Prop where
  type : node.kind.inputType? = some value.type
  choice : node.kind = .inputEnum → ∃ s ∈ node.optionValues, value = .string s
  choices : node.kind = .inputList →
    ∃ items, value = .list items ∧ ∀ item ∈ items, item ∈ node.optionValues

/-- What passes the checks of an input. Null has the type of texts and chooses nothing, so it passes
those of a choice as well. -/
def Takes (node : Node) (value : Value) : Prop :=
  node.Accepts value ∨ node.kind = .inputEnum ∧ value = .null

theorem mem_optionValues {node : Node} {path s : String} {default : Option Value}
    (declared : (InputRequest.ofNode node path default).hasOption s = true) :
    s ∈ node.optionValues := by
  obtain ⟨option, member, named⟩ := List.any_eq_true.1 declared
  obtain ⟨below, inside, rfl⟩ := List.mem_map.1 member
  exact List.mem_map.2 ⟨below, inside, by simpa using named⟩

theorem takes_of_validate {node : Node} {path : String} {default : Option Value} {value : Value}
    (input : node.kind.isInput = true) (type : value.type = node.kind.inputType?.getD .string)
    (valid : (InputRequest.ofNode node path default).validate value = .ok ()) :
    node.Takes value := by
  have declared := InputRequest.hasOption_of_validate valid
  simp only [InputRequest.chosen, InputRequest.ofNode] at declared
  cases kind : node.kind <;> simp only [kind, NodeKind.isInput, Bool.false_eq_true] at input <;>
    simp only [kind, NodeKind.inputType?, Option.getD_some] at type
  case inputText => exact .inl ⟨by rw [kind, type]; rfl, by simp [kind], by simp [kind]⟩
  case inputBoolean => exact .inl ⟨by rw [kind, type]; rfl, by simp [kind], by simp [kind]⟩
  case inputEnum =>
    cases value with
    | string s =>
        refine .inl ⟨by rw [kind, type]; rfl, fun _ => ?_, by simp [kind]⟩
        refine ⟨s, mem_optionValues (declared s ?_), rfl⟩
        simp [kind]
    | null => exact .inr ⟨kind, rfl⟩
    | _ => cases type
  case inputList =>
    refine .inl ⟨by rw [kind, type]; rfl, by simp [kind], fun _ => ?_⟩
    cases value with
    | list items =>
        refine ⟨items, rfl, fun item member => mem_optionValues (declared item ?_)⟩
        simpa [kind] using member
    | _ => cases type

theorem type_of_default? {node : Node}
    (built : node.declaration.check node.children = .ok node.expression)
    (input : node.kind.isInput = true) {value : Value}
    (declared : node.declaration.default? = some value) :
    value.type = node.kind.inputType?.getD .string := by
  have checks := Declaration.checkAttribute_of_check built declared
  have typed : ∃ type, node.kind.inputType? = some type := by
    cases kind : node.kind <;> simp_all [NodeKind.isInput, NodeKind.inputType?]
  obtain ⟨type, typed⟩ := typed
  have expected : Declaration.attributeType? node.kind "default" = some (some type) := by
    simp [Declaration.attributeType?, typed]
  unfold Declaration.checkAttribute at checks
  rw [expected] at checks
  simp only at checks
  split at checks
  · next same => rw [typed, Option.getD_some, same.1]
  · cases checks

end Node

/-! What a walk adds to the values of scopes. -/

/-- A preset or a variable with a value that is walked around a scope and bears its name. -/
structure ScopeTree.Declares (tree : ScopeTree) (binding : Node) (around id : ScopeId) : Prop where
  binds : binding.kind.isBinding = true
  valued : binding.declaration.value?.isSome = true
  parent : (tree.node id).parent = some around
  name : binding.name? = some (tree.node id).name

/-- A preset or a variable of the scope bound the value at that place, which was the next one when
the binding was entered. -/
def ScopeTree.DeclaredAt (tree : ScopeTree) (past : List Event) (id : ScopeId) (place : Nat) :
    Prop :=
  ∃ binding before, .entered binding before ∈ past ∧ tree.Declares binding before.current id ∧
    (before.node id).variants.length = place

def firstInput? (visits : List (Node × ScopeId)) (id : ScopeId) : Option Node :=
  (visits.find? fun visit => visit.1.kind.isInput && visit.2 == id).map (·.1)

theorem firstInput?_append (first second : List (Node × ScopeId)) (id : ScopeId) :
    firstInput? (first ++ second) id = (firstInput? first id).or (firstInput? second id) := by
  simp only [firstInput?, List.find?_append]
  cases first.find? fun visit => visit.1.kind.isInput && visit.2 == id <;> rfl

theorem firstInput?_singleton (node : Node) (here id : ScopeId) :
    firstInput? [(node, here)] id =
      if node.kind.isInput && here == id then some node else none := by
  simp only [firstInput?, List.find?_singleton]
  split <;> rfl

theorem exists_firstInput? {visits : List (Node × ScopeId)} {node : Node} {id : ScopeId}
    (entered : (node, id) ∈ visits) (input : node.kind.isInput = true) :
    ∃ first, firstInput? visits id = some first := by
  refine Option.isSome_iff_exists.1 ?_
  simp only [firstInput?, Option.isSome_map, List.find?_isSome]
  exact ⟨_, entered, by simp [input]⟩

/-- Every value there is comes from one of the nodes that were entered: the first input in its scope
takes it, or a binding of the scope bound it. -/
structure ScopeTree.BoundBy (tree : ScopeTree) (past : List Event) : Prop where
  accounted : ∀ (id : ScopeId) (place : Nat) (v : Variant),
    (tree.node id).variants[place]? = some v →
    (∃ node, firstInput? (entries past) id = some node ∧ node.Takes v.value) ∨
      tree.DeclaredAt past id place
  visited : ∀ id node, firstInput? (entries past) id = some node → (tree.node id).visited = true

namespace Visit

def Adds (allowed : ScopeId → Value → Prop) (work : Visit σ α) : Prop :=
  ∀ ⦃c value c'⦄, Gives work c value c' → ∀ (id : ScopeId) (place : Nat) (v : Variant),
    (c'.1.node id).variants[place]? = some v →
      (c.1.node id).variants[place]? = some v ∨ allowed id v.value

variable {allowed : ScopeId → Value → Prop}

theorem adds_of_reading {work : Visit σ α} (reading : Reading work) : Adds allowed work := by
  intro c value c' gives id place v found
  exact .inl (reading gives ▸ found)

theorem adds_throw (error : RunError) : Adds allowed (throw error : Visit σ α) :=
  fun _ _ _ gives => absurd gives not_gives_throw

theorem adds_bind {work : Visit σ α} {next : α → Visit σ β} (first : Adds allowed work)
    (rest : ∀ value, Adds allowed (next value)) : Adds allowed (work >>= next) := by
  intro c value c' gives id place v found
  obtain ⟨_, between, gives, gives'⟩ := gives_bind.1 gives
  exact (rest _ gives' id place v found).elim (first gives id place v) .inr

theorem adds_ofExcept_bind {result : Except RunError α} {next : α → Visit σ β}
    (rest : ∀ value, result = .ok value → Adds allowed (next value)) :
    Adds allowed (Bounded.ofExcept result >>= next) := by
  intro c value c' gives
  obtain ⟨_, _, gives, gives'⟩ := gives_bind.1 gives
  obtain ⟨same, rfl⟩ := gives_ofExcept.1 gives
  exact rest _ same gives'

theorem adds_modifyScope {f : ScopeTree → ScopeTree}
    (keeps : ∀ (tree : ScopeTree) id, ((f tree).node id).variants = (tree.node id).variants) :
    Adds allowed (modifyScope f : Visit σ Unit) := by
  intro c value c' gives id place v found
  obtain rfl := gives_modifyScope.1 gives
  exact .inl (keeps c.1 id ▸ found)

end Visit

open Visit

namespace ScopeTree

variable {tree : ScopeTree}

theorem variants_markVisited (id other : ScopeId) :
    ((tree.markVisited id).node other).variants = (tree.node other).variants := by
  rw [markVisited, node_modify]
  split <;> rfl

theorem variants_markSkipped (id other : ScopeId) :
    ((tree.markSkipped id).node other).variants = (tree.node other).variants := by
  rw [markSkipped, node_modify]
  split <;> rfl

/-- A value at some place after one is bound: an old one, or the new one at the next place. -/
theorem getElem?_variants_bindAt {id other : ScopeId} {value : Value} {origin : Origin}
    {place : Nat} {v : Variant}
    (found : ((tree.bindAt id value origin).node other).variants[place]? = some v) :
    (tree.node other).variants[place]? = some v ∨
      other = id ∧ (tree.node other).variants.length = place ∧ v.value = value := by
  rw [bindAt, node_modify] at found
  split at found
  · next both =>
      simp only [ScopeNode.bind, List.getElem?_append] at found
      split at found
      · exact .inl found
      · next beyond =>
          rw [List.getElem?_singleton] at found
          split at found
          · next next_place =>
              cases found
              exact .inr ⟨both.1, by omega, rfl⟩
          · cases found
  · exact .inl found

theorem lt_size_of_getElem?_variants {id : ScopeId} {place : Nat} {v : Variant}
    (found : (tree.node id).variants[place]? = some v) : id < tree.size := by
  refine Nat.lt_of_not_le fun outside => ?_
  rw [node_of_size_le outside] at found
  cases found

variable {past more : List Event} {later : ScopeTree} {id : ScopeId} {place : Nat}

/-- A scope keeps the bindings that it was bound by. -/
theorem DeclaredAt.mono (declared : tree.DeclaredAt past id place) (grows : tree.Grows later)
    (bounded : id < tree.size) : later.DeclaredAt (past ++ more) id place := by
  obtain ⟨binding, before, entered, declares, next⟩ := declared
  have kept := grows.node id bounded
  exact ⟨binding, before, List.mem_append_left _ entered,
    { declares with
      parent := kept.parent.trans declares.parent
      name := by rw [kept.name, declares.name] }, next⟩

namespace BoundBy

theorem init : BoundBy {} [] where
  accounted id place v found := by
    obtain rfl : id = 0 := Nat.lt_one_iff.1 (lt_size_of_getElem?_variants found)
    cases found
  visited id node first := by cases first

/-- Events that enter no node make no difference while no values are added. -/
theorem of_grows (bound : tree.BoundBy past) (grows : tree.Grows later)
    (unentered : entries more = [])
    (same : ∀ (id : ScopeId) (place : Nat) (v : Variant),
      (later.node id).variants[place]? = some v → (tree.node id).variants[place]? = some v) :
    later.BoundBy (past ++ more) where
  accounted id place v found := by
    have old := same id place v found
    rw [entries_append, unentered, List.append_nil]
    exact (bound.accounted id place v old).imp_right
      (·.mono grows (lt_size_of_getElem?_variants old))
  visited id node first := by
    rw [entries_append, unentered, List.append_nil] at first
    exact grows.visited (bound.visited id node first)

theorem opened (bound : tree.BoundBy past) (frame : Option (String × FrameKind)) :
    (tree.opened frame).BoundBy past := by
  cases frame with
  | none => exact bound
  | some frame =>
      rw [← List.append_nil past]
      refine bound.of_grows (grows_push _ _) rfl fun id place v found => ?_
      rw [ScopeTree.opened, push_eq] at found
      exact (sameContent_ensureChild _ _ _ id).variants ▸ found

theorem closed (bound : tree.BoundBy past) (outer : ScopeTree)
    (frame : Option (String × FrameKind)) : (outer.closed tree frame).BoundBy past := by
  have nodes := @nodes_closed outer tree frame
  rw [← List.append_nil past]
  refine bound.of_grows ((Grows.refl tree).of_nodes rfl nodes) rfl fun id place v found => ?_
  unfold ScopeTree.node at found ⊢
  rwa [nodes] at found

theorem decided (bound : tree.BoundBy past) (node : Node) (before : ScopeTree) (truth : Bool) :
    tree.BoundBy (past ++ [.decided node before truth]) :=
  bound.of_grows (.refl tree) rfl fun _ _ _ found => found

end BoundBy

end ScopeTree

namespace Inputs

variable {externals defaults : ValueTable} {resolver : Resolver ρ}
  {allowed : ScopeId → Value → Prop}

theorem adds_bindValid {request : InputRequest} {id : ScopeId} {value : Value} {origin : Origin}
    (valid : request.validate value = .ok () → allowed id value) :
    Adds allowed (bindValid request id value origin : Visit σ Unit) := by
  refine adds_ofExcept_bind fun _ same => ?_
  intro c _ c' gives other place v found
  obtain rfl := gives_modifyScope.1 gives
  refine (ScopeTree.getElem?_variants_bindAt found).imp_right ?_
  rintro ⟨rfl, -, rfl⟩
  exact valid same

theorem reading_consult (request : InputRequest) : Reading (consult resolver request) := by
  intro c value c' gives
  have unfolded : consult resolver request c = (resolver request c.1 c.2).bind fun pair =>
      some (pair.1, (c.1, pair.2)) := rfl
  unfold Gives at gives
  rw [unfolded] at gives
  cases outcome : resolver request c.1 c.2 with
  | none => simp [outcome] at gives
  | some pair =>
      simp only [outcome, Option.bind_some, Option.some.injEq, Prod.mk.injEq] at gives
      rw [← gives.2]

variable {request : InputRequest} {type : ValueType} {id : ScopeId}
  (takes : ∀ value : Value, value.type = type → request.validate value = .ok () →
    allowed id value)
include takes

theorem adds_bindCoerced (value : Value) (origin : Origin) :
    Adds allowed (Bounded.ofExcept (value.coerce type) >>= fun value =>
      bindValid request id value origin : Visit σ Unit) :=
  adds_ofExcept_bind fun value coerces =>
    adds_bindValid (takes value (Value.type_of_coerce coerces))

theorem adds_bindPreset : Adds allowed (bindPreset request type id : Visit σ Bool) := by
  unfold bindPreset
  refine adds_bind (adds_of_reading reading_scope) fun tree => ?_
  split
  · exact adds_of_reading (reading_pure true)
  · split
    · exact adds_of_reading (reading_pure false)
    · refine adds_ofExcept_bind fun value coerces => ?_
      exact adds_bind (adds_bindValid (takes value (Value.type_of_coerce coerces))) fun _ =>
        adds_of_reading (reading_pure true)

theorem adds_bindResolved (fullPath : String) :
    Adds allowed (bindResolved resolver request type id fullPath) := by
  unfold bindResolved
  refine adds_bind (adds_of_reading (reading_consult request)) fun resolution => ?_
  cases resolution with
  | value value => exact adds_bindCoerced takes value .user
  | useDefault =>
      simp only
      split
      · exact adds_of_reading (reading_pure ())
      · exact adds_throw _
  | skip =>
      simp only
      split
      · exact adds_modifyScope fun tree other => tree.variants_markSkipped id other
      · exact adds_throw _
  | unresolved => exact adds_throw _

theorem adds_settle (inputPath fullPath : String) (hasPreset : Bool) :
    Adds allowed (settle externals resolver request type id inputPath fullPath hasPreset) := by
  unfold settle
  split
  · exact adds_bindCoerced takes _ _
  · split
    · exact adds_of_reading (reading_pure ())
    · exact adds_bindResolved takes _

omit takes

theorem type_of_defaultOf {node : Node}
    (built : node.declaration.check node.children = .ok node.expression)
    (input : node.kind.isInput = true) {inputPath fullPath : String} {value : Value}
    (default : defaultOf defaults (node.kind.inputType?.getD .string) node inputPath fullPath =
      .ok (some value)) : value.type = node.kind.inputType?.getD .string := by
  unfold defaultOf at default
  split at default
  · next supplied _ =>
      cases coerced : supplied.coerce (node.kind.inputType?.getD .string) with
      | error error => simp [coerced, Except.map] at default
      | ok value' =>
          simp only [coerced, Except.map, Except.ok.injEq, Option.some.injEq] at default
          subst default
          exact Value.type_of_coerce coerced
  · exact Node.type_of_default? built input (Except.ok.inj default)

theorem resolveInput_of_visited {node : Node} {c c' : ScopeTree × ρ}
    (seen : (c.1.node c.1.current).visited = true)
    (gives : Gives (resolveInput externals defaults resolver node) c () c') : c' = c := by
  unfold resolveInput at gives
  obtain ⟨tree, between, scope, gives⟩ := gives_bind.1 gives
  obtain ⟨rfl, rfl⟩ := gives_scope.1 scope
  simp only [seen, if_true] at gives
  exact (Visit.gives_pure.1 gives).2

theorem visited_resolveInput {node : Node} {c c' : ScopeTree × ρ} (wf : c.1.WellFormed)
    (gives : Gives (resolveInput externals defaults resolver node) c () c') :
    (c'.1.node c.1.current).visited = true := by
  rcases resolveInput_cases wf gives with ⟨seen, rfl⟩ | marked
  · exact seen
  · refine marked.grows.visited ?_
    rw [ScopeTree.markVisited, ScopeTree.node_modify, if_pos ⟨rfl, wf.current_lt⟩]

theorem adds_resolveInput {node : Node}
    (built : node.declaration.check node.children = .ok node.expression)
    (input : node.kind.isInput = true) {c c' : ScopeTree × ρ}
    (gives : Gives (resolveInput externals defaults resolver node) c () c') :
    ∀ (id : ScopeId) (place : Nat) (v : Variant), (c'.1.node id).variants[place]? = some v →
      (c.1.node id).variants[place]? = some v ∨ (id = c.1.current ∧ node.Takes v.value) := by
  unfold resolveInput at gives
  obtain ⟨tree, between, scope, gives⟩ := gives_bind.1 gives
  obtain ⟨rfl, rfl⟩ := gives_scope.1 scope
  let allowed : ScopeId → Value → Prop := fun id value =>
    id = between.1.current ∧ node.Takes value
  have takes : ∀ default (value : Value), value.type = node.kind.inputType?.getD .string →
      (InputRequest.ofNode node (between.1.inputPath between.1.current) default).validate value =
        .ok () → allowed between.1.current value :=
    fun default value type valid => ⟨rfl, Node.takes_of_validate input type valid⟩
  refine (show Adds allowed _ from ?_) gives
  simp only
  split
  · exact adds_of_reading (reading_pure ())
  · refine adds_bind (adds_modifyScope fun tree other => tree.variants_markVisited _ other)
      fun _ => ?_
    refine adds_ofExcept_bind fun default isDefault => ?_
    have further := adds_bind (adds_bindPreset (takes default)) fun hasPreset =>
      @adds_settle ρ externals resolver allowed _ _ _ (takes default)
        (between.1.inputPath between.1.current) (between.1.path between.1.current) hasPreset
    split
    · exact adds_bind
        (adds_bindValid (takes _ _ (type_of_defaultOf built input isDefault))) fun _ => further
    · exact further

/-- A binding binds the next place of the scope of its name in the current one, and no other. -/
theorem adds_bindDeclared {node : Node} {origin : Origin} {name : String} {value declared : Value}
    (binds : node.kind.isBinding = true) (valued : node.declaration.value? = some declared)
    (named : node.name? = some name) {c c' : ScopeTree × ρ} (wf : c.1.WellFormed)
    (gives : Gives (bindDeclared origin name value) c () c') :
    ∀ (id : ScopeId) (place : Nat) (v : Variant), (c'.1.node id).variants[place]? = some v →
      (c.1.node id).variants[place]? = some v ∨
        c'.1.Declares node c.1.current id ∧ (c.1.node id).variants.length = place := by
  unfold bindDeclared at gives
  obtain ⟨tree, between, scope, gives⟩ := gives_bind.1 gives
  obtain ⟨rfl, rfl⟩ := gives_scope.1 scope
  obtain ⟨value, here, interpolated, gives⟩ := gives_bind.1 gives
  obtain ⟨-, rfl⟩ := gives_ofExcept.1 interpolated
  have bound : c' = ((here.1.declare name).2.bindAt (here.1.declare name).1 value origin,
    here.2) := gives_setScope.1 gives
  subst bound
  intro id place v found
  have inside := ScopeTree.ensureChild_lt wf wf.current_lt name .value
  have child := ((wf.declare name).indexed _ _ _).1
    (ScopeTree.child?_ensureChild wf wf.current_lt name .value)
  have grows : (here.1.declare name).2.Grows
      ((here.1.declare name).2.bindAt (here.1.declare name).1 value origin) :=
    ScopeTree.grows_bindAt _ value origin
  have kept := grows.node (here.1.declare name).1 inside.1
  have same : ∀ other, ((here.1.declare name).2.node other).variants =
      (here.1.node other).variants :=
    fun other => (ScopeTree.sameContent_ensureChild here.1.current name .value other).variants
  refine (ScopeTree.getElem?_variants_bindAt found).imp (same id ▸ ·) ?_
  rintro ⟨rfl, next, -⟩
  rw [same] at next
  exact ⟨⟨binds, by simp [valued], kept.parent.trans inside.2, by
    rw [kept.name, named]
    exact congrArg some child.2.symm⟩, next⟩

/-- What entering a node adds: a value that the node takes in its scope, if it is the first input
there, or else a value that it binds. -/
theorem boundBy_enter {node : Node}
    (built : node.declaration.check node.children = .ok node.expression) {c c' : ScopeTree × ρ}
    (wf : c.1.WellFormed) {past : List Event} (bound : c.1.BoundBy past)
    (gives : Gives ((visitor externals defaults resolver).enter node) c () c') :
    c'.1.BoundBy (past ++ [.entered node c.1]) := by
  have grows := (visitor_extends.enter gives wf).grows
  have entered : Event.entered node c.1 ∈ past ++ [.entered node c.1] := by simp
  have visits : entries (past ++ [.entered node c.1]) = entries past ++ [(node, c.1.current)] := by
    simp
  have added : ∀ (id : ScopeId) (place : Nat) (v : Variant),
      (c'.1.node id).variants[place]? = some v → (c.1.node id).variants[place]? = some v ∨
      (firstInput? (entries past ++ [(node, c.1.current)]) id = some node ∧ node.Takes v.value) ∨
        c'.1.Declares node c.1.current id ∧ (c.1.node id).variants.length = place := by
    intro id place v found
    simp only [visitor] at gives
    split at gives
    · next input =>
        cases first : firstInput? (entries past) c.1.current with
        | some other =>
            have seen := bound.visited _ _ first
            rw [resolveInput_of_visited seen gives] at found
            exact .inl found
        | none =>
            refine (adds_resolveInput built input gives id place v found).imp_right ?_
            rintro ⟨rfl, takes⟩
            refine .inl ⟨?_, takes⟩
            rw [firstInput?_append, first, firstInput?_singleton]
            simp [input]
    · split at gives
      · next kind named valued =>
          exact (adds_bindDeclared (by rw [kind]; rfl) valued named wf gives id place v
            found).imp_right .inr
      · next kind named valued =>
          exact (adds_bindDeclared (by rw [kind]; rfl) valued named wf gives id place v
            found).imp_right .inr
      · obtain ⟨-, rfl⟩ := Visit.gives_pure.1 gives
        exact .inl found
  refine ⟨fun id place v found => ?_, fun id first isFirst => ?_⟩
  · rcases added id place v found with old | takes | ⟨declares, next⟩
    · refine (bound.accounted id place v old).imp ?_
        (·.mono grows (ScopeTree.lt_size_of_getElem?_variants old))
      rintro ⟨other, earlier, taken⟩
      exact ⟨other, by rw [visits, firstInput?_append, earlier, Option.some_or], taken⟩
    · exact .inl ⟨node, visits ▸ takes.1, takes.2⟩
    · exact .inr ⟨node, c.1, entered, declares, next⟩
  · rw [visits, firstInput?_append] at isFirst
    rcases Option.or_eq_some_iff.1 isFirst with earlier | ⟨-, here⟩
    · exact grows.visited (bound.visited id first earlier)
    · obtain ⟨rfl, input⟩ : c.1.current = id ∧ node.kind.isInput = true := by
        rw [firstInput?_singleton] at here
        split at here
        · next both => simpa [and_comm] using both
        · cases here
      simp only [visitor, input, if_true] at gives
      exact visited_resolveInput wf gives

variable {library : Library}

theorem visitor_keeps_boundBy : (visitor externals defaults resolver).Keeps
    (fun node => node.declaration.check node.children = .ok node.expression)
    ScopeTree.BoundBy where
  opened frame bound := bound.opened frame
  closed outer frame bound := bound.closed outer frame
  decided node before truth bound := bound.decided node before truth
  enter built wf bound gives := boundBy_enter built wf bound gives

/-- Over a whole walk every value is one that an entered node accounts for. -/
theorem boundBy_walked {list : List Node} {c c' : ScopeTree × ρ}
    (walked : Walked (visitor externals defaults resolver) library methods list c trace c')
    (wf : c.1.WellFormed)
    (built : ∀ visit ∈ entries trace,
      visit.1.declaration.check visit.1.children = .ok visit.1.expression)
    {past : List Event} (bound : c.1.BoundBy past) : c'.1.BoundBy (past ++ trace) :=
  walked.keeps visitor_extends visitor_keeps_boundBy wf built bound

end Inputs

end Archetype
