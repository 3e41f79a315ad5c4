import Archetype.Proofs.Generation.Consultations
import Archetype.Proofs.Generation.ResolvedInputs
import Archetype.Proofs.Scope.Operations

/-!
Every input is settled when the walk first comes to its scope: the resolver is asked about it there
once, if nothing else supplies it, and never again. Once the inputs of a script are resolved, every
input that was visited is bound, or was skipped and is optional.
-/

namespace Archetype

open Visit (Gives)

namespace ScopeTree

variable {tree : ScopeTree}

theorem isBound_bindAt {id : ScopeId} (bounded : id < tree.size) (value : Value) (origin : Origin) :
    ((tree.bindAt id value origin).node id).isBound = true := by
  rw [bindAt, node_modify_self bounded]
  exact (ScopeNode.settled_bind _ _).bound.2 (List.append_ne_nil_of_right_ne_nil _ (by simp))

theorem isBound_of_hasPreset (wf : tree.WellFormed) {id : ScopeId}
    (preset : (tree.node id).hasPreset = true) : (tree.node id).isBound = true := by
  obtain ⟨v, member, -⟩ := List.any_eq_true.1 preset
  exact (wf.settled id).bound.2 (List.ne_nil_of_mem member)

theorem hasPreset_of_findPreset? {input id : ScopeId} {name : String}
    (found : tree.findPreset? input name = some id) : (tree.node id).hasPreset = true := by
  obtain ⟨around, -, found⟩ := Option.bind_eq_some_iff.1 found
  obtain ⟨start, -, found⟩ := List.exists_of_findSome?_eq_some found
  have accepted := (of_searchLevels found).1
  simp only [Bool.and_eq_true] at accepted
  exact accepted.2.2

end ScopeTree

/-- The resolution of an input between its steps: its scope is marked and bound if there is a
default, and nothing but what this scope holds has changed. -/
structure Resolving (before : ScopeTree) (default : Option Value) (tree : ScopeTree) : Prop where
  frames : tree.frames = before.frames
  places : before.SamePlaces tree
  visited : (tree.node before.current).visited = true
  others : ∀ id, id ≠ before.current → tree.node id = before.node id
  defaulted : default.isSome = true → (tree.node before.current).isBound = true

structure Unasked (before : ScopeTree) (default : Option Value) (tree : ScopeTree)
    (notes : List Consultation) : Prop extends Resolving before default tree where
  unasked : before.current ∉ notes.map Consultation.scope

structure Answered (optional : Bool) (before after : ScopeTree) : Prop where
  others : ∀ id, id ≠ before.current → after.node id = before.node id
  here : (after.node before.current).isBound = true ∨
    (after.node before.current).skipped = true ∧ optional = true

namespace Resolving

variable {before tree : ScopeTree} {default : Option Value}

theorem current (resolving : Resolving before default tree) : tree.current = before.current := by
  rw [ScopeTree.current, ScopeTree.current, resolving.frames]

theorem current_lt (resolving : Resolving before default tree) (wf : tree.WellFormed) :
    before.current < tree.size :=
  resolving.current ▸ wf.current_lt

theorem markVisited (wf : before.WellFormed) :
    Resolving before none (before.markVisited before.current) where
  frames := rfl
  places := .markVisited _
  visited := by rw [ScopeTree.markVisited, ScopeTree.node_modify_self wf.current_lt]
  others id differ := by
    rw [ScopeTree.markVisited, ScopeTree.node_modify, if_neg fun both => differ both.1]
  defaulted := nofun

theorem others_modify (resolving : Resolving before default tree) (f : ScopeNode → ScopeNode)
    (id : ScopeId) (differ : id ≠ before.current) :
    (tree.modify before.current f).node id = before.node id := by
  rw [ScopeTree.node_modify, if_neg fun both => differ both.1, resolving.others id differ]

theorem bindAt (resolving : Resolving before default tree) (wf : tree.WellFormed) (value : Value)
    (origin : Origin) (default' : Option Value) :
    Resolving before default' (tree.bindAt before.current value origin) where
  frames := resolving.frames
  places := resolving.places.trans (.bindAt _ value origin)
  visited := (tree.grows_bindAt before.current value origin).visited resolving.visited
  others := resolving.others_modify _
  defaulted _ := ScopeTree.isBound_bindAt (resolving.current_lt wf) value origin

theorem answered (resolving : Resolving before default tree) (optional : Bool)
    (bound : (tree.node before.current).isBound = true) : Answered optional before tree where
  others := resolving.others
  here := .inl bound

theorem answered_bindAt (resolving : Resolving before default tree) (wf : tree.WellFormed)
    (optional : Bool) (value : Value) (origin : Origin) :
    Answered optional before (tree.bindAt before.current value origin) :=
  (resolving.bindAt wf value origin none).answered optional
    (ScopeTree.isBound_bindAt (resolving.current_lt wf) value origin)

theorem answered_markSkipped (resolving : Resolving before default tree) (wf : tree.WellFormed)
    {optional : Bool} (may : optional = true) :
    Answered optional before (tree.markSkipped before.current) where
  others := resolving.others_modify _
  here := by
    rw [ScopeTree.markSkipped, ScopeTree.node_modify_self (resolving.current_lt wf)]
    cases bound : (tree.node before.current).isBound with
    | true => exact .inl bound
    | false => exact .inr ⟨by simp, may⟩

end Resolving

namespace Inputs

variable {externals defaults : ValueTable} {resolver : Resolver ρ} {request : InputRequest}
  {type : ValueType} {before : ScopeTree}
  {known : ScopeTree → List Consultation → Prop}

theorem asks_bindValid {after : ScopeTree → List Consultation → Prop} {id : ScopeId} {value : Value}
    {origin : Origin}
    (keeps : ∀ tree notes, InOrder externals tree notes → known tree notes →
      after (tree.bindAt id value origin) notes) :
    Asks externals known (bindValid request id value origin : Visit ρ Unit)
      (bindValid request id value origin) fun _ => after :=
  .bind (.ofExcept _) fun _ => .modifyScope fun tree notes ordered holds =>
    ⟨ordered.bindAt id value origin, keeps tree notes ordered holds⟩

theorem asks_bindPreset :
    Asks externals (Unasked before request.default)
      (bindPreset request type before.current : Visit ρ Bool)
      (bindPreset request type before.current) fun hasPreset tree notes =>
        Unasked before request.default tree notes ∧
          if hasPreset then (tree.node before.current).isBound = true
          else (tree.node before.current).hasPreset = false ∧
            tree.findPreset? before.current request.name = none := by
  unfold bindPreset
  refine .scope_bind fun now => ?_
  split
  · next own =>
      refine .pure fun tree notes ordered known => ?_
      obtain ⟨rfl, unasked⟩ := known
      exact ⟨unasked, ScopeTree.isBound_of_hasPreset ordered.wellFormed own⟩
  · next own =>
      split
      · next missing =>
          refine .pure fun tree notes ordered known => ?_
          obtain ⟨rfl, unasked⟩ := known
          refine ⟨unasked, by simpa using own, ?_⟩
          cases found : tree.findPreset? before.current request.name with
          | none => rfl
          | some id =>
              -- The search only accepts scopes with a preset.
              obtain ⟨v, member, origin⟩ :=
                List.any_eq_true.1 (ScopeTree.hasPreset_of_findPreset? found)
              simp only [found, Option.bind_some, presetOf, Option.map_eq_none_iff,
                List.find?_eq_none] at missing
              exact absurd origin (missing v (List.mem_reverse.2 member))
      · refine .bind (.ofExcept _) fun value => .bind (asks_bindValid ?_) fun _ =>
          .pure fun _ _ _ holds => holds
        intro tree notes ordered known
        have resolving := known.2.toResolving.bindAt ordered.wellFormed value .preset
        exact ⟨⟨resolving _, known.2.unasked⟩, (resolving (some value)).defaulted rfl⟩

theorem asks_bindResolved
    (path : request.path = before.inputPath before.current)
    (external : externals.find? (before.inputPath before.current) (before.path before.current) =
      none) (fullPath : String) :
    Asks externals (fun tree notes => Unasked before request.default tree notes ∧
        (tree.node before.current).hasPreset = false ∧
          tree.findPreset? before.current request.name = none)
      (bindResolved resolver request type before.current fullPath)
      (bindResolved resolver.noting request type before.current fullPath) fun _ tree _ =>
        Answered request.optional before tree := by
  unfold bindResolved
  have consults : Asks externals (fun tree notes => Unasked before request.default tree notes ∧
        (tree.node before.current).hasPreset = false ∧
          tree.findPreset? before.current request.name = none)
      (consult resolver request) (consult resolver.noting request) fun _ tree _ =>
        Resolving before request.default tree := by
    intro tree s notes ordered ⟨awaiting, own, nearest⟩
    have current := awaiting.current
    -- Names, places and kinds are as before, so the paths are the ones that were looked up.
    have unsupplied : Consultation.Unsupplied externals ⟨request, tree⟩ := by
      refine ⟨?_, ?_, ?_, ?_⟩ <;> simp only [Consultation.scope, current]
      · rw [path, awaiting.places.inputPath]
      · rw [awaiting.places.inputPath, awaiting.places.path, external]
      · exact own
      · exact nearest
    have noted : InOrder externals tree (notes ++ [⟨request, tree⟩]) :=
      ordered.note (current ▸ awaiting.visited) (current ▸ awaiting.unasked) unsupplied
    have plain : consult resolver request (tree, s) = (resolver request tree s).bind
      fun pair => some (pair.1, (tree, pair.2)) := rfl
    have noting : consult resolver.noting request (tree, (s, notes)) =
      ((resolver request tree s).map fun pair =>
        (pair.1, pair.2, notes ++ [⟨request, tree⟩])).bind fun pair =>
          some (pair.1, (tree, pair.2)) := rfl
    rw [plain, noting]
    cases resolver request tree s with
    | none => exact .outOfBounds
    | some pair =>
        obtain ⟨result, s'⟩ := pair
        cases result with
        | error error => exact .error noted
        | ok resolution => exact .ok noted awaiting.toResolving
  refine .bind consults fun resolution => ?_
  cases resolution with
  | value value =>
      exact .bind (.ofExcept _) fun value => asks_bindValid fun tree notes ordered resolving =>
        resolving.answered_bindAt ordered.wellFormed _ value .user
  | useDefault =>
      simp only
      split
      · next default =>
          exact .pure fun tree notes _ resolving =>
            resolving.answered _ (resolving.defaulted default)
      · exact .throw _
  | skip =>
      simp only
      split
      · next optional =>
          exact .modifyScope fun tree notes ordered resolving =>
            ⟨ordered.of_grows (ordered.wellFormed.markSkipped _) (tree.grows_markSkipped _),
              resolving.answered_markSkipped ordered.wellFormed optional⟩
      · exact .throw _
  | unresolved => exact .throw _

theorem asks_settle (path : request.path = before.inputPath before.current) :
    Asks externals (Unasked before request.default)
      (bindPreset request type before.current >>= settle externals resolver request type
        before.current (before.inputPath before.current) (before.path before.current))
      (bindPreset request type before.current >>= settle externals resolver.noting request type
        before.current (before.inputPath before.current) (before.path before.current))
      fun _ tree _ => Answered request.optional before tree := by
  refine .bind asks_bindPreset fun hasPreset => ?_
  unfold settle
  cases external : externals.find? (before.inputPath before.current)
      (before.path before.current) with
  | some value =>
      exact .bind (.ofExcept _) fun value => asks_bindValid fun tree notes ordered known =>
        known.1.answered_bindAt ordered.wellFormed _ value .external
  | none =>
      cases hasPreset with
      | true => exact .pure fun tree notes _ known => known.1.answered _ known.2
      | false => exact asks_bindResolved path external _

/-- An input is passed over in a scope that was visited; in any other it is settled. -/
theorem asks_resolveInput (node : Node) :
    Asks externals (fun tree _ => tree = before) (resolveInput externals defaults resolver node)
      (resolveInput externals defaults resolver.noting node) fun _ tree _ =>
        ((before.node before.current).visited = true ∧ tree = before) ∨
          ((before.node before.current).visited = false ∧
            Answered node.declaration.isOptional before tree) := by
  unfold resolveInput
  refine .scope_bind_of_eq ?_
  simp only
  split
  · next seen => exact .pure fun tree _ _ same => .inl ⟨seen, same⟩
  · next unseen =>
      have marks : Asks externals (fun tree _ => tree = before)
          (Visit.modifyScope (·.markVisited before.current) : Visit ρ Unit)
          (Visit.modifyScope (·.markVisited before.current)) fun _ => Unasked before none := by
        refine .modifyScope fun tree notes ordered same => ?_
        subst same
        refine ⟨ordered.of_grows (ordered.wellFormed.markVisited _) (tree.grows_markVisited _),
          .markVisited ordered.wellFormed, fun asked => unseen ?_⟩
        -- A scope that was asked about was visited.
        obtain ⟨note, member, same⟩ := List.mem_map.1 asked
        exact same ▸ ordered.visited note member
      refine .bind marks fun _ => .bind (.ofExcept _) fun default => ?_
      have unvisited : (before.node before.current).visited = false := by simpa using unseen
      cases default with
      | some value =>
          refine .bind (asks_bindValid fun tree notes ordered unasked => ?_) fun _ =>
            (asks_settle rfl).imp (fun _ _ unasked => unasked) fun _ _ _ answered =>
              .inr ⟨unvisited, answered⟩
          exact ⟨unasked.toResolving.bindAt ordered.wellFormed value .default _, unasked.unasked⟩
      | none =>
          exact (asks_settle rfl).imp (fun _ _ unasked => unasked) fun _ _ _ answered =>
            .inr ⟨unvisited, answered⟩

theorem asks_bindDeclared (origin : Origin) (name : String) (value : Value) :
    Asks externals (fun _ _ => True) (bindDeclared origin name value : Visit ρ Unit)
      (bindDeclared origin name value) fun _ _ _ => True := by
  unfold bindDeclared
  refine .scope_bind fun now => .bind (.ofExcept _) fun value => ?_
  refine .setScope fun tree notes ordered known => ?_
  obtain ⟨rfl, -⟩ := known
  exact ⟨(ordered.of_grows (ordered.wellFormed.declare name)
    (tree.grows_ensureChild _ name .value)).bindAt _ value origin, trivial⟩

/-- A walk goes on in the same way if the resolver notes what it is asked, and its notes stay in
order. -/
theorem visitor_related :
    (visitor externals defaults resolver).Related (visitor externals defaults resolver.noting)
      fun work noting => Asks externals (fun _ _ => True) work noting fun _ _ _ => True where
  enter node := by
    simp only [visitor]
    split
    · intro tree s notes ordered _
      exact (asks_resolveInput node).imp (fun _ _ same => same) (fun _ _ _ _ => trivial) tree s
        notes ordered rfl
    · split
      · exact asks_bindDeclared .preset _ _
      · exact asks_bindDeclared .default _ _
      · exact .pure fun _ _ _ _ => trivial
  leave node := .pure fun _ _ _ _ => trivial
  pure := .pure fun _ _ _ _ => trivial
  throw error := .throw error
  outOfBounds := fun _ _ _ _ _ => .outOfBounds
  bind first rest := .bind first fun _ => rest
  within name frame inner := inner.within name frame
  condition node inner := inner.condition node

variable {library : Library}

theorem asks_resolveInputs (limit : Nat) (root : Node) :
    Asks externals (fun _ _ => True) (resolveInputs externals defaults resolver library limit root)
      (resolveInputs externals defaults resolver.noting library limit root) fun _ _ _ => True :=
  .bind (visitor_related.walk library limit [] root) fun _ => .scope_bind fun _ =>
    (Asks.ofExcept _).imp (fun _ _ known => known) fun _ _ _ _ => trivial

end Inputs

/-! What is left of inputs that were visited. -/

/-- The scopes that were visited are those of the inputs that were entered. The first input of each
is bound, or is optional and was skipped. -/
structure ScopeTree.AnsweredBy (tree : ScopeTree) (visits : List (Node × ScopeId)) : Prop where
  visited : ∀ id first, firstInput? visits id = some first → (tree.node id).visited = true
  answered : ∀ id, (tree.node id).visited = true → ∃ first, firstInput? visits id = some first ∧
    ((tree.node id).isBound = true ∨
      (tree.node id).skipped = true ∧ first.declaration.isOptional = true)

namespace ScopeTree.AnsweredBy

variable {tree later : ScopeTree} {visits : List (Node × ScopeId)}

theorem init : AnsweredBy {} [] where
  visited id first entered := by cases entered
  answered id visited := by
    have untouched : (({} : ScopeTree).node id).visited = false := by
      cases id with
      | zero => rfl
      | succ id => rw [node_of_size_le (Nat.le_add_left 1 id)]
    simp [untouched] at visited

theorem of_sameContent (answered : tree.AnsweredBy visits)
    (same : ∀ id, (tree.node id).SameContent (later.node id)) : later.AnsweredBy visits where
  visited id first entered := (same id).visited.trans (answered.visited id first entered)
  answered id visited := by
    simp only [ScopeNode.isBound, (same id).inEffect, (same id).skipped]
    exact answered.answered id ((same id).visited ▸ visited)

theorem opened (answered : tree.AnsweredBy visits) (frame : Option (String × FrameKind)) :
    (tree.opened frame).AnsweredBy visits := by
  cases frame with
  | none => exact answered
  | some frame => exact answered.of_sameContent fun id => sameContent_ensureChild _ _ _ id

theorem closed (answered : tree.AnsweredBy visits) (outer : ScopeTree)
    (frame : Option (String × FrameKind)) : (outer.closed tree frame).AnsweredBy visits := by
  cases frame <;> exact answered.of_sameContent fun _ => ⟨rfl, rfl, rfl, rfl⟩

theorem bindAt (answered : tree.AnsweredBy visits) (id : ScopeId) (value : Value)
    (origin : Origin) : (tree.bindAt id value origin).AnsweredBy visits := by
  have visited : ∀ other,
      ((tree.bindAt id value origin).node other).visited = (tree.node other).visited := by
    intro other
    rw [ScopeTree.bindAt, node_modify]
    split <;> rfl
  refine ⟨fun other first entered => (visited other).trans (answered.visited other first entered),
    fun other seen => ?_⟩
  obtain ⟨first, entered, settled⟩ := answered.answered other (visited other ▸ seen)
  refine ⟨first, entered, ?_⟩
  by_cases here : other = id ∧ id < tree.size
  · obtain ⟨rfl, bounded⟩ := here
    exact .inl (isBound_bindAt bounded value origin)
  · rwa [ScopeTree.bindAt, node_modify, if_neg here]

/-- Entering further nodes makes no difference if they are not the first inputs of their scopes. -/
theorem of_firstInput? (answered : tree.AnsweredBy visits) {more : List (Node × ScopeId)}
    (same : ∀ id, firstInput? more id = firstInput? visits id) : tree.AnsweredBy more where
  visited id first entered := answered.visited id first (same id ▸ entered)
  answered id visited := (same id).symm ▸ answered.answered id visited

theorem requireResolved (answered : tree.AnsweredBy visits) : tree.requireResolved = .ok () := by
  have none : tree.unresolved = [] := by
    refine List.filter_eq_nil_iff.2 fun id _ open' => ?_
    simp only [Bool.and_eq_true, Bool.not_eq_true'] at open'
    obtain ⟨⟨⟨-, visited⟩, unbound⟩, unskipped⟩ := open'
    obtain ⟨first, -, bound | ⟨skipped, -⟩⟩ := answered.answered id visited
    · simp [bound] at unbound
    · simp [skipped] at unskipped
  rw [ScopeTree.requireResolved, none]

end ScopeTree.AnsweredBy

namespace Inputs

variable {externals defaults : ValueTable} {resolver : Resolver ρ} {library : Library}
  {visits : List (Node × ScopeId)}

theorem answeredBy_resolveInput {node : Node} (input : node.kind.isInput = true)
    {c c' : ScopeTree × ρ} (wf : c.1.WellFormed) (answered : c.1.AnsweredBy visits)
    (gives : Gives (resolveInput externals defaults resolver node) c () c') :
    c'.1.AnsweredBy (visits ++ [(node, c.1.current)]) := by
  have ordered : InOrder externals c.1 [] := ⟨wf, by simp, .nil, by simp⟩
  have seen := visited_resolveInput wf gives
  obtain ⟨_, ⟨earlier, same⟩ | ⟨unseen, settled⟩⟩ :=
    (asks_resolveInput node).of_gives gives ordered rfl
  · rw [same]
    refine answered.of_firstInput? fun id => ?_
    rw [firstInput?_append, firstInput?_singleton]
    by_cases here : c.1.current = id
    · -- Another input was entered here first.
      obtain ⟨first, entered, -⟩ := answered.answered _ earlier
      rw [← here, entered, Option.some_or]
    · simp [here]
  · have first : firstInput? visits c.1.current = none := by
      cases entered : firstInput? visits c.1.current with
      | none => rfl
      | some first => simp [answered.visited _ first entered] at unseen
    have entered : ∀ id, firstInput? (visits ++ [(node, c.1.current)]) id =
        if id = c.1.current then some node else firstInput? visits id := by
      intro id
      rw [firstInput?_append, firstInput?_singleton]
      by_cases here : id = c.1.current
      · simp [here, first, input]
      · simp [here, Ne.symm here]
    refine ⟨fun id other isFirst => ?_, fun id visited => ?_⟩
    · rw [entered] at isFirst
      by_cases here : id = c.1.current
      · exact here ▸ seen
      · rw [if_neg here] at isFirst
        rw [settled.others id here]
        exact answered.visited id other isFirst
    · rw [entered]
      by_cases here : id = c.1.current
      · rw [if_pos here, here]
        exact ⟨node, rfl, settled.here⟩
      · rw [if_neg here]
        rw [settled.others id here] at visited ⊢
        exact answered.answered id visited

theorem answeredBy_bindDeclared {origin : Origin} {name : String} {value : Value}
    {c c' : ScopeTree × ρ} (answered : c.1.AnsweredBy visits)
    (gives : Gives (bindDeclared origin name value) c () c') : c'.1.AnsweredBy visits := by
  unfold bindDeclared at gives
  obtain ⟨tree, between, scope, gives⟩ := Visit.gives_bind.1 gives
  obtain ⟨rfl, rfl⟩ := Visit.gives_scope.1 scope
  obtain ⟨value, here, interpolated, gives⟩ := Visit.gives_bind.1 gives
  obtain ⟨-, rfl⟩ := Visit.gives_ofExcept.1 interpolated
  obtain rfl := Visit.gives_setScope.1 gives
  have declared := answered.of_sameContent fun id =>
    ScopeTree.sameContent_ensureChild here.1.current name .value id
  exact declared.bindAt _ value origin

theorem visitor_keeps_answeredBy :
    (visitor externals defaults resolver).Keeps (fun _ => True)
      fun tree past => tree.AnsweredBy (entries past) where
  opened frame answered := answered.opened frame
  closed outer frame answered := answered.closed outer frame
  decided node before truth answered := by simpa using answered
  enter {node c c' past} _ wf answered gives := by
    simp only [entries_append, entries_entered, entries_nil]
    simp only [visitor] at gives
    split at gives
    · next input => exact answeredBy_resolveInput input wf answered gives
    · next other =>
        have unchanged : c'.1.AnsweredBy (entries past) := by
          split at gives
          · exact answeredBy_bindDeclared answered gives
          · exact answeredBy_bindDeclared answered gives
          · obtain ⟨-, rfl⟩ := Visit.gives_pure.1 gives
            exact answered
        refine unchanged.of_firstInput? fun id => ?_
        rw [firstInput?_append, firstInput?_singleton]
        simp [other]

/-- Once a walk has ended without an error, every visited input is bound, or was skipped and is
optional. -/
theorem exists_answered {limit : Nat} {root : Node} {s s' : ρ} {tree : ScopeTree}
    (walks : Gives (walk (visitor externals defaults resolver) library limit [] root) ({}, s) ()
      (tree, s')) :
    ∃ trace, Walked (visitor externals defaults resolver) library (Methods.declare [] root) [root]
      ({}, s) trace (tree, s') ∧ tree.AnsweredBy (entries trace) := by
  obtain ⟨trace, walked⟩ := exists_walked walks
  have unentered : ({} : ScopeTree).AnsweredBy (entries []) := .init
  have answered := walked.keeps visitor_extends visitor_keeps_answeredBy .init
    (fun _ _ => trivial) unentered
  exact ⟨trace, walked, answered⟩

end Inputs

namespace Generator

variable {generator : Generator} {resolver : Resolver ρ} {renderer : Renderer τ} {limit : Nat}
  {root : Node}

/-- What the later passes and the renderer make of resolved inputs. No resolver takes part. -/
def produce (generator : Generator) (renderer : Renderer τ) (limit : Nat) (root : Node)
    (rendering : τ) (scope : ScopeTree) : Option (Except RunError Report × τ) := do
  match ← assembleModel generator.library limit root scope with
  | (.error error, _) => return (.error error, rendering)
  | (.ok model, scope) =>
      let model := model.sort
      match ← collectOutputs generator.library limit root scope with
      | (.error error, _) => return (.error error, rendering)
      | (.ok outputs, scope) =>
          let (rendered, rendering) := renderer model outputs rendering
          return (rendered.map fun () => { root, scope, model, outputs }, rendering)

theorem passes_eq (resolving : ρ) (rendering : τ) :
    generator.passes resolver renderer limit root resolving rendering =
      (resolveInputs generator.externals generator.defaults resolver generator.library limit root
        ({}, resolving)).bind fun (resolved, scope, resolving) =>
          match resolved with
          | .error error => some (.error error, resolving, rendering)
          | .ok () => (generator.produce renderer limit root rendering scope).map
              fun (result, rendering) => (result, resolving, rendering) := by
  unfold passes produce
  cases first : resolveInputs generator.externals generator.defaults resolver generator.library
      limit root ({}, resolving) with
  | none => rfl
  | some outcome =>
      obtain ⟨resolved, scope, resolving'⟩ := outcome
      cases resolved with
      | error error => rfl
      | ok _ =>
          simp only [Option.bind_eq_bind, Option.bind_some]
          cases assembleModel generator.library limit root scope with
          | none => rfl
          | some outcome =>
              obtain ⟨result, assembled⟩ := outcome
              cases result with
              | error error => rfl
              | ok model =>
                  simp only [Option.bind_some]
                  cases collectOutputs generator.library limit root assembled with
                  | none => rfl
                  | some outcome =>
                      obtain ⟨result, final⟩ := outcome
                      cases result <;> rfl

def withoutNotes : α × (ρ × List Consultation) × τ → α × ρ × τ :=
  fun (result, (resolving, _), rendering) => (result, resolving, rendering)

/-- The notes that passes leave are those of the first of them. -/
theorem passes_noting (resolving : ρ) (rendering : τ) :
    generator.passes resolver renderer limit root resolving rendering =
      (generator.passes resolver.noting renderer limit root (resolving, []) rendering).map
        withoutNotes ∧
    ∀ result resolving' notes rendering',
      generator.passes resolver.noting renderer limit root (resolving, []) rendering =
          some (result, (resolving', notes), rendering') →
        ∃ resolved tree,
          resolveInputs generator.externals generator.defaults resolver.noting generator.library
            limit root ({}, (resolving, [])) = some (resolved, (tree, (resolving', notes))) ∧
          InOrder generator.externals tree notes := by
  have outcome := @Inputs.asks_resolveInputs ρ generator.externals generator.defaults resolver
    generator.library limit root {} resolving [] .init trivial
  rw [passes_eq, passes_eq]
  generalize resolveInputs generator.externals generator.defaults resolver generator.library limit
    root ({}, resolving) = plain at outcome ⊢
  generalize resolveInputs generator.externals generator.defaults resolver.noting generator.library
    limit root ({}, (resolving, [])) = noted at outcome ⊢
  -- What follows the first pass is the same on both sides and knows no resolver.
  cases outcome with
  | outOfBounds =>
      refine ⟨rfl, fun result resolving' notes rendering' ends => ?_⟩
      cases ends
  | error ordered =>
      refine ⟨rfl, fun result resolving' notes rendering' ends => ?_⟩
      cases ends
      exact ⟨_, _, rfl, ordered⟩
  | @ok _ tree _ notes ordered _ =>
      simp only [Option.bind_some]
      cases generator.produce renderer limit root rendering tree with
      | none =>
          refine ⟨rfl, fun result resolving' notes rendering' ends => ?_⟩
          cases ends
      | some produced =>
          refine ⟨rfl, fun result resolving' notes rendering' ends => ?_⟩
          cases ends
          exact ⟨_, _, rfl, ordered⟩

theorem run_of_error {next : NodeId} {error : CompileError}
    (fails : generator.tree next = .error error) (resolving : ρ) (rendering : τ) :
    generator.run resolver renderer limit next resolving rendering =
      some (.error (.compile error), resolving, rendering) := by
  rw [run, fails]

theorem run_of_ok {next : NodeId} (compiles : generator.tree next = .ok root) (resolving : ρ)
    (rendering : τ) :
    generator.run resolver renderer limit next resolving rendering =
      (generator.passes resolver renderer limit root resolving rendering).map
        fun (result, states) => (result.mapError .run, states) := by
  rw [run, compiles]
  simp only
  cases generator.passes resolver renderer limit root resolving rendering <;> rfl

/-- A run goes on in the same way if the resolver notes what it is asked. However the run ends, the
notes are about different scopes, none of them about an input that has an external value or a
preset, and they were all made in the first pass. If the first walk succeeds, every input that it
visited is bound, or was skipped and is optional, so none is reported as unresolved. -/
theorem inputs_asked_once (generator : Generator) (resolver : Resolver ρ) (renderer : Renderer τ)
    (limit : Nat) (next : NodeId) (resolving : ρ) (rendering : τ) :
    generator.run resolver renderer limit next resolving rendering =
      (generator.run resolver.noting renderer limit next (resolving, []) rendering).map
        withoutNotes ∧
    (∀ result resolving' notes rendering',
      generator.run resolver.noting renderer limit next (resolving, []) rendering =
          some (result, (resolving', notes), rendering') →
        (notes.map Consultation.scope).Nodup ∧
        (∀ note ∈ notes, note.Unsupplied generator.externals) ∧
        ∀ root, generator.tree next = .ok root → ∃ resolved tree,
          resolveInputs generator.externals generator.defaults resolver.noting generator.library
            limit root ({}, (resolving, [])) = some (resolved, (tree, (resolving', notes)))) ∧
    ∀ root tree resolving', generator.tree next = .ok root →
      Gives (walk (Inputs.visitor generator.externals generator.defaults resolver)
        generator.library limit [] root) ({}, resolving) () (tree, resolving') →
        tree.requireResolved = .ok () ∧ ∃ trace,
          Walked (Inputs.visitor generator.externals generator.defaults resolver) generator.library
            (Methods.declare [] root) [root] ({}, resolving) trace (tree, resolving') ∧
          tree.AnsweredBy (entries trace) := by
  refine ⟨?_, fun result resolving' notes rendering' ends => ?_,
    fun root tree resolving' _ walks => ?_⟩
  · cases compiled : generator.tree next with
    | error error =>
        rw [run_of_error compiled, run_of_error compiled]
        rfl
    | ok root =>
        rw [run_of_ok compiled, run_of_ok compiled, (passes_noting resolving rendering).1,
          Option.map_map, Option.map_map]
        rfl
  · cases compiled : generator.tree next with
    | error error =>
        rw [run_of_error compiled] at ends
        cases ends
        exact ⟨.nil, by simp, nofun⟩
    | ok root =>
        rw [run_of_ok compiled] at ends
        obtain ⟨⟨_, _⟩, passes, same⟩ := Option.map_eq_some_iff.1 ends
        cases same
        obtain ⟨resolved, tree, first, ordered⟩ :=
          (passes_noting resolving rendering).2 _ _ _ _ passes
        refine ⟨ordered.once, ordered.unsupplied, fun other same => ?_⟩
        cases same
        exact ⟨resolved, tree, first⟩
  · obtain ⟨trace, walked, answered⟩ := Inputs.exists_answered walks
    exact ⟨answered.requireResolved, trace, walked, answered⟩

def coloring : Generator where
  script :=
    { identity := "colors"
      root := Inputs.colorScript
        [Inputs.colorStep [Inputs.colorInput "red", Inputs.colorInput "blue"]] }

/-- Two inputs in one scope are asked about once. -/
theorem inputs_asked_once_of_shared_scope : ∃ result note,
    coloring.run (Resolver.noting fun _ _ => pure (.value (.string "red"))) (fun _ _ => pure ()) 1
        ⟨20⟩ ((), []) () = some (result, ((), [note]), ()) ∧
      note.scope = 2 ∧ note.Unsupplied [] := by
  have ends : (coloring.run (Resolver.noting fun _ _ => pure (.value (.string "red")))
      (fun _ _ => pure ()) 1 ⟨20⟩ ((), []) ()).any fun (_, (_, notes), _) =>
        decide (notes.map Consultation.scope = [2]) := by
    decide +kernel
  obtain ⟨-, asked, -⟩ := inputs_asked_once coloring (fun _ _ => pure (.value (.string "red")))
    (fun _ _ => pure ()) 1 ⟨20⟩ () ()
  cases outcome : coloring.run (Resolver.noting fun _ _ => pure (.value (.string "red")))
      (fun _ _ => pure ()) 1 ⟨20⟩ ((), []) () with
  | none => simp [outcome] at ends
  | some triple =>
      obtain ⟨result, ⟨_, notes⟩, _⟩ := triple
      obtain ⟨-, unsupplied, -⟩ := asked _ _ _ _ outcome
      simp only [outcome, Option.any_some, decide_eq_true_eq] at ends
      obtain ⟨note, rfl, scope⟩ := List.map_eq_singleton_iff.1 ends
      exact ⟨result, note, rfl, scope, unsupplied note (List.mem_singleton_self note)⟩

end Generator

end Archetype
