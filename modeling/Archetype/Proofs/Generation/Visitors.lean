import Archetype.Generation.Assembly
import Archetype.Generation.Inputs
import Archetype.Generation.Outputs
import Archetype.Proofs.Walk.Extension

/-!
What the visitors of the three passes do to the scope tree: input resolution only lets it grow, and
the other two passes only look at it.
-/

namespace Archetype

/-- A relation between a scope tree and what it becomes as values are bound and scopes marked. -/
structure ScopeTree.Binding (R : ScopeTree → ScopeTree → Prop) : Prop where
  refl : ∀ tree, R tree tree
  trans : ∀ {a b c}, R a b → R b c → R a c
  bindAt : ∀ tree id value origin, R tree (tree.bindAt id value origin)
  markVisited : ∀ tree id, R tree (tree.markVisited id)
  markSkipped : ∀ tree id, R tree (tree.markSkipped id)
  declare : ∀ tree name, R tree (tree.declare name).2

namespace Visit

/-- Work that takes the scope tree to a related one, also when it fails. -/
def Carries (R : ScopeTree → ScopeTree → Prop) (work : Visit σ α) : Prop :=
  ∀ ⦃c result c'⦄, work c = some (result, c') → R c.1 c'.1

variable {R : ScopeTree → ScopeTree → Prop}

theorem carries_modifyScope {f : ScopeTree → ScopeTree} (related : ∀ tree, R tree (f tree)) :
    Carries R (modifyScope f : Visit σ Unit) := by
  intro c result c' ended
  cases ended
  exact related c.1

variable (binding : ScopeTree.Binding R)
include binding

theorem carries_throw (error : RunError) : Carries R (throw error : Visit σ α) := by
  intro c result c' ended
  cases ended
  exact binding.refl _

theorem carries_pure (value : α) : Carries R (pure value : Visit σ α) := by
  intro c result c' ended
  cases ended
  exact binding.refl _

theorem carries_scope : Carries R (scope : Visit σ ScopeTree) := by
  intro c result c' ended
  cases ended
  exact binding.refl _

theorem carries_ofExcept (result : Except RunError α) :
    Carries R (Bounded.ofExcept result : Visit σ α) := by
  intro c result c' ended
  cases ended
  exact binding.refl _

theorem carries_bind {work : Visit σ α} {next : α → Visit σ β} (first : Carries R work)
    (rest : ∀ value, Carries R (next value)) : Carries R (work >>= next) := by
  intro c result c' ended
  rw [bind_eq] at ended
  obtain ⟨⟨outcome, between⟩, worked, ended⟩ := Option.bind_eq_some_iff.1 ended
  cases outcome with
  | error error =>
      cases ended
      exact first worked
  | ok value => exact binding.trans (first worked) (rest value ended)

end Visit

open Visit

namespace Inputs

variable {externals defaults : ValueTable} {resolver : Resolver ρ}
  {R : ScopeTree → ScopeTree → Prop} (binding : ScopeTree.Binding R)
include binding

theorem carries_consult (request : InputRequest) : Carries R (consult resolver request) := by
  intro c result c' ended
  have unfolded : consult resolver request c = (resolver request c.1 c.2).bind fun pair =>
      some (pair.1, (c.1, pair.2)) := rfl
  rw [unfolded] at ended
  obtain ⟨pair, -, same⟩ := Option.bind_eq_some_iff.1 ended
  cases same
  exact binding.refl _

theorem carries_bindValid (request : InputRequest) (id : ScopeId) (value : Value)
    (origin : Origin) : Carries R (bindValid request id value origin : Visit σ Unit) :=
  carries_bind binding (carries_ofExcept binding _) fun _ =>
    carries_modifyScope fun tree => binding.bindAt tree id value origin

theorem carries_bindPreset (request : InputRequest) (type : ValueType) (id : ScopeId) :
    Carries R (bindPreset request type id : Visit σ Bool) := by
  unfold bindPreset
  refine carries_bind binding (carries_scope binding) fun tree => ?_
  split
  · exact carries_pure binding true
  · split
    · exact carries_pure binding false
    · exact carries_bind binding (carries_ofExcept binding _) fun value =>
        carries_bind binding (carries_bindValid binding request id value .preset) fun _ =>
          carries_pure binding true

theorem carries_bindResolved (request : InputRequest) (type : ValueType) (id : ScopeId)
    (fullPath : String) : Carries R (bindResolved resolver request type id fullPath) := by
  unfold bindResolved
  refine carries_bind binding (carries_consult binding request) fun resolution => ?_
  cases resolution with
  | value value =>
      exact carries_bind binding (carries_ofExcept binding _) fun value =>
        carries_bindValid binding request id value .user
  | useDefault =>
      simp only
      split
      · exact carries_pure binding ()
      · exact carries_throw binding _
  | skip =>
      simp only
      split
      · exact carries_modifyScope fun tree => binding.markSkipped tree id
      · exact carries_throw binding _
  | unresolved => exact carries_throw binding _

def settle (externals : ValueTable) (resolver : Resolver ρ) (request : InputRequest)
    (type : ValueType) (id : ScopeId) (inputPath fullPath : String) (hasPreset : Bool) :
    Visit ρ Unit :=
  match externals.find? inputPath fullPath with
  | some value => do bindValid request id (← Bounded.ofExcept (value.coerce type)) .external
  | none => if hasPreset then pure () else bindResolved resolver request type id fullPath

theorem carries_settle (request : InputRequest) (type : ValueType) (id : ScopeId)
    (inputPath fullPath : String) (hasPreset : Bool) :
    Carries R (settle externals resolver request type id inputPath fullPath hasPreset) := by
  unfold settle
  split
  · exact carries_bind binding (carries_ofExcept binding _) fun value =>
      carries_bindValid binding _ _ _ _
  · split
    · exact carries_pure binding ()
    · exact carries_bindResolved binding _ _ _ _

/-- An input is passed over in a scope where one was walked before, and otherwise the scope is
marked first. -/
theorem marks_resolveInput {node : Node} {c c' : ScopeTree × ρ} {result : Except RunError Unit}
    (ended : resolveInput externals defaults resolver node c = some (result, c')) :
    ((c.1.node c.1.current).visited = true ∧ c' = c) ∨
      R (c.1.markVisited c.1.current) c'.1 := by
  unfold resolveInput at ended
  rw [bind_eq] at ended
  obtain ⟨⟨_, _⟩, scope, ended⟩ := Option.bind_eq_some_iff.1 ended
  cases scope
  simp only at ended
  split at ended
  · next seen =>
      cases ended
      exact .inl ⟨seen, rfl⟩
  · rw [bind_eq] at ended
    obtain ⟨⟨_, marked⟩, marks, ended⟩ := Option.bind_eq_some_iff.1 ended
    cases marks
    refine .inr ?_
    refine carries_bind binding (carries_ofExcept binding _) (fun default => ?_) ended
    -- What follows the default is the same with a default and without one.
    have further := fun request type id fullPath =>
      carries_bind binding (carries_bindPreset binding request type id) fun hasPreset =>
        @carries_settle ρ externals resolver R binding request type id
          (c.1.inputPath c.1.current) fullPath hasPreset
    split
    · exact carries_bind binding (carries_bindValid binding _ _ _ _) fun _ => further _ _ _ _
    · exact further _ _ _ _

theorem carries_resolveInput (node : Node) :
    Carries R (resolveInput externals defaults resolver node) := by
  intro c result c' ended
  rcases marks_resolveInput binding ended with ⟨-, rfl⟩ | marked
  · exact binding.refl _
  · exact binding.trans (binding.markVisited _ _) marked

theorem carries_bindDeclared (origin : Origin) (name : String) (value : Value) :
    Carries R (bindDeclared origin name value : Visit σ Unit) := by
  intro c result c' ended
  unfold bindDeclared at ended
  rw [bind_eq] at ended
  obtain ⟨⟨_, _⟩, scope, ended⟩ := Option.bind_eq_some_iff.1 ended
  cases scope
  simp only at ended
  rw [bind_eq] at ended
  obtain ⟨⟨interpolated, between⟩, outcome, ended⟩ := Option.bind_eq_some_iff.1 ended
  have kept := carries_ofExcept binding _ outcome
  cases interpolated with
  | error error =>
      cases ended
      exact kept
  | ok value =>
      cases ended
      exact binding.trans (binding.declare _ name) (binding.bindAt _ _ value origin)

theorem visitor_carries (node : Node) :
    Carries R ((visitor externals defaults resolver).enter node) := by
  simp only [visitor]
  split
  · exact carries_resolveInput binding node
  · split
    · exact carries_bindDeclared binding .preset _ _
    · exact carries_bindDeclared binding .default _ _
    · exact carries_pure binding ()

omit binding

theorem binding_extends :
    ScopeTree.Binding fun before after => before.WellFormed → before.Extends after where
  refl _ wf := .refl wf
  trans first second wf := (first wf).trans (second (first wf).wellFormed)
  bindAt tree id value origin wf :=
    ⟨wf.bindAt id value origin, tree.grows_bindAt id value origin, rfl⟩
  markVisited tree id wf := ⟨wf.markVisited id, tree.grows_markVisited id, rfl⟩
  markSkipped tree id wf := ⟨wf.markSkipped id, tree.grows_markSkipped id, rfl⟩
  declare _ name wf :=
    ⟨wf.declare name, ScopeTree.grows_ensureChild _ name .value,
      ScopeTree.frames_ensureChild _ name .value⟩

theorem resolveInput_cases {node : Node} {c c' : ScopeTree × ρ} (wf : c.1.WellFormed)
    (gives : Gives (resolveInput externals defaults resolver node) c () c') :
    ((c.1.node c.1.current).visited = true ∧ c' = c) ∨
      (c.1.markVisited c.1.current).Extends c'.1 :=
  (marks_resolveInput binding_extends gives).imp_right fun marked => marked (wf.markVisited _)

theorem visitor_extends : (visitor externals defaults resolver).Extends where
  enter entered wf := visitor_carries binding_extends _ entered wf
  leave := by
    intro node c c' gives
    obtain ⟨_, rfl⟩ := gives_pure.1 gives
    rfl

end Inputs

namespace Visit

/-- Work that only looks at the scope tree, also when it fails. -/
def Looking (work : Visit σ α) : Prop := ∀ ⦃c result c'⦄, work c = some (result, c') → c'.1 = c.1

theorem looking_pure (value : α) : Looking (pure value : Visit σ α) := by
  intro c result c' ended
  cases ended
  rfl

theorem looking_scope : Looking (scope : Visit σ ScopeTree) := by
  intro c result c' ended
  cases ended
  rfl

theorem looking_ofExcept (result : Except RunError α) :
    Looking (Bounded.ofExcept result : Visit σ α) := by
  intro c result c' ended
  cases ended
  rfl

theorem looking_state : Looking (state : Visit σ σ) := by
  intro c result c' ended
  cases ended
  rfl

theorem looking_setState (s : σ) : Looking (setState s : Visit σ Unit) := by
  intro c result c' ended
  cases ended
  rfl

theorem looking_bind {work : Visit σ α} {next : α → Visit σ β} (first : Looking work)
    (rest : ∀ value, Looking (next value)) : Looking (work >>= next) := by
  intro c result c' ended
  rw [bind_eq] at ended
  obtain ⟨⟨outcome, between⟩, worked, ended⟩ := Option.bind_eq_some_iff.1 ended
  cases outcome with
  | error error =>
      cases ended
      exact first worked
  | ok value => exact (rest value ended).trans (first worked)

def Reading (work : Visit σ α) : Prop := ∀ ⦃c value c'⦄, Gives work c value c' → c'.1 = c.1

theorem Looking.reading {work : Visit σ α} (looking : Looking work) : Reading work :=
  fun _ _ _ gives => looking gives

theorem reading_pure (value : α) : Reading (pure value : Visit σ α) := (looking_pure value).reading

theorem reading_scope : Reading (scope : Visit σ ScopeTree) := looking_scope.reading

end Visit

structure Visitor.Looks (visitor : Visitor σ) : Prop where
  enter : ∀ node, Looking (visitor.enter node)
  leave : ∀ node, Looking (visitor.leave node)

theorem Visitor.Looks.reads {visitor : Visitor σ} (looks : visitor.Looks) : visitor.Reads where
  enter entered := looks.enter _ entered
  leave left := looks.leave _ left

namespace Assembly

theorem looking_update (f : Assembling → Assembling) : Looking (update f) :=
  looking_bind looking_state fun _ => looking_setState _

theorem looking_enterRoot (node : Node) (key : String) (value : Option Value) :
    Looking (enterRoot node key value) := by
  unfold enterRoot
  split
  · split
    · exact looking_pure ()
    · exact looking_update _
  · exact looking_pure ()

theorem looking_enterValue (node : Node) : Looking (enterValue node) := by
  unfold enterValue
  split
  · exact looking_pure ()
  · exact looking_bind looking_scope fun _ =>
      looking_bind (looking_ofExcept _) fun _ => looking_update _

theorem visitor_looks : visitor.Looks where
  enter node := by
    simp only [visitor]
    split
    · exact looking_update _
    · exact looking_update _
    · exact looking_enterValue node
    · split
      · exact looking_bind looking_scope fun _ => looking_enterRoot _ _ _
      · exact looking_pure ()
    · split
      · exact looking_bind looking_scope fun _ => looking_enterRoot _ _ _
      · exact looking_pure ()
  leave node := by
    simp only [visitor]
    split
    · exact looking_update _
    · exact looking_update _
    · exact looking_pure ()

theorem visitor_reads : visitor.Reads := visitor_looks.reads

end Assembly

namespace Outputs

theorem visitor_looks : visitor.Looks where
  enter node := by
    simp only [visitor]
    split
    · exact looking_bind looking_scope fun _ => looking_bind (looking_ofExcept _) fun _ =>
        looking_bind looking_state fun _ => looking_setState _
    · exact looking_pure ()
  leave _ := looking_pure ()

theorem visitor_reads : visitor.Reads := visitor_looks.reads

end Outputs

end Archetype
