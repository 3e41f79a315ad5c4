import Archetype.Proofs.Walk.Trace

/-!
The forest of a walk: the entered nodes, each with what is entered before it is left. A visitor that
only looks at the scope tree has no say in it, so the forest is given by the script alone, and what
such a visitor ends with is its own work replayed over the forest.
-/

namespace Archetype

/-- Entered nodes, each with the scope tree it is entered in, what is entered before it is left, and
what is entered after it beside it. -/
inductive Forest where
  | nil
  | visit (node : Node) (tree : ScopeTree) (inside later : Forest)

inductive Visits (library : Library) :
    Methods → List Node → ScopeTree → Forest → ScopeTree → Prop
  | nil : Visits library methods [] tree .nil tree
  | declaration (role : node.role = .declaration)
      (rest : Visits library methods nodes tree later tree') :
      Visits library methods (node :: nodes) tree later tree'
  | untaken (role : node.role = .condition) (holds : node.holdsIn tree = .ok false)
      (rest : Visits library methods nodes tree later tree') :
      Visits library methods (node :: nodes) tree later tree'
  | taken (role : node.role = .condition) (holds : node.holdsIn tree = .ok true)
      (below : Visits library methods node.children tree inside worked)
      (rest : Visits library methods nodes worked later tree') :
      Visits library methods (node :: nodes) tree (.visit node tree inside later) tree'
  | block (role : node.role = .block frame)
      (below : Visits library methods node.children (tree.opened frame) inside worked)
      (rest : Visits library methods nodes (tree.closed worked frame) later tree') :
      Visits library methods (node :: nodes) tree
        (.visit node (tree.opened frame) inside later) tree'
  | call (role : node.role = .call) (found : methods.lookup node.target = some method)
      (below : Visits library methods method.children
        (tree.opened (node.bodyFrame node.target)) inside worked)
      (rest : Visits library methods nodes (tree.closed worked (node.bodyFrame node.target))
        later tree') :
      Visits library methods (node :: nodes) tree
        (.visit node tree
          (.visit method (tree.opened (node.bodyFrame node.target)) inside .nil) later) tree'
  | source (role : node.role = .source) (found : library.load node.origin = .ok script)
      (below : Visits library (methods.declare script.root) script.root.children
        (tree.opened (node.bodyFrame script.identity)) inside worked)
      (rest : Visits library methods nodes (tree.closed worked (node.bodyFrame script.identity))
        later tree') :
      Visits library methods (node :: nodes) tree (.visit node tree inside later) tree'

variable {library : Library}

/-- A walk has one forest. -/
theorem Visits.unique (visits : Visits library methods nodes tree forest tree') :
    ∀ {forest' tree''}, Visits library methods nodes tree forest' tree'' →
      forest' = forest ∧ tree'' = tree' := by
  induction visits with
  | nil =>
      intro forest' tree'' other
      cases other
      exact ⟨rfl, rfl⟩
  | declaration role _ ih =>
      intro forest' tree'' other
      cases other with
      | declaration _ rest => exact ih rest
      | _ => simp_all
  | untaken role holds _ ih =>
      intro forest' tree'' other
      cases other with
      | untaken _ _ rest => exact ih rest
      | _ => simp_all
  | taken role holds _ _ ihBelow ihRest =>
      intro forest' tree'' other
      cases other with
      | taken _ _ below rest =>
          obtain ⟨rfl, rfl⟩ := ihBelow below
          obtain ⟨rfl, rfl⟩ := ihRest rest
          exact ⟨rfl, rfl⟩
      | _ => simp_all
  | block role _ _ ihBelow ihRest =>
      intro forest' tree'' other
      cases other with
      | block role' below rest =>
          obtain rfl := Role.block.inj (role.symm.trans role')
          obtain ⟨rfl, rfl⟩ := ihBelow below
          obtain ⟨rfl, rfl⟩ := ihRest rest
          exact ⟨rfl, rfl⟩
      | _ => simp_all
  | call role found _ _ ihBelow ihRest =>
      intro forest' tree'' other
      cases other with
      | call _ found' below rest =>
          obtain rfl := Option.some.inj (found.symm.trans found')
          obtain ⟨rfl, rfl⟩ := ihBelow below
          obtain ⟨rfl, rfl⟩ := ihRest rest
          exact ⟨rfl, rfl⟩
      | _ => simp_all
  | source role found _ _ ihBelow ihRest =>
      intro forest' tree'' other
      cases other with
      | source _ found' below rest =>
          obtain rfl := Except.ok.inj (found.symm.trans found')
          obtain ⟨rfl, rfl⟩ := ihBelow below
          obtain ⟨rfl, rfl⟩ := ihRest rest
          exact ⟨rfl, rfl⟩
      | _ => simp_all

def Forest.replay (enter : Node → ScopeTree → σ → σ) (leave : Node → σ → σ) : Forest → σ → σ
  | .nil, s => s
  | .visit node tree inside later, s =>
      later.replay enter leave (leave node (inside.replay enter leave (enter node tree s)))

/-- A visitor that leaves the scope tree alone and, where it does not fail, does the given work. -/
structure Visitor.Does (visitor : Visitor σ) (enter : Node → ScopeTree → σ → σ)
    (leave : Node → σ → σ) : Prop where
  enter : ∀ ⦃node c c'⦄, Visit.Gives (visitor.enter node) c () c' → c' = (c.1, enter node c.1 c.2)
  leave : ∀ ⦃node c c'⦄, Visit.Gives (visitor.leave node) c () c' → c' = (c.1, leave node c.2)

/-- A walk with such a visitor ends with the visitor's work replayed over the forest. -/
theorem Walked.exists_visits {visitor : Visitor σ} {enter : Node → ScopeTree → σ → σ}
    {leave : Node → σ → σ} (does : visitor.Does enter leave)
    (walked : Walked visitor library methods nodes c trace c') :
    ∃ forest, Visits library methods nodes c.1 forest c'.1 ∧
      c'.2 = forest.replay enter leave c.2 := by
  induction walked with
  | nil => exact ⟨.nil, .nil, rfl⟩
  | declaration role _ ih =>
      obtain ⟨later, visits, state⟩ := ih
      exact ⟨later, .declaration role visits, state⟩
  | untaken role holds _ ih =>
      obtain ⟨later, visits, state⟩ := ih
      exact ⟨later, .untaken role holds visits, state⟩
  | taken role holds entered _ left _ ihBelow ihRest =>
      obtain ⟨inside, below, worked⟩ := ihBelow
      obtain ⟨later, visits, state⟩ := ihRest
      obtain rfl := does.enter entered
      obtain rfl := does.leave left
      exact ⟨_, .taken role holds below visits, by rw [Forest.replay, ← worked, state]⟩
  | block role entered _ left _ ihBelow ihRest =>
      obtain ⟨inside, below, worked⟩ := ihBelow
      obtain ⟨later, visits, state⟩ := ihRest
      obtain rfl := does.enter entered
      obtain rfl := does.leave left
      exact ⟨_, .block role below visits, by rw [Forest.replay, ← worked, state]⟩
  | call role found entered enteredMethod _ leftMethod left _ ihBelow ihRest =>
      obtain ⟨inside, below, worked⟩ := ihBelow
      obtain ⟨later, visits, state⟩ := ihRest
      obtain rfl := does.enter entered
      obtain rfl := does.enter enteredMethod
      obtain rfl := does.leave leftMethod
      obtain rfl := does.leave left
      refine ⟨_, .call role found below visits, ?_⟩
      rw [Forest.replay, Forest.replay, Forest.replay, ← worked, state]
  | source role found entered _ left _ ihBelow ihRest =>
      obtain ⟨inside, below, worked⟩ := ihBelow
      obtain ⟨later, visits, state⟩ := ihRest
      obtain rfl := does.enter entered
      obtain rfl := does.leave left
      exact ⟨_, .source role found below visits, by rw [Forest.replay, ← worked, state]⟩

end Archetype
