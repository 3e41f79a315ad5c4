import Archetype.Proofs.Walk.Role

/-!
One principle for all walks. If a property of the walk of a node holds for each role that the node
may have, given that it holds of the nodes that are walked below, then it holds of the walk of every
script. A walk beside this one is compared with it by a property that mentions both.
-/

namespace Archetype.Walk

/-- A property of the walk of a node and one of the walk of nodes in a row, inside fewer invocations
than a limit and with a table of methods, that hold of every walk as it is put together. -/
structure Lifts (visitor : Visitor σ) (library : Library)
    (Here : Nat → Methods → Node → Visit σ Unit → Prop)
    (Along : Nat → Methods → List Node → Visit σ Unit → Prop) : Prop where
  outOfBounds : ∀ {methods list}, Along 0 methods list Bounded.outOfBounds
  nil : ∀ {limit methods}, Along (limit + 1) methods [] (pure ())
  cons : ∀ {limit methods first rest work next}, Here limit methods first work →
    Along (limit + 1) methods rest next →
      Along (limit + 1) methods (first :: rest) (work >>= fun _ => next)
  declaration : ∀ {limit methods node}, node.role = .declaration → Here limit methods node (pure ())
  condition : ∀ {limit methods node below}, node.role = .condition →
    Along (limit + 1) methods node.children below →
      Here limit methods node (do if ← holds node then around visitor node below)
  block : ∀ {limit methods node frame below}, node.role = .block frame →
    Along (limit + 1) methods node.children below →
      Here limit methods node (Visit.inFrame frame (around visitor node below))
  unresolved : ∀ {limit methods node}, node.role = .call → methods.lookup node.target = none →
    Here limit methods node (throw (.unresolvedInvocation node.target))
  call : ∀ {limit methods node method body}, node.role = .call →
    methods.lookup node.target = some method → Along limit methods method.children body →
      Here limit methods node
        (around visitor node
          (Visit.within (invocationFrame node.target node.id) .invocation
            (around visitor method body)))
  unloaded : ∀ {limit methods node error}, node.role = .source →
    library.load node.origin = .error error → Here limit methods node (throw error)
  source : ∀ {limit methods node script body}, node.role = .source →
    library.load node.origin = .ok script →
    Along limit (methods.declare script.root) script.root.children body →
      Here limit methods node
        (around visitor node
          (Visit.within (invocationFrame script.identity node.id) .invocation body))

namespace Lifts

variable {visitor : Visitor σ} {library : Library}
  {Here : Nat → Methods → Node → Visit σ Unit → Prop}
  {Along : Nat → Methods → List Node → Visit σ Unit → Prop} {limit : Nat}

theorem node (lifts : Lifts visitor library Here Along)
    (bodies : ∀ methods list, Along limit methods list (bodies visitor library limit methods list))
    {methods : Methods} {node : Node}
    (below : Along (limit + 1) methods node.children
      (nodes visitor library (Walk.bodies visitor library limit) methods node.children)) :
    Here limit methods node
      (Walk.node visitor library (Walk.bodies visitor library limit) methods node) := by
  rw [node_eq]
  cases role : node.role with
  | declaration => exact lifts.declaration role
  | condition => exact lifts.condition role below
  | block frame => exact lifts.block role below
  | call =>
      simp only
      rw [call_eq]
      cases found : methods.lookup node.target with
      | none => exact lifts.unresolved role found
      | some method => exact lifts.call role found (bodies methods method.children)
  | source =>
      simp only
      rw [source_eq]
      cases loaded : library.load node.origin with
      | error error => exact lifts.unloaded role loaded
      | ok script => exact lifts.source role loaded (bodies _ _)

theorem nodes (lifts : Lifts visitor library Here Along)
    (bodies : ∀ methods list, Along limit methods list (bodies visitor library limit methods list))
    (methods : Methods) :
    ∀ list : List Node, Along (limit + 1) methods list
      (Walk.nodes visitor library (Walk.bodies visitor library limit) methods list)
  | [] => lifts.nil
  | ⟨id, d, e, children⟩ :: rest => by
      have below := nodes lifts bodies methods children
      rw [Walk.nodes]
      exact lifts.cons (lifts.node bodies below) (nodes lifts bodies methods rest)

theorem bodies (lifts : Lifts visitor library Here Along) (limit : Nat) (methods : Methods)
    (list : List Node) :
    Along limit methods list (Walk.bodies visitor library limit methods list) := by
  induction limit generalizing methods list with
  | zero => exact lifts.outOfBounds
  | succ limit ih => exact lifts.nodes ih methods list

theorem walk (lifts : Lifts visitor library Here Along) (limit : Nat) (methods : Methods)
    (root : Node) : Here limit (methods.declare root) root
      (Archetype.walk visitor library limit methods root) :=
  lifts.node (lifts.bodies limit) (lifts.nodes (lifts.bodies limit) _ root.children)

end Lifts

end Archetype.Walk
