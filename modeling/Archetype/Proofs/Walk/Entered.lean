import Archetype.Proofs.Flatten.Rebuilt
import Archetype.Proofs.Walk.Methods
import Archetype.Proofs.Walk.Trace

/-!
Which nodes a walk enters: none but those below the walked nodes, the methods at hand and the
scripts of the library.
-/

namespace Archetype

variable {P : Node → Prop} {visitor : Visitor σ} {library : Library}

/-- What holds of the nodes at hand and passes from a node to its children holds of every node that
is entered. -/
theorem Walked.forall_entries (hereditary : ∀ node, P node → ∀ child ∈ node.children, P child)
    (loaded : ∀ src script, library.load src = .ok script → P script.root)
    (walked : Walked visitor library methods list c trace c')
    (declared : ∀ entry ∈ methods, P entry.2) (nodes : ∀ node ∈ list, P node) :
    ∀ visit ∈ entries trace, P visit.1 := by
  induction walked with
  | nil => simp
  | declaration role rest ih => exact ih declared (List.forall_mem_cons.1 nodes).2
  | untaken role holds rest ih => exact ih declared (List.forall_mem_cons.1 nodes).2
  | taken role holds enter below leave rest ihBelow ihRest =>
      obtain ⟨here, later⟩ := List.forall_mem_cons.1 nodes
      simp only [entries_decided, entries_entered, entries_append, List.forall_mem_cons,
        List.forall_mem_append]
      exact ⟨here, ihBelow declared (hereditary _ here), ihRest declared later⟩
  | block role enter below leave rest ihBelow ihRest =>
      obtain ⟨here, later⟩ := List.forall_mem_cons.1 nodes
      simp only [entries_entered, entries_append, List.forall_mem_cons, List.forall_mem_append]
      exact ⟨here, ihBelow declared (hereditary _ here), ihRest declared later⟩
  | call role found enter enterMethod below leaveMethod leave rest ihBelow ihRest =>
      obtain ⟨here, later⟩ := List.forall_mem_cons.1 nodes
      obtain ⟨before, after, rfl, -⟩ := List.lookup_eq_some_iff.1 found
      have method := declared _ (List.mem_append_right _ (List.mem_cons_self ..))
      simp only [entries_entered, entries_append, List.forall_mem_cons, List.forall_mem_append]
      exact ⟨here, method, ihBelow declared (hereditary _ method), ihRest declared later⟩
  | source role found enter below leave rest ihBelow ihRest =>
      obtain ⟨here, later⟩ := List.forall_mem_cons.1 nodes
      have root := hereditary _ (loaded _ _ found)
      simp only [entries_entered, entries_append, List.forall_mem_cons, List.forall_mem_append]
      refine ⟨here, ihBelow (Methods.forall_declare declared fun method member => ?_) root,
        ihRest declared later⟩
      exact root method (List.mem_filter.1 member).1

namespace Node

def Built (node : Node) : Prop :=
  ∀ below ∈ node.preorder, below.declaration.check below.children = .ok below.expression

theorem Built.check {node : Node} (built : node.Built) :
    node.declaration.check node.children = .ok node.expression :=
  built node (by rw [preorder_eq]; exact List.mem_cons_self ..)

theorem Built.child {node child : Node} (built : node.Built) (member : child ∈ node.children) :
    child.Built := by
  intro below inside
  refine built below ?_
  rw [preorder_eq]
  exact List.mem_cons_of_mem _ (mem_preorderAll.2 ⟨child, member, inside⟩)

end Node

theorem Library.mem_scripts {src : String} {script : Script}
    (loads : library.load src = .ok script) : script ∈ library.scripts := by
  unfold Library.load at loads
  split at loads
  · next result found =>
      subst loads
      obtain ⟨before, after, split, -⟩ := List.lookup_eq_some_iff.1 found
      unfold Library.scripts
      rw [split]
      simp [Except.toOption]
  · cases loads

/-- A walk of a built script enters built nodes. -/
theorem Walked.built (walked : Walked visitor library (Methods.declare [] root) [root] c trace c')
    (root_built : root.Built) (library_built : ∀ script ∈ library.scripts, script.root.Built) :
    ∀ visit ∈ entries trace, visit.1.Built :=
  walked.forall_entries (fun _ built _ member => built.child member)
    (fun _ _ loads => library_built _ (Library.mem_scripts loads))
    (Methods.forall_declare (fun _ member => absurd member List.not_mem_nil) fun _ member =>
      root_built.child (List.mem_filter.1 member).1)
    (List.forall_mem_cons.2 ⟨root_built, fun _ member => absurd member List.not_mem_nil⟩)

end Archetype
