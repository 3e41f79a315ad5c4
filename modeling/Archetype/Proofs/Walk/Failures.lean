import Archetype.Proofs.Flatten.Rebuilt
import Archetype.Proofs.Walk.Outcome

/-!
How walks fail. A walk over nodes that invoke nothing but methods at hand needs no library, and it
fails only as its visitor or the evaluation of a condition does, or inside one of the methods.
-/

namespace Archetype

def RunError.IsEvaluation : RunError → Prop
  | .unresolvedVariable _ => True
  | .typeMismatch _ _ => True
  | _ => False

def RaisesOnly (p : ε → Prop) (result : Except ε α) : Prop :=
  ∀ error, result = .error error → p error

namespace RaisesOnly

variable {p : ε → Prop}

theorem ok (value : α) : RaisesOnly p (.ok value) := fun _ fails => by cases fails

theorem error {fault : ε} (holds : p fault) : RaisesOnly p (.error fault : Except ε α) := by
  intro error fails
  cases fails
  exact holds

theorem bind {result : Except ε α} {next : α → Except ε β} (first : RaisesOnly p result)
    (rest : ∀ value, RaisesOnly p (next value)) : RaisesOnly p (result >>= next) := by
  cases result with
  | ok value => exact rest value
  | error fault => exact .error (first fault rfl)

end RaisesOnly

namespace Value

theorem asString_raises (v : Value) : RaisesOnly RunError.IsEvaluation v.asString := by
  cases v <;> first | exact .ok _ | exact .error trivial

theorem asBool_raises (v : Value) : RaisesOnly RunError.IsEvaluation v.asBool := by
  cases v <;> first | exact .ok _ | exact .error trivial

theorem contains_raises (v part : Value) : RaisesOnly RunError.IsEvaluation (v.contains part) := by
  unfold contains
  split
  · exact .ok _
  · exact .bind (asString_raises _) fun _ => .ok _
  · exact .bind (asString_raises _) fun _ => .bind (asString_raises _) fun _ => .ok _

theorem size_raises (v : Value) : RaisesOnly RunError.IsEvaluation v.size := by
  unfold size
  split
  · exact .ok _
  · exact .bind (asString_raises _) fun _ => .ok _

end Value

namespace Expression

variable {lookup : Variables}
  (unbound : ∀ path, RaisesOnly RunError.IsEvaluation (lookup path))
include unbound

theorem evaluate_raises (e : Expression) :
    RaisesOnly RunError.IsEvaluation (e.evaluate lookup) := by
  induction e with
  | literal v => exact .ok v
  | var path => exact unbound path
  | not e ih => exact .bind ih fun v => .bind v.asBool_raises fun _ => .ok _
  | sizeOf e ih => exact .bind ih fun v => .bind v.size_raises fun _ => .ok _
  | logic op l r ihl ihr =>
      refine .bind ihl fun v => .bind v.asBool_raises fun b => ?_
      split
      · exact .ok _
      · exact .bind ihr fun w => .bind w.asBool_raises fun _ => .ok _
  | compare op l r ihl ihr =>
      refine .bind ihl fun v => .bind ihr fun w => .bind ?_ fun _ => .ok _
      cases op with
      | equal => exact .ok _
      | notEqual => exact .ok _
      | contains => exact v.contains_raises w

theorem holds_raises (e : Expression) : RaisesOnly RunError.IsEvaluation (e.holds lookup) :=
  .bind (e.evaluate_raises unbound) fun v => v.asBool_raises

end Expression

theorem ScopeTree.lookup_raises (tree : ScopeTree) (path : String) :
    RaisesOnly RunError.IsEvaluation (tree.lookup path) := by
  unfold ScopeTree.lookup
  split
  · exact .error trivial
  · split
    · exact .ok _
    · split
      · exact .ok _
      · exact .error trivial

theorem Node.holdsIn_raises (node : Node) (tree : ScopeTree) :
    RaisesOnly RunError.IsEvaluation (node.holdsIn tree) := by
  unfold Node.holdsIn
  split
  · exact .ok _
  · next e _ => exact e.holds_raises tree.lookup_raises

namespace Visit

/-- How an outcome is a failure: with an error, or with none if a bound was too low. -/
def failure? : Option (Except RunError α × (ScopeTree × σ)) → Option (Option RunError)
  | none => some none
  | some (.error error, _) => some (some error)
  | some (.ok _, _) => none

def Never (failure : Option RunError) (work : Visit σ α) : Prop :=
  ∀ c, failure? (work c) ≠ some failure

variable {failure : Option RunError}

theorem never_pure (value : α) : Never failure (pure value : Visit σ α) :=
  fun _ fails => by cases fails

theorem never_scope : Never failure (scope : Visit σ ScopeTree) := fun _ fails => by cases fails

theorem never_ofExcept {result : Except RunError α}
    (other : ∀ error, failure = some error → result ≠ .error error) :
    Never failure (Bounded.ofExcept result : Visit σ α) := by
  intro c fails
  cases result with
  | ok value => cases fails
  | error error =>
      cases fails
      exact other error rfl rfl

theorem never_bind {work : Visit σ α} {next : α → Visit σ β} (first : Never failure work)
    (rest : ∀ value, Never failure (next value)) : Never failure (work >>= next) := by
  intro c
  have first := first c
  rw [bind_eq]
  cases outcome : work c with
  | none =>
      rw [outcome] at first
      exact first
  | some pair =>
      obtain ⟨result, between⟩ := pair
      cases result with
      | ok value => exact rest value between
      | error error =>
          rw [outcome] at first
          exact first

theorem never_within {name : String} {frame : FrameKind} {work : Visit σ Unit}
    (inner : Never failure work) : Never failure (within name frame work) := by
  intro c
  have inner := inner ((c.1.push name frame).2, c.2)
  rw [within_eq]
  cases outcome : work ((c.1.push name frame).2, c.2) with
  | none =>
      rw [outcome] at inner
      exact inner
  | some pair =>
      obtain ⟨result, left⟩ := pair
      rw [outcome] at inner
      cases result <;> exact inner

theorem never_inFrame {frame : Option (String × FrameKind)} {work : Visit σ Unit}
    (inner : Never failure work) : Never failure (inFrame frame work) := by
  cases frame with
  | none => exact inner
  | some frame => exact never_within inner

end Visit

open Visit (Never never_pure never_scope never_ofExcept never_bind never_within never_inFrame)

structure Visitor.Never (failure : Option RunError) (visitor : Visitor σ) : Prop where
  enter : ∀ node, Visit.Never failure (visitor.enter node)
  leave : ∀ node, Visit.Never failure (visitor.leave node)

namespace Walk

variable {visitor : Visitor σ} {library : Library} {methods : Methods}
  {failure : Option RunError} {body : Methods → List Node → Visit σ Unit}

theorem never_around (never : visitor.Never failure) {node : Node} {work : Visit σ Unit}
    (inner : Never failure work) : Never failure (around visitor node work) :=
  never_bind (never.enter node) fun _ => never_bind inner fun _ => never.leave node

theorem never_holds (unevaluated : ∀ error, failure = some error → ¬error.IsEvaluation)
    (node : Node) : Never failure (holds node : Visit σ Bool) := by
  rw [holds_eq]
  refine never_bind never_scope fun tree => never_ofExcept fun error same fails => ?_
  exact unevaluated error same (node.holdsIn_raises tree error fails)

/-- Nodes that source nothing and call nothing but methods whose bodies never fail in that way. -/
theorem never_nodes (never : visitor.Never failure)
    (unevaluated : ∀ error, failure = some error → ¬error.IsEvaluation) :
    ∀ list : List Node, (∀ node ∈ Node.preorderAll list, node.role ≠ .source) →
      (∀ node ∈ Node.preorderAll list, node.role = .call → ∃ method,
        methods.lookup node.target = some method ∧ Never failure (body methods method.children)) →
      Never failure (nodes visitor library body methods list)
  | [], _, _ => never_pure ()
  | ⟨id, d, e, children⟩ :: rest, unsourced, answered => by
      have below : Never failure (nodes visitor library body methods children) :=
        never_nodes never unevaluated children
          (fun node member => unsourced node (by simp [Node.preorderAll, Node.preorder, member]))
          fun node member => answered node (by simp [Node.preorderAll, Node.preorder, member])
      have later : Never failure (nodes visitor library body methods rest) :=
        never_nodes never unevaluated rest
          (fun node member => unsourced node (by simp [Node.preorderAll, member]))
          fun node member => answered node (by simp [Node.preorderAll, member])
      generalize hnode : (⟨id, d, e, children⟩ : Node) = node at unsourced answered ⊢
      rw [← show node.children = children from hnode ▸ rfl] at below
      have here : node ∈ Node.preorderAll (node :: rest) := by
        rw [Node.preorderAll_cons]
        exact List.mem_cons_self ..
      refine never_bind ?_ fun _ => later
      rw [node_eq]
      cases role : node.role with
      | declaration => exact never_pure ()
      | condition =>
          refine never_bind (never_holds unevaluated node) fun holds => ?_
          cases holds with
          | false => exact never_pure ()
          | true => exact never_around never below
      | call =>
          obtain ⟨method, found, inside⟩ := answered node here role
          have found : methods.lookup (node.name?.getD "") = some method := found
          simp only [call, found]
          exact never_around never (never_within (never_around never inside))
      | source => exact absurd role (unsourced node here)
      | block frame => exact never_inFrame (never_around never below)
termination_by list => sizeOf list

/-- A library does not count where nothing is sourced. -/
theorem nodes_of_unsourced {library' : Library} {body' : Methods → List Node → Visit σ Unit} :
    ∀ list : List Node, (∀ node ∈ Node.preorderAll list, node.role ≠ .source) →
      (∀ node ∈ Node.preorderAll list, node.role = .call → ∀ method,
        methods.lookup node.target = some method →
          body methods method.children = body' methods method.children) →
      nodes visitor library body methods list = nodes visitor library' body' methods list
  | [], _, _ => rfl
  | ⟨id, d, e, children⟩ :: rest, unsourced, answered => by
      have below := @nodes_of_unsourced library' body' children
        (fun node member => unsourced node (by simp [Node.preorderAll, Node.preorder, member]))
        fun node member => answered node (by simp [Node.preorderAll, Node.preorder, member])
      have later := @nodes_of_unsourced library' body' rest
        (fun node member => unsourced node (by simp [Node.preorderAll, member]))
        fun node member => answered node (by simp [Node.preorderAll, member])
      generalize hnode : (⟨id, d, e, children⟩ : Node) = node at unsourced answered ⊢
      rw [← show node.children = children from hnode ▸ rfl] at below
      have here : node ∈ Node.preorderAll (node :: rest) := by
        rw [Node.preorderAll_cons]
        exact List.mem_cons_self ..
      rw [nodes, nodes, later, node_eq, node_eq]
      cases role : node.role with
      | declaration => rfl
      | condition => simp only [below]
      | call =>
          cases found : methods.lookup (node.name?.getD "") with
          | none => simp only [call, found]
          | some method => simp only [call, found, answered node here role method found]
      | source => exact absurd role (unsourced node here)
      | block frame => simp only [below]
termination_by list => sizeOf list

end Walk

end Archetype
