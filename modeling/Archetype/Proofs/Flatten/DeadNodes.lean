import Archetype.Proofs.Flatten.Buildable
import Archetype.Proofs.Flatten.Renumbered

/-!
Which nodes of a tree are dead, said without the rounds that pruning takes. Pruning removes just
these nodes, however long the chains and cycles of calls are through which they die.
-/

namespace Archetype

open Stateful

/-- A step, a method or a group of bindings, which is only there for what is below it. -/
def Declaration.IsGrouping (d : Declaration) : Prop :=
  d.kind = .step ∨ d.kind = .method ∨ d.isContainer = true

namespace Node

/-- The nodes of a tree under which nothing is left, for any rounds of removing such nodes. -/
inductive Dead (root : Node) : Node → Prop
  | grouping (groups : node.declaration.IsGrouping)
      (below : ∀ child ∈ node.children, Dead root child) : Dead root node
  | call (kind : node.kind = .invokeCall)
      (bodies : ∀ method ∈ root.methods, method.name? = node.name? →
        ∀ child ∈ method.children, Dead root child) : Dead root node
  | beneath (inside : parent ∈ preorderAll root.children) (dead : Dead root parent)
      (child : node ∈ parent.children) : Dead root node

theorem mem_liveMethods {root : Node} {name : String} :
    name ∈ root.liveMethods ↔
      ∃ method ∈ root.methods, method.name? = some name ∧ method.children ≠ [] := by
  simp only [liveMethods, List.mem_filterMap, List.mem_filter, Bool.not_eq_true',
    List.isEmpty_eq_false_iff]
  constructor
  · rintro ⟨method, ⟨member, filled⟩, named⟩
    exact ⟨method, member, named, filled⟩
  · rintro ⟨method, member, named, filled⟩
    exact ⟨method, ⟨member, filled⟩, named⟩

theorem isPrunableIfEmpty_of_grouping {node : Node} (groups : node.declaration.IsGrouping)
    (empty : node.children = []) : node.isPrunableIfEmpty = true := by
  unfold isPrunableIfEmpty
  rw [empty]
  rcases groups with kind | kind | container
  · simp [kind, NodeKind.prunableIfEmpty]
  · simp [kind, NodeKind.prunableIfEmpty]
  · have binding : node.kind.isBinding = true := (Bool.and_eq_true_iff.1 container).1
    cases kind : node.kind <;> simp_all [NodeKind.isBinding, NodeKind.prunableIfEmpty]

/-- Inputs that take options have some, so that they are never empty. -/
theorem grouping_of_isPrunableIfEmpty {node : Node} (checked : node.Checked)
    (prunable : node.isPrunableIfEmpty = true) :
    node.declaration.IsGrouping ∧ node.children = [] := by
  simp only [isPrunableIfEmpty, Bool.and_eq_true, List.isEmpty_iff] at prunable
  obtain ⟨⟨kinds, empty⟩, group⟩ := prunable
  have optionless : node.kind.takesOptions ≠ true := by
    intro takes
    obtain ⟨option, member, -⟩ := Declaration.exists_option checked takes
    rw [empty] at member
    cases member
  refine ⟨?_, empty⟩
  unfold Declaration.IsGrouping
  cases kind : node.kind <;>
    simp_all [NodeKind.prunableIfEmpty, NodeKind.takesOptions]

theorem isDead_iff {node : Node} (checked : node.Checked) (live : List String) :
    node.isDead live = true ↔ (node.declaration.IsGrouping ∧ node.children = []) ∨
      (node.kind = .invokeCall ∧ ∀ name ∈ node.name?, name ∉ live) := by
  constructor
  · intro dead
    rcases Bool.or_eq_true_iff.1 dead with prunable | call
    · exact .inl (grouping_of_isPrunableIfEmpty checked prunable)
    · have kind : node.kind = .invokeCall := of_decide_eq_true (Bool.and_eq_true_iff.1 call).1
      exact .inr ⟨kind, (Node.dead dead).1 kind⟩
  · rintro (⟨groups, empty⟩ | ⟨kind, gone⟩)
    · exact Bool.or_eq_true_iff.2 (.inl (isPrunableIfEmpty_of_grouping groups empty))
    · cases named : node.name? with
      | none => simp [isDead, kind, named]
      | some name => simp [isDead, kind, named, gone name named]

end Node

variable {root current pruned : Node}

/-- What is dead in a later round is so from the start. -/
theorem Trimmed.dead_of_isDead
    (trimmed : Trimmed root.Dead Node.Remade root.children current.children)
    {node twin : Node} (same : node.Remade twin)
    (left : Trimmed root.Dead Node.Remade node.children twin.children) (checked : twin.Checked)
    (dead : twin.isDead current.liveMethods = true) : root.Dead node := by
  rcases (Node.isDead_iff checked _).1 dead with ⟨groups, empty⟩ | ⟨kind, gone⟩
  · rw [empty] at left
    exact .grouping (same.1 ▸ groups) left.forall_dropped
  · have kind' : node.kind = .invokeCall := same.kind.symm.trans kind
    refine .call kind' fun method member named child inside => ?_
    obtain ⟨among, isMethod⟩ := List.mem_filter.1 member
    by_cases methodDead : root.Dead method
    · exact .beneath (Node.subset_preorderAll _ among) methodDead inside
    · obtain ⟨rest, there, alike, below⟩ := trimmed.exists_right among methodDead
      have empty : rest.children = [] := by
        by_contra filled
        obtain ⟨name, called⟩ := Declaration.exists_name checked (by
          have kind : twin.declaration.kind = .invokeCall := kind
          simp [Declaration.required, kind])
        refine gone name called (Node.mem_liveMethods.2 ⟨rest, List.mem_filter.2 ⟨there, ?_⟩, ?_,
          filled⟩)
        · rwa [alike.kind]
        · rw [alike.name?, named, ← same.name?]
          exact called
      rw [empty] at below
      exact below.forall_dropped child inside

/-- Something is left in place of the node. -/
def Node.Stays (root pruned node : Node) : Prop :=
  ∃ twin ∈ preorderAll pruned.children, node.Remade twin ∧
    Trimmed root.Dead Node.Remade node.children twin.children

namespace Node

theorem exists_child_stays {node twin : Node} (there : twin ∈ preorderAll pruned.children)
    (left : Trimmed root.Dead Node.Remade node.children twin.children)
    (filled : twin.children ≠ []) : ∃ child ∈ node.children, Stays root pruned child := by
  obtain ⟨child, member⟩ := List.exists_mem_of_ne_nil _ filled
  obtain ⟨old, declared, same, below⟩ := left.exists_left member
  exact ⟨old, declared, child, mem_preorderAll_of_child there member, same, below⟩

theorem Stays.exists_child (clean : pruned.Clean) {node : Node} (stays : Stays root pruned node)
    (groups : node.declaration.IsGrouping) : ∃ child ∈ node.children, Stays root pruned child := by
  obtain ⟨twin, there, same, left⟩ := stays
  refine exists_child_stays there left fun empty => ?_
  have prunable := isPrunableIfEmpty_of_grouping (same.1.symm ▸ groups) empty
  have alive := clean twin there
  rw [isDead, prunable] at alive
  cases alive

theorem Stays.exists_body (clean : pruned.Clean)
    (trimmed : Trimmed root.Dead Node.Remade root.children pruned.children) {node : Node}
    (stays : Stays root pruned node) (kind : node.kind = .invokeCall) :
    ∃ method ∈ root.methods, method.name? = node.name? ∧
      ∃ child ∈ method.children, Stays root pruned child := by
  obtain ⟨twin, there, same, left⟩ := stays
  have alive := clean twin there
  have kind' : twin.kind = .invokeCall := same.kind.trans kind
  simp only [isDead, kind', decide_true, Bool.true_and, Bool.or_eq_false_iff,
    Bool.not_eq_false', Option.any_eq_true, decide_eq_true_eq] at alive
  obtain ⟨-, name, called, live⟩ := alive
  obtain ⟨method, member, named, filled⟩ := mem_liveMethods.1 live
  obtain ⟨among, isMethod⟩ := List.mem_filter.1 member
  obtain ⟨old, declared, alike, below⟩ := trimmed.exists_left among
  refine ⟨old, List.mem_filter.2 ⟨declared, ?_⟩, ?_,
    exists_child_stays (subset_preorderAll _ among) below filled⟩
  · rwa [← alike.kind]
  · rw [← alike.name?, named, ← same.name?, called]

/-- Where nothing dead is left, nothing is left of the nodes that die in the end. -/
theorem Dead.not_stays (built : root.Built) (clean : pruned.Clean)
    (trimmed : Trimmed root.Dead Node.Remade root.children pruned.children) {node : Node}
    (dead : root.Dead node) (inside : node ∈ preorderAll root.children) :
    ∀ lost ∈ node.preorder, ¬Stays root pruned lost := by
  induction dead with
  | @grouping node groups _ ih =>
      intro lost among stays
      rcases mem_preorder.1 among with rfl | among
      · obtain ⟨child, declared, stays⟩ := stays.exists_child clean groups
        exact ih child declared (mem_preorderAll_of_child inside declared) child
          (mem_preorder.2 (.inl rfl)) stays
      · obtain ⟨child, declared, among⟩ := mem_preorderAll.1 among
        exact ih child declared (mem_preorderAll_of_child inside declared) lost among stays
  | @call node kind _ ih =>
      intro lost among stays
      rcases mem_preorder.1 among with rfl | among
      · obtain ⟨method, member, named, child, declared, stays⟩ :=
          stays.exists_body clean trimmed kind
        have there := subset_preorderAll _ (List.mem_filter.1 member).1
        exact ih method member named child declared (mem_preorderAll_of_child there declared) child
          (mem_preorder.2 (.inl rfl)) stays
      · have childless := Declaration.childless_of_call
          (built node (mem_preorder.2 (.inr inside))) kind
        rw [childless] at among
        cases among
  | @beneath parent node above _ child ih =>
      intro lost among
      exact ih above lost (mem_preorder.2 (.inr (mem_preorderAll.2 ⟨node, child, among⟩)))

end Node

namespace Prune

theorem rounds_trimmed {n : Nat} {s s' : NodeId} (built : current.Built)
    (trimmed : Trimmed root.Dead Node.Remade root.children current.children)
    (gives : rounds n current s = .ok (pruned, s')) :
    Trimmed root.Dead Node.Remade root.children pruned.children := by
  induction n generalizing current s with
  | zero =>
      obtain ⟨rfl, rfl⟩ := pure_eq_ok.1 gives
      exact trimmed
  | succ n ih =>
      rw [rounds, bind_eq_ok] at gives
      obtain ⟨result, between, round, gives⟩ := gives
      cases result with
      | none =>
          obtain ⟨rfl, rfl⟩ := pure_eq_ok.1 gives
          exact trimmed
      | some fewer =>
          have swept : Trimmed (·.isDead current.liveMethods) Node.Remade current.children
            fewer.children := (node_eq_ok round).1.1
          refine ih (built_of_round built round) (trimmed.comp swept ?_ ?_) gives
          · intro node twin there same left dead
            exact trimmed.dead_of_isDead same left (built twin (Node.mem_preorder.2 (.inr there)))
              dead
          · intro node twin other first second
            exact ⟨second.1.trans first.1, fun checked => second.2 (first.2 checked)⟩

theorem rounds_of_enough {n m : Nat} {s s' : NodeId} (enough : root.preorder.length ≤ n)
    (also : root.preorder.length ≤ m) (gives : rounds n root s = .ok (pruned, s')) :
    rounds m root s = .ok (pruned, s') := by
  induction n generalizing root s m with
  | zero =>
      rw [Node.preorder_eq] at enough
      cases enough
  | succ n ih =>
      cases m with
      | zero =>
          rw [Node.preorder_eq] at also
          cases also
      | succ m =>
          rw [rounds, bind_eq_ok] at gives ⊢
          obtain ⟨result, between, round, gives⟩ := gives
          refine ⟨result, between, round, ?_⟩
          cases result with
          | none => exact gives
          | some fewer =>
              have less : (Node.preorderAll fewer.children).length <
                (Node.preorderAll root.children).length := (node_eq_ok round).1.2
              rw [Node.preorder_eq, List.length_cons] at enough also
              refine ih ?_ ?_ gives <;> rw [Node.preorder_eq, List.length_cons] <;> omega

end Prune

/-- A node that does not die, and what stands in its place. -/
def Node.Spared (root node twin : Node) : Prop :=
  ¬root.Dead node ∧ twin.declaration = node.declaration ∧ twin.expression = node.expression

/-- Pruning a tree of valid nodes removes the dead nodes below its root and no others. It comes to
an end with a round that finds nothing to remove, and pruning again changes nothing. -/
theorem prune_removes_dead_nodes (built : root.Built) (start : NodeId) :
    ∃ pruned next, root.prune start = .ok (pruned, next) ∧
      pruned.declaration = root.declaration ∧ pruned.expression = root.expression ∧
      Trimmed root.Dead root.Spared root.children pruned.children ∧ pruned.Built ∧
      (∀ bound, root.preorder.length ≤ bound →
        Prune.rounds bound root start = .ok (pruned, next)) ∧
      Prune.node pruned.liveMethods pruned next = .ok (none, next) ∧
      ∀ later, pruned.prune later = .ok (pruned, later) := by
  have safe := Prune.ensures_rounds root.preorder.length built start
  cases outcome : root.prune start with
  | error error => exact (safe.of_error outcome).elim
  | ok pair =>
      obtain ⟨pruned, next⟩ := pair
      have still : pruned.Built := safe.of_ok outcome
      obtain ⟨declaration, -, -, clean⟩ := Prune.rounds_eq_ok (Nat.le_refl _) outcome
      have trimmed := Prune.rounds_trimmed built (.refl Node.Remade.refl root.children) outcome
      have expression := Node.Checked.expression_eq built.check still.check declaration
      have exactly : Trimmed root.Dead root.Spared root.children pruned.children := by
        refine trimmed.strengthen fun node inside twin there same left => ?_
        refine ⟨fun dead => ?_, same.1, ?_⟩
        · exact dead.not_stays built clean trimmed inside node (Node.mem_preorder.2 (.inl rfl))
            ⟨twin, there, same, left⟩
        · have checked := built node (Node.mem_preorder.2 (.inr inside))
          have checked' := still twin (Node.mem_preorder.2 (.inr there))
          exact Node.Checked.expression_eq checked checked' same.1
      have longer := fun bound enough =>
        Prune.rounds_of_enough (m := bound) (Nat.le_refl _) enough outcome
      exact ⟨pruned, next, rfl, declaration, expression, exactly, still, longer,
        Prune.node_of_alive next clean, fun later => clean.prune_eq later⟩

/-- Two methods that call each other, and a chain of calls that ends in an empty group. -/
def cascadingRoot : Node :=
  .bare 19 .script []
    [.bare 2 .method [("name", .string "a")] [.bare 1 .invokeCall [("name", .string "b")] []],
      .bare 4 .method [("name", .string "b")] [.bare 3 .invokeCall [("name", .string "a")] []],
      .bare 7 .method [("name", .string "c")]
        [.bare 6 .step [("name", .string "q")] [.bare 5 .invokeCall [("name", .string "d")] []]],
      .bare 9 .method [("name", .string "d")] [.bare 8 .preset [] []],
      .bare 12 .step [("name", .string "s")]
        [.bare 10 .invokeCall [("name", .string "a")] [], .bare 11 .var [] []],
      .bare 14 .step [("name", .string "t")] [.bare 13 .invokeCall [("name", .string "c")] []]]

theorem prune_removes_dead_nodes_of_chain : cascadingRoot.Built ∧
    ∃ pruned next, cascadingRoot.prune ⟨20⟩ = .ok (pruned, next) ∧
      Trimmed cascadingRoot.Dead cascadingRoot.Spared cascadingRoot.children pruned.children ∧
      ∀ later, pruned.prune later = .ok (pruned, later) := by
  have built : cascadingRoot.Built := by
    unfold Node.Built
    decide +kernel
  obtain ⟨pruned, next, gives, -, -, trimmed, -, -, -, again⟩ :=
    prune_removes_dead_nodes built ⟨20⟩
  exact ⟨built, pruned, next, gives, trimmed, again⟩

-- The methods that call each other stay: nothing makes either of them empty.
example : (cascadingRoot.prune ⟨20⟩).toOption.map
    (fun (pruned, _) => (Node.preorderAll pruned.children).map (·.name?)) =
      some [some "a", some "b", some "b", some "a", some "s", some "a"] := by
  decide +kernel

end Archetype
