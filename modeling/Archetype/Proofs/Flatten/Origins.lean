import Archetype.Proofs.Flatten.Closed
import Archetype.Proofs.Flatten.Sharing

/-!
Where the nodes of a compiled tree come from. Each is made from a node of a script that the filter
accepts, and the filter accepts whatever stands around that node too, except that nobody asks it
about the method that declares a body.
-/

namespace Archetype

/-- The way from a node below the root up to the root's own child, the node first. -/
inductive Node.Way (root : Node) : List Node → Prop
  | child (member : node ∈ root.children) : root.Way [node]
  | down (way : root.Way (parent :: above)) (member : node ∈ parent.children) :
      root.Way (node :: parent :: above)

inductive Node.Becomes (node : Node) : Declaration → Prop
  | condition (kind : node.kind = .condition) :
      node.Becomes (Rebuild.foldedDeclaration node.declaration node.expression)
  | call (invokes : node.isInvocation = true) (name : String) :
      node.Becomes { kind := .invokeCall, attributes := .ofList [("name", .string name)],
                     location := node.location }
  | block (role : node.role = .block frame) : node.Becomes node.declaration

/-- A declaration made from a node that the filter accepts, under nodes that it accepts or that
declare a method of the script. -/
def Declaration.Originates (d : Declaration) (filter : Node → Bool) (scripts : List Script) :
    Prop :=
  ∃ script ∈ scripts, ∃ node above, script.root.Way (node :: above) ∧ node.Becomes d ∧
    filter node = true ∧ ∀ passed ∈ above, filter passed = true ∨ passed ∈ script.root.methods

/-- The nodes stand in the script one beside the other, under nodes that the filter accepts or that
declare a method. -/
def Script.Opens (script : Script) (filter : Node → Bool) (nodes : List Node) : Prop :=
  ∃ above, (∀ node ∈ nodes, script.root.Way (node :: above)) ∧
    ∀ passed ∈ above, filter passed = true ∨ passed ∈ script.root.methods

namespace Script

variable {script : Script} {filter : Node → Bool} {node : Node} {nodes : List Node}

theorem opens_of_shares (shares : script.Shares nodes) : script.Opens filter nodes := by
  cases shares with
  | body => exact ⟨[], fun node member => .child (List.mem_filter.1 member).1, nofun⟩
  | @method method declared =>
      have way : script.root.Way [method] := .child (List.mem_filter.1 declared).1
      refine ⟨[method], fun node member => way.down member, fun passed member => .inr ?_⟩
      rw [List.mem_singleton.1 member]
      exact declared

namespace Opens

theorem later (opens : script.Opens filter (node :: nodes)) : script.Opens filter nodes := by
  obtain ⟨above, ways, passes⟩ := opens
  exact ⟨above, fun other member => ways other (List.mem_cons_of_mem _ member), passes⟩

theorem below (opens : script.Opens filter (node :: nodes)) (accepts : filter node = true) :
    script.Opens filter node.children := by
  obtain ⟨above, ways, passes⟩ := opens
  have way := ways node (List.mem_cons_self ..)
  exact ⟨node :: above, fun child member => way.down member,
    List.forall_mem_cons.2 ⟨.inl accepts, passes⟩⟩

theorem originates (opens : script.Opens filter (node :: nodes)) (accepts : filter node = true)
    {scripts : List Script} (known : script ∈ scripts) {d : Declaration}
    (becomes : node.Becomes d) : d.Originates filter scripts := by
  obtain ⟨above, ways, passes⟩ := opens
  exact ⟨script, known, node, above, ways node (List.mem_cons_self ..), becomes, accepts, passes⟩

end Opens

end Script

/-- Flattening open nodes leaves nothing but what is made from accepted ones. Where a body takes the
place of its invocation, the nodes go on in the script that the body is from. -/
theorem Flattened.originates {table : CallTable} {filter : Node → Bool} {inline : Bool}
    {names : List String} {scripts : List Script} {script source : Script}
    {taken left : List String} {nodes result : List Node}
    (shared : ∀ body ∈ table.bodies, ∃ source ∈ scripts, source.Shares body.nodes)
    (known : source ∈ scripts) (opens : source.Opens filter nodes)
    (flattened : Flattened table filter inline names script taken nodes result left) :
    ∀ twin ∈ Node.preorderAll result, twin.declaration.Originates filter scripts := by
  induction flattened generalizing source with
  | nil => exact nofun
  | rejected _ _ ih => exact ih known opens.later
  | declaration _ _ ih => exact ih known opens.later
  | never _ _ _ ih => exact ih known opens.later
  | always accepts _ _ _ _ ihBelow ih =>
      rw [Node.preorderAll_append, List.forall_mem_append]
      exact ⟨ihBelow known (opens.below accepts), ih known opens.later⟩
  | condition accepts role _ declaration _ _ _ ihBelow ih =>
      rw [Node.forall_preorderAll_cons, declaration]
      exact ⟨opens.originates accepts known (.condition (Node.role_eq_condition role)),
        ihBelow known (opens.below accepts), ih known opens.later⟩
  | call accepts invokes _ declaration _ childless _ _ ih =>
      rw [Node.forall_preorderAll_cons, declaration, childless]
      exact ⟨opens.originates accepts known (.call invokes _), nofun, ih known opens.later⟩
  | inlined _ _ _ reached _ _ _ _ _ ihBelow ih =>
      obtain ⟨owner, owned, shares⟩ := shared _ (CallTable.mem_of_reached? reached)
      rw [Node.preorderAll_append, List.forall_mem_append]
      exact ⟨ihBelow owned (Script.opens_of_shares shares), ih known opens.later⟩
  | emptied _ _ _ _ ih => exact ih known opens.later
  | block accepts role declaration _ _ _ ihBelow ih =>
      rw [Node.forall_preorderAll_cons, declaration]
      exact ⟨opens.originates accepts known (.block role), ihBelow known (opens.below accepts),
        ih known opens.later⟩

theorem Rebuild.Slots.Flat.originates {table : CallTable} {filter : Node → Bool} {inline : Bool}
    {scripts : List Script} {slots : Slots} (flat : slots.Flat table filter inline)
    (shared : ∀ body ∈ table.bodies, ∃ source ∈ scripts, source.Shares body.nodes)
    {method : Node} (member : method ∈ slots.filterMap (·.2)) :
    (∃ name, method.declaration =
      { kind := .method, attributes := .ofList [("name", .string name)] }) ∧
    ∀ node ∈ Node.preorderAll method.children, node.declaration.Originates filter scripts := by
  obtain ⟨⟨name, slot⟩, inside, complete⟩ := List.mem_filterMap.1 member
  simp only at complete
  subst complete
  obtain ⟨body, found, -, made⟩ := flat.complete name method inside
  obtain ⟨owner, owned, shares⟩ := shared body (List.mem_of_find?_eq_some found)
  obtain ⟨_, flattened⟩ := made.flattened
  exact ⟨⟨_, made.declaration⟩, flattened.originates shared owned (Script.opens_of_shares shares)⟩

/-- Everything below the root of a compiled tree is a generated method or made from a node of a
script that the filter accepts together with what stands around it, up to the root of the script or
to the method that the node is in. -/
theorem rejected_nodes_dropped {options : CompileOptions} {filter : Node → Bool}
    {library : Library} {script : Script} {next next' : NodeId} {tree : Node}
    (compiles : compile options filter library script next = .ok (tree, next')) :
    ∀ twin ∈ Node.preorderAll tree.children,
      (∃ name, twin.declaration =
        { kind := .method, attributes := .ofList [("name", .string name)] }) ∨
      ∃ d, d.Originates filter (script :: library.scripts) ∧
        twin.declaration = options.published d := by
  obtain ⟨table, children, between, scanned, rebuilt, finished⟩ := compile_eq_ok.1 compiles
  have shared := CallTable.ofScript_shares library filter options.obfuscate script
  simp only [scanned] at shared
  obtain ⟨slots, body, rfl, flat, -, ⟨left, flattened⟩, -⟩ := Rebuild.script_flattens rebuilt
  have fromBody := flattened.originates shared (List.mem_cons_self ..)
    (Script.opens_of_shares .body)
  intro twin member
  obtain ⟨node, inside, same⟩ := exists_of_finishTree finished twin member
  rw [Node.preorderAll_append] at inside
  rcases List.mem_append.1 inside with inside | inside
  · obtain ⟨method, declared, inside⟩ := Node.mem_preorderAll.1 inside
    obtain ⟨⟨name, declaration⟩, below⟩ := flat.originates shared declared
    rcases Node.mem_preorder.1 inside with rfl | inside
    · refine .inl ⟨name, ?_⟩
      rw [same, declaration]
      unfold CompileOptions.published
      split
      · rfl
      · rfl
    · exact .inr ⟨node.declaration, below node inside, same⟩
  · exact .inr ⟨node.declaration, fromBody node inside, same⟩

def Node.isNot (kind : NodeKind) (node : Node) : Bool := node.kind ≠ kind

def askingMethodScript : Script where
  identity := "a"
  root := .bare 6 .script []
    [.bare 4 .method [("name", .string "m")]
      [.bare 1 .inputText [("name", .string "y"), ("default", .string "d")] [],
        .bare 3 .step [("name", .string "s")]
          [.bare 2 .inputText [("name", .string "z"), ("default", .string "d")] []]],
      .bare 5 .invokeCall [("name", .string "m")] []]

/-- Without steps only the other input is left in the method. -/
theorem rejected_nodes_dropped_of_rejected_step : ∃ tree next,
    compile {} (Node.isNot .step) .empty askingMethodScript ⟨20⟩ = .ok (tree, next) ∧
    (Node.preorderAll tree.children).map (·.kind) = [.method, .inputText, .invokeCall] ∧
    ∀ twin ∈ Node.preorderAll tree.children,
      (∃ name, twin.declaration =
        { kind := .method, attributes := .ofList [("name", .string name)] }) ∨
      ∃ d, d.Originates (Node.isNot .step) [askingMethodScript] ∧
        twin.declaration = d := by
  have evaluated : (compile {} (Node.isNot .step) .empty askingMethodScript
      ⟨20⟩).toOption.any fun pair => decide
        ((Node.preorderAll pair.1.children).map (·.kind) = [.method, .inputText, .invokeCall]) := by
    decide +kernel
  obtain ⟨⟨tree, next⟩, compiles, kinds⟩ := Stateful.exists_ok_of_any evaluated
  exact ⟨tree, next, compiles, of_decide_eq_true kinds, rejected_nodes_dropped compiles⟩

theorem Node.Becomes.kind_eq {node : Node} {d : Declaration} (becomes : node.Becomes d)
    (other : d.kind ≠ .invokeCall) : node.kind = d.kind := by
  cases becomes with
  | condition _ => exact (Rebuild.foldedDeclaration_kind _ _).symm
  | call _ _ => exact absurd rfl other
  | block _ => rfl

/-- A node below the root is one of the root's children or stands in one of them. -/
theorem Node.Way.top {root node : Node} {above : List Node} (way : root.Way (node :: above)) :
    node ∈ root.children ∨ ∃ top ∈ above, top ∈ root.children ∧ top.children ≠ [] := by
  generalize path : node :: above = nodes at way
  induction way generalizing node above with
  | child member =>
      cases path
      exact .inl member
  | down _ member ih =>
      cases path
      refine .inr ?_
      rcases ih rfl with top | ⟨top, passed, rest⟩
      · exact ⟨_, List.mem_cons_self .., top, List.ne_nil_of_mem member⟩
      · exact ⟨top, List.mem_cons_of_mem _ passed, rest⟩

/-- Rejecting the method does not keep what is in it out of the tree. -/
theorem rejected_method_leaves_body : ∃ tree next, ∃ twin ∈ Node.preorderAll tree.children,
    compile {} (Node.isNot .method) .empty askingMethodScript ⟨20⟩ =
      .ok (tree, next) ∧
    twin.kind = .inputText ∧
    ∀ node above, askingMethodScript.root.Way (node :: above) → node.Becomes twin.declaration →
      ∃ passed ∈ above, Node.isNot .method passed = false := by
  have evaluated : (compile {} (Node.isNot .method) .empty askingMethodScript
      ⟨20⟩).toOption.any fun pair =>
        (Node.preorderAll pair.1.children).any (·.kind = .inputText) := by
    decide +kernel
  obtain ⟨⟨tree, next⟩, compiles, asked⟩ := Stateful.exists_ok_of_any evaluated
  obtain ⟨twin, member, kind⟩ := List.any_eq_true.1 asked
  rw [decide_eq_true_eq] at kind
  refine ⟨tree, next, twin, member, compiles, kind, fun node above way becomes => ?_⟩
  have asks : node.kind = .inputText :=
    (becomes.kind_eq (by rw [← Node.kind, kind]; decide)).trans kind
  rcases way.top with top | ⟨top, passed, there, filled⟩
  · rcases List.mem_cons.1 top with rfl | top
    · cases asks
    · rw [List.mem_singleton.1 top] at asks
      cases asks
  · refine ⟨top, passed, ?_⟩
    rcases List.mem_cons.1 there with rfl | there
    · rfl
    · rw [List.mem_singleton.1 there] at filled
      exact absurd rfl filled

end Archetype
