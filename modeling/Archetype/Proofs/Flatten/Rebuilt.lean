import Archetype.Flatten.Compile
import Archetype.Proofs.Walk.Role

/-!
What rebuilding makes of the nodes of a script: a relation between nodes and the nodes they are
rebuilt into. Every invocation that stays is paired with the call that takes its place.
-/

namespace Archetype

namespace Node

def isInvocation (node : Node) : Bool :=
  node.kind = .invokeCall || node.kind = .invokeSource

def invocations (nodes : List Node) : List Node :=
  (preorderAll nodes).filter (·.isInvocation)

theorem preorderAll_append (nodes more : List Node) :
    preorderAll (nodes ++ more) = preorderAll nodes ++ preorderAll more := by
  induction nodes with
  | nil => rfl
  | cons node rest ih => simp only [List.cons_append, preorderAll, ih, List.append_assoc]

theorem preorder_eq (node : Node) : node.preorder = node :: preorderAll node.children := by
  obtain ⟨id, d, e, children⟩ := node
  rfl

theorem preorderAll_cons (node : Node) (nodes : List Node) :
    preorderAll (node :: nodes) = node :: (preorderAll node.children ++ preorderAll nodes) := by
  obtain ⟨id, d, e, children⟩ := node
  rfl

theorem forall_preorderAll_cons {p : Node → Prop} {node : Node} {nodes : List Node} :
    (∀ other ∈ preorderAll (node :: nodes), p other) ↔
      p node ∧ (∀ other ∈ preorderAll node.children, p other) ∧ ∀ other ∈ preorderAll nodes, p other
    := by
  rw [preorderAll_cons, List.forall_mem_cons, List.forall_mem_append]

theorem mem_preorderAll {node : Node} {nodes : List Node} :
    node ∈ preorderAll nodes ↔ ∃ above ∈ nodes, node ∈ above.preorder := by
  induction nodes with
  | nil => simp [preorderAll]
  | cons first rest ih => simp [preorderAll, ih]

theorem mem_preorder {node root : Node} :
    node ∈ root.preorder ↔ node = root ∨ node ∈ preorderAll root.children := by
  rw [preorder_eq, List.mem_cons]

theorem subset_preorderAll (nodes : List Node) : nodes ⊆ preorderAll nodes := by
  intro node member
  exact mem_preorderAll.2 ⟨node, member, mem_preorder.2 (.inl rfl)⟩

theorem preorderAll_subset {node : Node} {nodes : List Node} (member : node ∈ nodes) :
    preorderAll node.children ⊆ preorderAll nodes := by
  induction nodes with
  | nil => cases member
  | cons first rest ih =>
      rw [preorderAll_cons]
      rcases List.mem_cons.1 member with rfl | member
      · exact fun _ inside => List.mem_cons_of_mem _ (List.mem_append_left _ inside)
      · exact fun _ inside => List.mem_cons_of_mem _ (List.mem_append_right _ (ih member inside))

@[simp] theorem invocations_nil : invocations [] = [] := rfl

@[simp] theorem invocations_append (nodes more : List Node) :
    invocations (nodes ++ more) = invocations nodes ++ invocations more := by
  simp only [invocations, preorderAll_append, List.filter_append]

theorem invocations_cons (node : Node) (nodes : List Node) :
    invocations (node :: nodes) =
      (if node.isInvocation then [node] else []) ++
        (invocations node.children ++ invocations nodes) := by
  simp only [invocations, preorderAll_cons, List.filter_cons, List.filter_append]
  split <;> rfl

theorem invocations_sublist {nodes more : List Node} (sublist : nodes.Sublist more) :
    (invocations nodes).Sublist (invocations more) := by
  induction sublist with
  | slnil => exact List.Sublist.refl _
  | @cons nodes more node _ ih =>
      rw [← List.singleton_append, invocations_append]
      exact ih.trans (List.sublist_append_right _ _)
  | @cons_cons nodes more node _ ih =>
      rw [← List.singleton_append, ← List.singleton_append (l := more), invocations_append,
        invocations_append]
      exact (List.Sublist.refl _).append ih

theorem invocations_children_sublist (node : Node) :
    (invocations node.children).Sublist (invocations [node]) := by
  rw [invocations_cons, invocations_nil, List.append_nil]
  exact List.sublist_append_right _ _

theorem isInvocation_eq (node : Node) :
    node.isInvocation = (node.role = .call || node.role = .source : Bool) := by
  unfold isInvocation role
  cases node.kind <;> simp only [NodeKind.frame?] <;> cases node.name? <;> rfl

end Node

namespace Rebuild

@[simp] theorem foldedDeclaration_kind (d : Declaration) (e : Option Expression) :
    (foldedDeclaration d e).kind = d.kind := by
  cases e with
  | none => rfl
  | some e =>
      simp only [foldedDeclaration]
      split <;> rfl

end Rebuild

theorem Node.kind_ne_method_of_condition {node twin : Node} (role : node.role = .condition)
    (declaration : twin.declaration = Rebuild.foldedDeclaration node.declaration node.expression) :
    twin.kind ≠ .method := by
  have kind : twin.kind = .condition := by
    rw [Node.kind, declaration, Rebuild.foldedDeclaration_kind]
    exact Node.role_eq_condition role
  simp [kind]

theorem Node.kind_ne_method_of_block {node twin : Node} {frame : Option (String × FrameKind)}
    (role : node.role = .block frame) (declaration : twin.declaration = node.declaration) :
    twin.kind ≠ .method := by
  rw [Node.kind, declaration]
  intro method
  simp [Node.role, Node.kind, method] at role

def CallTable.reached? (table : CallTable) (script : Script) (node : Node) : Option SharedBody :=
  match node.role with
  | .source => (table.identity? node.origin).bind fun identity => table.body? (.script identity)
  | .call => table.body? (.method script.identity node.target)
  | _ => none

theorem CallTable.callee_eq_of_body? {table : CallTable} {callee : Callee} {body : SharedBody}
    (found : table.body? callee = some body) : body.callee = callee := by
  simpa using List.find?_some found

theorem CallTable.body?_of_reached? {table : CallTable} {script : Script} {node : Node}
    {body : SharedBody} (reached : table.reached? script node = some body) :
    table.body? body.callee = some body := by
  unfold CallTable.reached? at reached
  split at reached
  · obtain ⟨_, -, found⟩ := Option.bind_eq_some_iff.1 reached
    rw [callee_eq_of_body? found, found]
  · rw [callee_eq_of_body? reached, reached]
  · cases reached

theorem CallTable.mem_of_reached? {table : CallTable} {script : Script} {node : Node}
    {body : SharedBody} (reached : table.reached? script node = some body) :
    body ∈ table.bodies :=
  List.mem_of_find?_eq_some (body?_of_reached? reached)

theorem CallTable.isInvocation_of_reached? {table : CallTable} {script : Script} {node : Node}
    {body : SharedBody} (reached : table.reached? script node = some body) :
    node.isInvocation = true := by
  unfold CallTable.reached? at reached
  rw [Node.isInvocation_eq]
  split at reached <;> simp_all

/-- Pairs of an invocation and the call that takes its place. -/
abbrev Sites := List (Node × Node)

/-- Nodes of a script and what they are rebuilt into, with the sites that stay. -/
inductive Rebuilt (table : CallTable) (filter : Node → Bool) (sites : Node → Node → Prop)
    (script : Script) : List Node → List Node → Prop
  | nil : Rebuilt table filter sites script [] []
  | rejected (rejects : filter node = false)
      (rest : Rebuilt table filter sites script nodes rebuilt) :
      Rebuilt table filter sites script (node :: nodes) rebuilt
  | declaration (role : node.role = .declaration)
      (rest : Rebuilt table filter sites script nodes rebuilt) :
      Rebuilt table filter sites script (node :: nodes) rebuilt
  | never (role : node.role = .condition) (constant : node.constant? = some false)
      (rest : Rebuilt table filter sites script nodes rebuilt) :
      Rebuilt table filter sites script (node :: nodes) rebuilt
  | always (role : node.role = .condition) (constant : node.constant? = some true)
      (below : Rebuilt table filter sites script node.children spliced)
      (rest : Rebuilt table filter sites script nodes rebuilt) :
      Rebuilt table filter sites script (node :: nodes) (spliced ++ rebuilt)
  | condition (role : node.role = .condition) (constant : node.constant? = none)
      (declaration : twin.declaration =
        Rebuild.foldedDeclaration node.declaration node.expression)
      (check : twin.declaration.check twin.children = .ok twin.expression)
      (below : Rebuilt table filter sites script node.children twin.children)
      (rest : Rebuilt table filter sites script nodes rebuilt) :
      Rebuilt table filter sites script (node :: nodes) (twin :: rebuilt)
  | invocation (invokes : node.isInvocation = true)
      (reached : table.reached? script node = some body)
      (declaration : twin.declaration =
        { kind := .invokeCall, attributes := .ofList [("name", .string body.canonical)],
          location := node.location })
      (childless : twin.children = []) (site : sites node twin)
      (rest : Rebuilt table filter sites script nodes rebuilt) :
      Rebuilt table filter sites script (node :: nodes) (twin :: rebuilt)
  | emptied (role : node.role = .block frame) (takes : node.kind.takesOptions = true)
      (optionless : ∀ option ∈ node.children, option.kind = .option → filter option = false)
      (rest : Rebuilt table filter sites script nodes rebuilt) :
      Rebuilt table filter sites script (node :: nodes) rebuilt
  | block (role : node.role = .block frame) (declaration : twin.declaration = node.declaration)
      (check : twin.declaration.check twin.children = .ok twin.expression)
      (below : Rebuilt table filter sites script node.children twin.children)
      (rest : Rebuilt table filter sites script nodes rebuilt) :
      Rebuilt table filter sites script (node :: nodes) (twin :: rebuilt)

namespace Rebuilt

variable {table : CallTable} {filter : Node → Bool} {sites more : Node → Node → Prop}
  {script : Script}

theorem mono (weaker : ∀ node twin, sites node twin → more node twin)
    (rebuilt : Rebuilt table filter sites script nodes result) :
    Rebuilt table filter more script nodes result := by
  induction rebuilt with
  | nil => exact .nil
  | rejected rejects _ ih => exact .rejected rejects ih
  | declaration role _ ih => exact .declaration role ih
  | never role constant _ ih => exact .never role constant ih
  | always role constant _ _ ihBelow ih => exact .always role constant ihBelow ih
  | condition role constant declaration check _ _ ihBelow ih =>
      exact .condition role constant declaration check ihBelow ih
  | invocation invokes reached declaration childless site _ ih =>
      exact .invocation invokes reached declaration childless (weaker _ _ site) ih
  | emptied role takes optionless _ ih => exact .emptied role takes optionless ih
  | block role declaration check _ _ ihBelow ih =>
      exact .block role declaration check ihBelow ih

theorem append (first : Rebuilt table filter sites script nodes result)
    (second : Rebuilt table filter sites script nodes' result') :
    Rebuilt table filter sites script (nodes ++ nodes') (result ++ result') := by
  induction first with
  | nil => exact second
  | rejected rejects _ ih => exact .rejected rejects ih
  | declaration role _ ih => exact .declaration role ih
  | never role constant _ ih => exact .never role constant ih
  | always role constant below _ _ ih =>
      rw [List.append_assoc]
      exact .always role constant below ih
  | condition role constant declaration check below _ _ ih =>
      exact .condition role constant declaration check below ih
  | invocation invokes reached declaration childless site _ ih =>
      exact .invocation invokes reached declaration childless site ih
  | emptied role takes optionless _ ih => exact .emptied role takes optionless ih
  | block role declaration check below _ _ ih => exact .block role declaration check below ih

theorem of_body {nodes : List Node}
    (rebuilt : Rebuilt table filter sites script (nodes.filter (·.kind ≠ .method)) result) :
    Rebuilt table filter sites script nodes result := by
  generalize body : nodes.filter (·.kind ≠ .method) = kept at rebuilt
  induction nodes generalizing kept result with
  | nil =>
      cases body
      exact rebuilt
  | cons node rest ih =>
      by_cases declared : node.kind = .method
      · rw [List.filter_cons_of_neg (by simpa using declared)] at body
        exact .declaration (by simp only [Node.role, declared]) (ih _ body rebuilt)
      · rw [List.filter_cons_of_pos (by simpa using declared)] at body
        subst body
        cases rebuilt with
        | rejected rejects later => exact .rejected rejects (ih _ rfl later)
        | declaration role later => exact .declaration role (ih _ rfl later)
        | never role constant later => exact .never role constant (ih _ rfl later)
        | always role constant below later => exact .always role constant below (ih _ rfl later)
        | condition role constant declaration check below later =>
            exact .condition role constant declaration check below (ih _ rfl later)
        | invocation invokes reached declaration childless site later =>
            exact .invocation invokes reached declaration childless site (ih _ rfl later)
        | emptied role takes optionless later =>
            exact .emptied role takes optionless (ih _ rfl later)
        | block role declaration check below later =>
            exact .block role declaration check below (ih _ rfl later)

theorem kind_ne_method (rebuilt : Rebuilt table filter sites script nodes result) :
    ∀ node ∈ result, node.kind ≠ .method := by
  induction rebuilt with
  | nil => simp
  | rejected _ _ ih => exact ih
  | declaration _ _ ih => exact ih
  | never _ _ _ ih => exact ih
  | always _ _ _ _ ihBelow ih => exact List.forall_mem_append.2 ⟨ihBelow, ih⟩
  | condition role _ declaration _ _ _ _ ih =>
      exact List.forall_mem_cons.2 ⟨Node.kind_ne_method_of_condition role declaration, ih⟩
  | invocation _ _ declaration _ _ _ ih =>
      exact List.forall_mem_cons.2 ⟨by simp [Node.kind, declaration], ih⟩
  | emptied _ _ _ _ ih => exact ih
  | block role declaration _ _ _ _ ih =>
      exact List.forall_mem_cons.2 ⟨Node.kind_ne_method_of_block role declaration, ih⟩

end Rebuilt

end Archetype
