import Archetype.Proofs.Flatten.Logged
import Archetype.Proofs.Flatten.Simulation
import Archetype.Proofs.Scope.Dissolving

/-!
What rebuilding makes of nodes where some bodies take the place of their invocations: a relation as
without inlining, but for a filter, and with one more way for an invocation to go.
-/

namespace Archetype

structure CallTable.Regular (table : CallTable) : Prop where
  nodes : ∀ body ∈ table.bodies, Node.AllRegular body.nodes
  optionless : ∀ body ∈ table.bodies, Node.optionsAmong body.nodes = []

namespace Drawn

variable {scripts : List Script} {callee : Callee} {script : Script} {nodes : List Node}

theorem preorderAll_subset (drawn : Drawn scripts callee script nodes) :
    Node.preorderAll nodes ⊆ Node.preorderAll script.root.children := by
  cases drawn with
  | script known =>
      intro node member
      obtain ⟨above, inside, below⟩ := Node.mem_preorderAll.1 member
      exact Node.mem_preorderAll.2 ⟨above, (List.mem_filter.1 inside).1, below⟩
  | method known declared named => exact Node.preorderAll_subset (List.mem_filter.1 declared).1

theorem optionless (drawn : Drawn scripts callee script nodes)
    (roots : ∀ s ∈ scripts, s.root.kind = .script)
    (regular : ∀ s ∈ scripts, ∀ node ∈ s.root.preorder, node.Regular) :
    Node.optionsAmong nodes = [] := by
  cases drawn with
  | script known =>
      have here := regular script known _ (Node.mem_preorder.2 (.inl rfl))
      have none := here.optionsAmong_eq_nil (by rw [roots script known]; rfl)
      exact Node.optionsAmong_eq_nil.2 fun node member =>
        Node.optionsAmong_eq_nil.1 none node (List.mem_filter.1 member).1
  | method known declared named =>
      obtain ⟨child, kind⟩ := List.mem_filter.1 declared
      have here := regular script known _
        (Node.mem_preorder.2 (.inr (Node.subset_preorderAll _ child)))
      exact here.optionsAmong_eq_nil (by rw [of_decide_eq_true kind]; rfl)

end Drawn

/-- Nodes of a script and what they are rebuilt into, with the sites that stay and the bodies that
take the place of their invocations. -/
inductive Spliced (table : CallTable) (sites : Node → Node → Prop) (inlines : SharedBody → Prop) :
    Script → List Node → List Node → Prop
  | nil : Spliced table sites inlines script [] []
  | declaration (role : node.role = .declaration)
      (rest : Spliced table sites inlines script nodes rebuilt) :
      Spliced table sites inlines script (node :: nodes) rebuilt
  | never (role : node.role = .condition) (constant : node.constant? = some false)
      (rest : Spliced table sites inlines script nodes rebuilt) :
      Spliced table sites inlines script (node :: nodes) rebuilt
  | always (role : node.role = .condition) (constant : node.constant? = some true)
      (below : Spliced table sites inlines script node.children spliced)
      (rest : Spliced table sites inlines script nodes rebuilt) :
      Spliced table sites inlines script (node :: nodes) (spliced ++ rebuilt)
  | condition (role : node.role = .condition) (constant : node.constant? = none)
      (declaration : twin.declaration =
        Rebuild.foldedDeclaration node.declaration node.expression)
      (check : twin.declaration.check twin.children = .ok twin.expression)
      (below : Spliced table sites inlines script node.children twin.children)
      (rest : Spliced table sites inlines script nodes rebuilt) :
      Spliced table sites inlines script (node :: nodes) (twin :: rebuilt)
  | invocation (reached : table.reached? script node = some body)
      (declaration : twin.declaration = body.call node.location) (childless : twin.children = [])
      (site : sites node twin)
      (rest : Spliced table sites inlines script nodes rebuilt) :
      Spliced table sites inlines script (node :: nodes) (twin :: rebuilt)
  | inlined (reached : table.reached? script node = some body) (gives : inlines body)
      (below : Spliced table sites inlines body.script body.nodes spliced)
      (rest : Spliced table sites inlines script nodes rebuilt) :
      Spliced table sites inlines script (node :: nodes) (spliced ++ rebuilt)
  | block (role : node.role = .block frame) (declaration : twin.declaration = node.declaration)
      (check : twin.declaration.check twin.children = .ok twin.expression)
      (below : Spliced table sites inlines script node.children twin.children)
      (rest : Spliced table sites inlines script nodes rebuilt) :
      Spliced table sites inlines script (node :: nodes) (twin :: rebuilt)

namespace Spliced

variable {table : CallTable} {sites more : Node → Node → Prop}
  {inlines inlines' : SharedBody → Prop} {script : Script} {nodes nodes' result result' : List Node}

theorem mono (weaker : ∀ node twin, sites node twin → more node twin)
    (wider : ∀ body, inlines body → inlines' body)
    (spliced : Spliced table sites inlines script nodes result) :
    Spliced table more inlines' script nodes result := by
  induction spliced with
  | nil => exact .nil
  | declaration role _ ih => exact .declaration role ih
  | never role constant _ ih => exact .never role constant ih
  | always role constant _ _ ihBelow ih => exact .always role constant ihBelow ih
  | condition role constant declaration check _ _ ihBelow ih =>
      exact .condition role constant declaration check ihBelow ih
  | invocation reached declaration childless site _ ih =>
      exact .invocation reached declaration childless (weaker _ _ site) ih
  | inlined reached gives _ _ ihBelow ih => exact .inlined reached (wider _ gives) ihBelow ih
  | block role declaration check _ _ ihBelow ih => exact .block role declaration check ihBelow ih

theorem append (first : Spliced table sites inlines script nodes result)
    (second : Spliced table sites inlines script nodes' result') :
    Spliced table sites inlines script (nodes ++ nodes') (result ++ result') := by
  induction first with
  | nil => exact second
  | declaration role _ ih => exact .declaration role (ih second)
  | never role constant _ ih => exact .never role constant (ih second)
  | always role constant below _ _ ih =>
      rw [List.append_assoc]
      exact .always role constant below (ih second)
  | condition role constant declaration check below _ _ ih =>
      exact .condition role constant declaration check below (ih second)
  | invocation reached declaration childless site _ ih =>
      exact .invocation reached declaration childless site (ih second)
  | inlined reached gives below _ _ ih =>
      rw [List.append_assoc]
      exact .inlined reached gives below (ih second)
  | block role declaration check below _ _ ih =>
      exact .block role declaration check below (ih second)

theorem of_body {nodes : List Node}
    (spliced : Spliced table sites inlines script (nodes.filter (·.kind ≠ .method)) result) :
    Spliced table sites inlines script nodes result := by
  generalize body : nodes.filter (·.kind ≠ .method) = kept at spliced
  induction nodes generalizing kept result with
  | nil =>
      cases body
      exact spliced
  | cons node rest ih =>
      by_cases declared : node.kind = .method
      · rw [List.filter_cons_of_neg (by simpa using declared)] at body
        exact .declaration (by simp only [Node.role, declared]) (ih _ body spliced)
      · rw [List.filter_cons_of_pos (by simpa using declared)] at body
        subst body
        cases spliced with
        | declaration role later => exact .declaration role (ih _ rfl later)
        | never role constant later => exact .never role constant (ih _ rfl later)
        | always role constant below later => exact .always role constant below (ih _ rfl later)
        | condition role constant declaration check below later =>
            exact .condition role constant declaration check below (ih _ rfl later)
        | invocation reached declaration childless site later =>
            exact .invocation reached declaration childless site (ih _ rfl later)
        | inlined reached gives below later =>
            exact .inlined reached gives below (ih _ rfl later)
        | block role declaration check below later =>
            exact .block role declaration check below (ih _ rfl later)

theorem kind_ne_method (spliced : Spliced table sites inlines script nodes result) :
    ∀ node ∈ result, node.kind ≠ .method := by
  induction spliced with
  | nil => simp
  | declaration _ _ ih => exact ih
  | never _ _ _ ih => exact ih
  | always _ _ _ _ ihBelow ih => exact List.forall_mem_append.2 ⟨ihBelow, ih⟩
  | condition role _ declaration _ _ _ _ ih =>
      exact List.forall_mem_cons.2 ⟨Node.kind_ne_method_of_condition role declaration, ih⟩
  | invocation _ declaration _ _ _ ih =>
      exact List.forall_mem_cons.2 ⟨by simp [Node.kind, declaration], ih⟩
  | inlined _ _ _ _ ihBelow ih => exact List.forall_mem_append.2 ⟨ihBelow, ih⟩
  | block role declaration _ _ _ _ ih =>
      exact List.forall_mem_cons.2 ⟨Node.kind_ne_method_of_block role declaration, ih⟩

theorem optionsAmong_eq (bodies : table.Regular)
    (spliced : Spliced table sites inlines script nodes result) (regular : Node.AllRegular nodes) :
    Node.optionsAmong result = Node.optionsAmong nodes := by
  induction spliced with
  | nil => rfl
  | declaration role _ ih =>
      rw [Node.optionsAmong_cons_of_ne (Node.kind_ne_option (by simp [role]))]
      exact ih (Node.allRegular_cons.1 regular).2.2
  | never role _ _ ih =>
      rw [Node.optionsAmong_cons_of_ne (Node.kind_ne_option (by simp [role]))]
      exact ih (Node.allRegular_cons.1 regular).2.2
  | always role _ _ _ ihBelow ih =>
      obtain ⟨here, below, later⟩ := Node.allRegular_cons.1 regular
      have none := here.optionsAmong_eq_nil (by rw [Node.role_eq_condition role]; rfl)
      rw [Node.optionsAmong_cons_of_ne (Node.kind_ne_option (by simp [role])),
        Node.optionsAmong_append, ihBelow below, none, ih later, List.nil_append]
  | condition _ _ declaration _ _ _ _ ih =>
      obtain ⟨here, -, later⟩ := Node.allRegular_cons.1 regular
      exact Node.optionsAmong_cons_congr (declaration.trans here.foldedDeclaration_eq) (ih later)
  | @invocation _ _ _ twin _ _ reached declaration _ _ _ ih =>
      have invokes := CallTable.isInvocation_of_reached? reached
      have twin : twin.kind ≠ .option := by simp [Node.kind, declaration]
      rw [Node.optionsAmong_cons_of_ne twin,
        Node.optionsAmong_cons_of_ne (Node.kind_ne_option_of_isInvocation invokes)]
      exact ih (Node.allRegular_cons.1 regular).2.2
  | inlined reached _ _ _ ihBelow ih =>
      have invokes := CallTable.isInvocation_of_reached? reached
      have member := CallTable.mem_of_reached? reached
      rw [Node.optionsAmong_append, ihBelow (bodies.nodes _ member), bodies.optionless _ member,
        List.nil_append,
        Node.optionsAmong_cons_of_ne (Node.kind_ne_option_of_isInvocation invokes)]
      exact ih (Node.allRegular_cons.1 regular).2.2
  | block _ declaration _ _ _ _ ih =>
      exact Node.optionsAmong_cons_congr declaration (ih (Node.allRegular_cons.1 regular).2.2)

end Spliced

mutual
/-- Does walking a node declare a variable in the scope that it is walked in? -/
def Node.declares : Node → Bool
  | ⟨id, d, e, children⟩ =>
      match (⟨id, d, e, children⟩ : Node).role with
      | .condition => Node.anyDeclares children
      | .block none => d.kind = .var || Node.anyDeclares children
      | _ => false

def Node.anyDeclares : List Node → Bool
  | [] => false
  | node :: rest => node.declares || Node.anyDeclares rest
end

namespace Node

theorem declares_eq (node : Node) : node.declares =
    match node.role with
    | .condition => anyDeclares node.children
    | .block none => node.kind = .var || anyDeclares node.children
    | _ => false := by
  obtain ⟨id, d, e, children⟩ := node
  rw [declares]

theorem anyDeclares_eq_false {nodes : List Node} :
    anyDeclares nodes = false ↔ ∀ node ∈ nodes, node.declares = false := by
  induction nodes with
  | nil => simp [anyDeclares]
  | cons node rest ih => simp [anyDeclares, ih]

theorem anyDeclares_body (nodes : List Node) :
    anyDeclares (nodes.filter (·.kind ≠ .method)) = anyDeclares nodes := by
  induction nodes with
  | nil => rfl
  | cons node rest ih =>
      by_cases declared : node.kind = .method
      · have none : node.declares = false := by
          rw [declares_eq, role_eq_declaration.2 declared]
        rw [List.filter_cons_of_neg (by simpa using declared), anyDeclares, none, ih]
        rfl
      · rw [List.filter_cons_of_pos (by simpa using declared), anyDeclares, anyDeclares, ih]

end Node

/-- A flat list of methods stands for the scripts where some bodies take the place of their
invocations. The frames of these invocations go, and nothing declares a variable right in them; the
others are renamed. -/
structure Splice (library : Library) (scripts : List Script) (table : CallTable)
    (sites : Node → Node → Prop) (inlines : SharedBody → Prop) (δ : Dissolving) (flat : Methods) :
    Prop where
  found : ∀ {node twin body}, sites node twin → body ∈ table.bodies →
    body.canonical = twin.target → ∃ method, flat.lookup twin.target = some method ∧
      method.kind = .method ∧ Spliced table sites inlines body.script body.nodes method.children
  frame : ∀ {node twin}, sites node twin →
    δ.apply (node.calledFrame library) = invocationFrame twin.target twin.id ∧
      δ.gone (node.calledFrame library) = false
  gone : ∀ {script node body}, script ∈ scripts → node ∈ Node.invocations script.root.children →
    table.reached? script node = some body → inlines body →
      δ.gone (node.calledFrame library) = true
  settles : ∀ {body}, body ∈ table.bodies → inlines body → Node.anyDeclares body.nodes = false

end Archetype
