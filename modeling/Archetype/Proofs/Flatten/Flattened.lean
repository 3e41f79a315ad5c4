import Archetype.Proofs.Flatten.Reached

/-!
What flattening makes of the nodes of a script: a relation between nodes and what takes their place,
which may be a call or the nodes of a body. It goes along with the names of the frames that are
taken in the scope of the nodes.
-/

namespace Archetype

def NodeKind.Flat (kind : NodeKind) : Prop := kind ≠ .method ∧ kind ≠ .invokeSource

namespace Node

/-- The frames that are taken where the children of a node are walked, when some are taken where the
node is. -/
def takenBelow (node : Node) (taken : List String) : List String :=
  if node.kind.frame?.isSome then allFrameNames node.children else taken

/-- The frames that are taken after a node, when some were taken before it and others after its
children. -/
def takenAfter (node : Node) (taken between : List String) : List String :=
  if node.kind.frame?.isSome then taken else between

end Node

/-- Nodes of a script and what they are flattened into, with the frames that are taken before and
after. Every call is of one of the names. -/
inductive Flattened (table : CallTable) (filter : Node → Bool) (inline : Bool)
    (names : List String) : Script → List String → List Node → List Node → List String → Prop
  | nil : Flattened table filter inline names script taken [] [] taken
  | rejected (rejects : filter node = false)
      (rest : Flattened table filter inline names script taken nodes result left) :
      Flattened table filter inline names script taken (node :: nodes) result left
  | declaration (role : node.role = .declaration)
      (rest : Flattened table filter inline names script taken nodes result left) :
      Flattened table filter inline names script taken (node :: nodes) result left
  | never (role : node.role = .condition) (constant : node.constant? = some false)
      (rest : Flattened table filter inline names script taken nodes result left) :
      Flattened table filter inline names script taken (node :: nodes) result left
  | always (accepts : filter node = true) (role : node.role = .condition)
      (constant : node.constant? = some true)
      (below : Flattened table filter inline names script taken node.children spliced between)
      (rest : Flattened table filter inline names script between nodes result left) :
      Flattened table filter inline names script taken (node :: nodes) (spliced ++ result) left
  | condition (accepts : filter node = true) (role : node.role = .condition)
      (constant : node.constant? = none)
      (declaration : twin.declaration =
        Rebuild.foldedDeclaration node.declaration node.expression)
      (check : twin.declaration.check twin.children = .ok twin.expression)
      (below : Flattened table filter inline names script taken node.children twin.children between)
      (rest : Flattened table filter inline names script between nodes result left) :
      Flattened table filter inline names script taken (node :: nodes) (twin :: result) left
  | call (accepts : filter node = true) (invokes : node.isInvocation = true)
      (reached : table.reached? script node = some body)
      (declaration : twin.declaration =
        { kind := .invokeCall, attributes := .ofList [("name", .string body.canonical)],
          location := node.location })
      (check : twin.declaration.check twin.children = .ok twin.expression)
      (childless : twin.children = []) (named : body.canonical ∈ names)
      (rest : Flattened table filter inline names script taken nodes result left) :
      Flattened table filter inline names script taken (node :: nodes) (twin :: result) left
  | inlined (inlines : inline = true) (accepts : filter node = true)
      (invokes : node.isInvocation = true) (reached : table.reached? script node = some body)
      (single : body.count = 1) (closed : body.isInlinable = true)
      (apart : ∀ name ∈ Node.allFrameNames body.nodes, name ∉ taken)
      (below : Flattened table filter inline names body.script
        (Node.allFrameNames body.nodes ++ taken) body.nodes spliced between)
      (rest : Flattened table filter inline names script between nodes result left) :
      Flattened table filter inline names script taken (node :: nodes) (spliced ++ result) left
  | emptied (role : node.role = .block frame) (takes : node.kind.takesOptions = true)
      (optionless : ∀ option ∈ node.children, option.kind = .option → filter option = false)
      (rest : Flattened table filter inline names script taken nodes result left) :
      Flattened table filter inline names script taken (node :: nodes) result left
  | block (accepts : filter node = true) (role : node.role = .block frame)
      (declaration : twin.declaration = node.declaration)
      (check : twin.declaration.check twin.children = .ok twin.expression)
      (below : Flattened table filter inline names script (node.takenBelow taken) node.children
        twin.children between)
      (rest : Flattened table filter inline names script (node.takenAfter taken between) nodes
        result left) :
      Flattened table filter inline names script taken (node :: nodes) (twin :: result) left

namespace Flattened

variable {table : CallTable} {filter : Node → Bool} {inline : Bool} {names more : List String}
  {script : Script} {taken between left : List String} {nodes nodes' result result' : List Node}

theorem mono (larger : ∀ name ∈ names, name ∈ more)
    (flattened : Flattened table filter inline names script taken nodes result left) :
    Flattened table filter inline more script taken nodes result left := by
  induction flattened with
  | nil => exact .nil
  | rejected rejects _ ih => exact .rejected rejects ih
  | declaration role _ ih => exact .declaration role ih
  | never role constant _ ih => exact .never role constant ih
  | always accepts role constant _ _ ihBelow ih => exact .always accepts role constant ihBelow ih
  | condition accepts role constant declaration check _ _ ihBelow ih =>
      exact .condition accepts role constant declaration check ihBelow ih
  | call accepts invokes reached declaration check childless named _ ih =>
      exact .call accepts invokes reached declaration check childless (larger _ named) ih
  | inlined inlines accepts invokes reached single closed apart _ _ ihBelow ih =>
      exact .inlined inlines accepts invokes reached single closed apart ihBelow ih
  | emptied role takes optionless _ ih => exact .emptied role takes optionless ih
  | block accepts role declaration check _ _ ihBelow ih =>
      exact .block accepts role declaration check ihBelow ih

theorem append (first : Flattened table filter inline names script taken nodes result between)
    (second : Flattened table filter inline names script between nodes' result' left) :
    Flattened table filter inline names script taken (nodes ++ nodes') (result ++ result')
      left := by
  induction first with
  | nil => exact second
  | rejected rejects _ ih => exact .rejected rejects (ih second)
  | declaration role _ ih => exact .declaration role (ih second)
  | never role constant _ ih => exact .never role constant (ih second)
  | always accepts role constant below _ _ ih =>
      rw [List.append_assoc]
      exact .always accepts role constant below (ih second)
  | condition accepts role constant declaration check below _ _ ih =>
      exact .condition accepts role constant declaration check below (ih second)
  | call accepts invokes reached declaration check childless named _ ih =>
      exact .call accepts invokes reached declaration check childless named (ih second)
  | inlined inlines accepts invokes reached single closed apart below _ _ ih =>
      rw [List.append_assoc]
      exact .inlined inlines accepts invokes reached single closed apart below (ih second)
  | emptied role takes optionless _ ih => exact .emptied role takes optionless (ih second)
  | block accepts role declaration check below _ _ ih =>
      exact .block accepts role declaration check below (ih second)

theorem flat (flattened : Flattened table filter inline names script taken nodes result left) :
    ∀ node ∈ Node.preorderAll result, node.kind.Flat := by
  induction flattened with
  | nil => simp [Node.preorderAll]
  | rejected _ _ ih => exact ih
  | declaration _ _ ih => exact ih
  | never _ _ _ ih => exact ih
  | always _ _ _ _ _ ihBelow ih =>
      rw [Node.preorderAll_append]
      exact List.forall_mem_append.2 ⟨ihBelow, ih⟩
  | condition _ role _ declaration _ _ _ ihBelow ih =>
      rw [Node.preorderAll_cons, List.forall_mem_cons, List.forall_mem_append]
      have kind := Node.role_eq_condition role
      refine ⟨?_, ihBelow, ih⟩
      rw [Node.kind, declaration, Rebuild.foldedDeclaration_kind, ← Node.kind, kind]
      exact ⟨NodeKind.noConfusion, NodeKind.noConfusion⟩
  | call _ _ _ declaration _ childless _ _ ih =>
      rw [Node.preorderAll_cons, childless, List.forall_mem_cons, List.forall_mem_append]
      refine ⟨?_, by simp [Node.preorderAll], ih⟩
      rw [Node.kind, declaration]
      exact ⟨NodeKind.noConfusion, NodeKind.noConfusion⟩
  | inlined _ _ _ _ _ _ _ _ _ ihBelow ih =>
      rw [Node.preorderAll_append]
      exact List.forall_mem_append.2 ⟨ihBelow, ih⟩
  | emptied _ _ _ _ ih => exact ih
  | block _ role declaration _ _ _ ihBelow ih =>
      rw [Node.preorderAll_cons, List.forall_mem_cons, List.forall_mem_append]
      refine ⟨?_, ihBelow, ih⟩
      rw [Node.kind, declaration]
      constructor <;> intro kind <;> simp [Node.role, Node.kind, kind] at role

theorem uncalled (flattened : Flattened table filter inline names script taken nodes result left)
    (unreached : Node.reachedAll filter nodes = []) :
    ∀ node ∈ Node.preorderAll result, node.kind ≠ .invokeCall := by
  have invoked : ∀ {node : Node}, filter node = true → node.isInvocation = true →
      node.reached filter ≠ [] := by
    intro node accepts invokes
    cases role : node.role <;> simp_all [Node.reached_eq, Node.isInvocation_eq]
  induction flattened with
  | nil => simp [Node.preorderAll]
  | rejected _ _ ih => exact ih (List.append_eq_nil_iff.1 unreached).2
  | declaration _ _ ih => exact ih (List.append_eq_nil_iff.1 unreached).2
  | never _ _ _ ih => exact ih (List.append_eq_nil_iff.1 unreached).2
  | emptied _ _ _ _ ih => exact ih (List.append_eq_nil_iff.1 unreached).2
  | always accepts role constant _ _ ihBelow ih =>
      obtain ⟨here, later⟩ := List.append_eq_nil_iff.1 unreached
      rw [Node.preorderAll_append]
      refine List.forall_mem_append.2 ⟨ihBelow ?_, ih later⟩
      simpa [Node.reached_eq, accepts, role, constant] using here
  | condition accepts role constant declaration _ _ _ ihBelow ih =>
      obtain ⟨here, later⟩ := List.append_eq_nil_iff.1 unreached
      rw [Node.forall_preorderAll_cons]
      refine ⟨?_, ihBelow ?_, ih later⟩
      · rw [Node.kind, declaration, Rebuild.foldedDeclaration_kind, ← Node.kind,
          Node.role_eq_condition role]
        exact NodeKind.noConfusion
      · simpa [Node.reached_eq, accepts, role, constant] using here
  | call accepts invokes =>
      exact absurd (List.append_eq_nil_iff.1 unreached).1 (invoked accepts invokes)
  | inlined _ accepts invokes =>
      exact absurd (List.append_eq_nil_iff.1 unreached).1 (invoked accepts invokes)
  | block accepts role declaration _ _ _ ihBelow ih =>
      obtain ⟨here, later⟩ := List.append_eq_nil_iff.1 unreached
      rw [Node.forall_preorderAll_cons]
      refine ⟨fun call => ?_, ihBelow ?_, ih later⟩
      · rw [Node.kind, declaration] at call
        simp [Node.role_eq_call.2 call] at role
      · simpa [Node.reached_eq, accepts, role] using here

theorem exists_option
    (flattened : Flattened table filter inline names script taken nodes result left)
    {option : Node} (member : option ∈ nodes) (kind : option.kind = .option)
    (accepts : filter option = true) : ∃ twin ∈ result, twin.declaration = option.declaration := by
  have role : option.role = .block none := by simp only [Node.role, kind, NodeKind.frame?]
  have later : ∀ {node : Node} {rest : List Node}, node.role ≠ .block none →
      option ∈ node :: rest → option ∈ rest := by
    intro node rest other member
    rcases List.mem_cons.1 member with rfl | member
    · exact absurd role other
    · exact member
  have uncalled : ∀ {node : Node}, node.isInvocation = true → node.role ≠ .block none := by
    intro node invokes block
    simp [Node.isInvocation_eq, block] at invokes
  induction flattened with
  | nil => cases member
  | rejected rejects _ ih =>
      rcases List.mem_cons.1 member with rfl | member
      · simp [accepts] at rejects
      · exact ih member
  | declaration role _ ih => exact ih (later (by simp [role]) member)
  | never role _ _ ih => exact ih (later (by simp [role]) member)
  | always _ role _ _ _ _ ih =>
      obtain ⟨twin, member, same⟩ := ih (later (by simp [role]) member)
      exact ⟨twin, List.mem_append_right _ member, same⟩
  | condition _ role _ _ _ _ _ _ ih =>
      obtain ⟨twin, member, same⟩ := ih (later (by simp [role]) member)
      exact ⟨twin, List.mem_cons_of_mem _ member, same⟩
  | call _ invokes _ _ _ _ _ _ ih =>
      obtain ⟨twin, member, same⟩ := ih (later (uncalled invokes) member)
      exact ⟨twin, List.mem_cons_of_mem _ member, same⟩
  | inlined _ _ invokes _ _ _ _ _ _ _ ih =>
      obtain ⟨twin, member, same⟩ := ih (later (uncalled invokes) member)
      exact ⟨twin, List.mem_append_right _ member, same⟩
  | emptied _ takes _ _ ih =>
      rcases List.mem_cons.1 member with rfl | member
      · simp [kind, NodeKind.takesOptions] at takes
      · exact ih member
  | block _ _ declaration _ _ _ _ ih =>
      rcases List.mem_cons.1 member with rfl | member
      · exact ⟨_, List.mem_cons_self .., declaration⟩
      · obtain ⟨twin, member, same⟩ := ih member
        exact ⟨twin, List.mem_cons_of_mem _ member, same⟩

end Flattened

end Archetype
