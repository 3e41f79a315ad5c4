import Archetype.Proofs.Flatten.Closed
import Archetype.Proofs.Flatten.Sharing
import Archetype.Proofs.Script.Rechecking

/-!
Whether what is left of a script may stand where flattening puts it. A condition that always holds
gives way to its children, which were only checked against the condition, and the filter may take
away the options that a default chooses. Inlined bodies are no danger: where an invocation may
stand, so may everything at the top of a body.
-/

namespace Archetype

mutual
/-- May everything that flattening puts in the place of a node stand below the declaration? -/
def Node.fitsBelow (filter : Node → Bool) (parent : Declaration) : Node → Bool
  | ⟨id, d, e, children⟩ =>
      let this : Node := ⟨id, d, e, children⟩
      if filter this then
        match this.role, this.constant? with
        | .declaration, _ => true
        | .condition, some true => Node.allFitBelow filter parent children
        | .condition, some false => true
        | _, _ => parent.childFault? d = none
      else true

def Node.allFitBelow (filter : Node → Bool) (parent : Declaration) : List Node → Bool
  | [] => true
  | node :: rest => node.fitsBelow filter parent && Node.allFitBelow filter parent rest
end

namespace Node

/-- Flattening leaves a node with children that it has room for: all that is left below it may stand
there, and the options that its default chooses stay, if any option does. -/
structure Fits (filter : Node → Bool) (node : Node) : Prop where
  below : allFitBelow filter node.declaration node.children = true
  picked : ∀ option ∈ node.children, option.kind = .option → filter option = true →
    ∀ value ∈ node.declaration.picks, ∃ other ∈ node.children, other.kind = .option ∧
      filter other = true ∧ other.declaration.value? = some value

instance (filter : Node → Bool) (node : Node) : Decidable (node.Fits filter) :=
  decidable_of_iff (allFitBelow filter node.declaration node.children = true ∧
    ∀ option ∈ node.children, option.kind = .option → filter option = true →
      ∀ value ∈ node.declaration.picks, ∃ other ∈ node.children, other.kind = .option ∧
        filter other = true ∧ other.declaration.value? = some value)
    ⟨fun ⟨below, picked⟩ => ⟨below, picked⟩, fun ⟨below, picked⟩ => ⟨below, picked⟩⟩

def AllFit (filter : Node → Bool) (nodes : List Node) : Prop :=
  ∀ node ∈ preorderAll nodes, node.Checked ∧ (filter node = true → node.Fits filter)

end Node

/-- Everything in the script fits; nobody asks the filter about the root and the methods. -/
def Script.Fits (filter : Node → Bool) (script : Script) : Prop :=
  ∀ node ∈ script.root.preorder,
    filter node = true ∨ node.kind = .script ∨ node.kind = .method → node.Fits filter

instance (filter : Node → Bool) (script : Script) : Decidable (script.Fits filter) :=
  inferInstanceAs (Decidable (∀ node ∈ script.root.preorder,
    filter node = true ∨ node.kind = .script ∨ node.kind = .method → node.Fits filter))

structure FittingBody (filter : Node → Bool) (nodes : List Node) : Prop where
  fit : Node.AllFit filter nodes
  top : ∃ host : Declaration, (host.kind = .script ∨ host.kind = .method) ∧
    Node.allFitBelow filter host nodes = true

namespace Node

variable {filter : Node → Bool} {parent host : Declaration} {node : Node} {nodes : List Node}

theorem fitsBelow_eq (node : Node) : node.fitsBelow filter parent =
    if filter node then
      match node.role, node.constant? with
      | .declaration, _ => true
      | .condition, some true => allFitBelow filter parent node.children
      | .condition, some false => true
      | _, _ => decide (parent.childFault? node.declaration = none)
    else true := by
  obtain ⟨id, d, e, children⟩ := node
  rfl

theorem allFitBelow_cons : allFitBelow filter parent (node :: nodes) = true ↔
    node.fitsBelow filter parent = true ∧ allFitBelow filter parent nodes = true := by
  rw [allFitBelow, Bool.and_eq_true]

theorem allFitBelow_iff : allFitBelow filter parent nodes = true ↔
    ∀ node ∈ nodes, node.fitsBelow filter parent = true := by
  induction nodes with
  | nil => simp [allFitBelow]
  | cons node rest ih => rw [allFitBelow_cons, List.forall_mem_cons, ih]

mutual
/-- Nodes fit below every declaration that has room for whatever the first one has room for. -/
theorem fitsBelow_mono
    (wider : ∀ child, host.childFault? child = none → parent.childFault? child = none) :
    ∀ node : Node, node.fitsBelow filter host = true → node.fitsBelow filter parent = true
  | ⟨id, d, e, children⟩, fits => by
      have below := allFitBelow_mono wider children
      generalize hnode : (⟨id, d, e, children⟩ : Node) = node at fits ⊢
      rw [← show node.children = children from hnode ▸ rfl] at below
      rw [fitsBelow_eq] at fits ⊢
      split
      · next accepts =>
          rw [if_pos accepts] at fits
          split
          · rfl
          · next role constant =>
              simp only [role, constant] at fits
              exact below fits
          · rfl
          · next declared always never =>
              split at fits
              · next role => exact absurd role declared
              · next role constant => exact absurd constant (always role)
              · next role constant => exact absurd constant (never role)
              · exact decide_eq_true (wider _ (of_decide_eq_true fits))
      · rfl

theorem allFitBelow_mono
    (wider : ∀ child, host.childFault? child = none → parent.childFault? child = none) :
    ∀ nodes : List Node, allFitBelow filter host nodes = true →
      allFitBelow filter parent nodes = true
  | [], _ => rfl
  | node :: rest, fits => by
      obtain ⟨here, later⟩ := allFitBelow_cons.1 fits
      exact allFitBelow_cons.2 ⟨fitsBelow_mono wider node here, allFitBelow_mono wider rest later⟩
end

theorem placed_of_fitsBelow (accepts : filter node = true) (declared : node.role ≠ .declaration)
    (undecided : node.role = .condition → node.constant? = none)
    (fits : node.fitsBelow filter parent = true) : parent.childFault? node.declaration = none := by
  rw [fitsBelow_eq, if_pos accepts] at fits
  split at fits
  · next role => exact absurd role declared
  · next role constant => exact absurd (constant.symm.trans (undecided role)) nofun
  · next role constant => exact absurd (constant.symm.trans (undecided role)) nofun
  · exact of_decide_eq_true fits

theorem AllFit.of_cons (fit : AllFit filter (node :: nodes)) :
    (node.Checked ∧ (filter node = true → node.Fits filter)) ∧ AllFit filter node.children ∧
      AllFit filter nodes :=
  forall_preorderAll_cons.1 fit

theorem isInvocation_iff : node.isInvocation = true ↔
    node.declaration.kind = .invokeCall ∨ node.declaration.kind = .invokeSource := by
  simp [isInvocation, Node.kind]

theorem undeclared_of_isInvocation (invokes : node.isInvocation = true) :
    node.role ≠ .declaration ∧ node.role ≠ .condition := by
  constructor <;> intro role <;> simp [isInvocation_eq, role] at invokes

end Node

namespace FittingBody

variable {filter : Node → Bool} {nodes : List Node} (fitting : FittingBody filter nodes)
include fitting

theorem allFitBelow {parent invocation : Declaration}
    (invokes : invocation.kind = .invokeCall ∨ invocation.kind = .invokeSource)
    (placed : parent.childFault? invocation = none) :
    Node.allFitBelow filter parent nodes = true := by
  obtain ⟨host, top, fits⟩ := fitting.top
  exact Node.allFitBelow_mono
    (fun child hosted => (Declaration.Portable.of_top top hosted).childFault? invokes placed) nodes
    fits

/-- A body fits at the top of any script and in any method. -/
theorem allFitBelow_top {host : Declaration} (top : host.kind = .script ∨ host.kind = .method) :
    Node.allFitBelow filter host nodes = true := by
  let call : Declaration := { kind := .invokeCall }
  refine fitting.allFitBelow (.inl (show call.kind = .invokeCall from rfl)) ?_
  rcases top with top | top <;>
    simp [call, Declaration.childFault?, Declaration.needsName, NodeKind.isModel, top]

end FittingBody

theorem Node.mem_preorderAll_of_child {child : Node} : ∀ {nodes : List Node} {node : Node},
    node ∈ preorderAll nodes → child ∈ node.children → child ∈ preorderAll nodes
  | [], _, member, _ => absurd member List.not_mem_nil
  | ⟨id, d, e, children⟩ :: rest, node, member, below => by
      rw [preorderAll_cons] at member ⊢
      rcases List.mem_cons.1 member with rfl | member
      · exact List.mem_cons_of_mem _ (List.mem_append_left _ (subset_preorderAll _ below))
      · refine List.mem_cons_of_mem _ ?_
        rcases List.mem_append.1 member with member | member
        · exact List.mem_append_left _ (mem_preorderAll_of_child member below)
        · exact List.mem_append_right _ (mem_preorderAll_of_child member below)

theorem Script.Fits.fittingBody {script : Script} {filter : Node → Bool} {nodes : List Node}
    (fits : script.Fits filter) (rooted : script.root.kind = .script) (built : script.root.Built)
    (shares : script.Shares nodes) : FittingBody filter nodes := by
  have inside : ∀ {nodes : List Node}, Node.preorderAll nodes ⊆ script.root.preorder →
      Node.AllFit filter nodes := fun inside node member =>
    ⟨built node (inside member), fun accepts => fits node (inside member) (.inl accepts)⟩
  cases shares with
  | body =>
      have root := fits script.root (Node.mem_preorder.2 (.inl rfl)) (.inr (.inl rooted))
      refine ⟨inside fun node member => ?_, script.root.declaration, .inl rooted, ?_⟩
      · obtain ⟨child, top, below⟩ := Node.mem_preorderAll.1 member
        exact Node.mem_preorder.2
          (.inr (Node.mem_preorderAll.2 ⟨child, (List.mem_filter.1 top).1, below⟩))
      · exact Node.allFitBelow_iff.2 fun node member =>
          Node.allFitBelow_iff.1 root.below node (List.mem_filter.1 member).1
  | @method method declared =>
      obtain ⟨top, kind⟩ := List.mem_filter.1 declared
      have kind : method.kind = .method := of_decide_eq_true kind
      have there : method ∈ script.root.preorder :=
        Node.mem_preorder.2 (.inr (Node.subset_preorderAll _ top))
      refine ⟨inside (Node.preorderAll_method declared), method.declaration, .inr kind, ?_⟩
      exact (fits method there (.inr (.inr kind))).below

namespace Flattened

variable {table : CallTable} {filter : Node → Bool} {inline : Bool} {names : List String}
  {script : Script} {taken left : List String} {nodes result : List Node}
  (bodies : ∀ body ∈ table.bodies, FittingBody filter body.nodes)
include bodies

theorem placed {parent : Declaration}
    (flattened : Flattened table filter inline names script taken nodes result left)
    (fits : Node.allFitBelow filter parent nodes = true) :
    ∀ twin ∈ result, parent.childFault? twin.declaration = none := by
  induction flattened with
  | nil => exact nofun
  | rejected _ _ ih => exact ih (Node.allFitBelow_cons.1 fits).2
  | declaration _ _ ih => exact ih (Node.allFitBelow_cons.1 fits).2
  | never _ _ _ ih => exact ih (Node.allFitBelow_cons.1 fits).2
  | emptied _ _ _ _ ih => exact ih (Node.allFitBelow_cons.1 fits).2
  | always accepts role constant _ _ ihBelow ih =>
      obtain ⟨here, later⟩ := Node.allFitBelow_cons.1 fits
      simp only [Node.fitsBelow_eq, accepts, if_true, role, constant] at here
      exact List.forall_mem_append.2 ⟨ihBelow here, ih later⟩
  | condition accepts role constant declaration _ _ _ _ ih =>
      obtain ⟨here, later⟩ := Node.allFitBelow_cons.1 fits
      have kind := Node.role_eq_condition role
      refine List.forall_mem_cons.2 ⟨?_, ih later⟩
      rw [declaration, Declaration.childFault?_condition kind
        ((Rebuild.foldedDeclaration_kind _ _).trans kind)]
      exact Node.placed_of_fitsBelow accepts (by simp [role]) (fun _ => constant) here
  | call accepts invokes _ declaration _ _ _ _ ih =>
      obtain ⟨here, later⟩ := Node.allFitBelow_cons.1 fits
      obtain ⟨declared, undecided⟩ := Node.undeclared_of_isInvocation invokes
      have placed := Node.placed_of_fitsBelow accepts declared (absurd · undecided) here
      refine List.forall_mem_cons.2 ⟨?_, ih later⟩
      rw [declaration]
      exact (Declaration.Portable.of_invocation (.inl rfl)).childFault?
        (Node.isInvocation_iff.1 invokes) placed
  | inlined _ accepts invokes reached _ _ _ _ _ ihBelow ih =>
      obtain ⟨here, later⟩ := Node.allFitBelow_cons.1 fits
      obtain ⟨declared, undecided⟩ := Node.undeclared_of_isInvocation invokes
      have placed := Node.placed_of_fitsBelow accepts declared (absurd · undecided) here
      have fitting := bodies _ (CallTable.mem_of_reached? reached)
      exact List.forall_mem_append.2
        ⟨ihBelow (fitting.allFitBelow (Node.isInvocation_iff.1 invokes) placed), ih later⟩
  | block accepts role declaration _ _ _ _ ih =>
      obtain ⟨here, later⟩ := Node.allFitBelow_cons.1 fits
      refine List.forall_mem_cons.2 ⟨?_, ih later⟩
      rw [declaration]
      exact Node.placed_of_fitsBelow accepts (by simp [role]) (by simp [role]) here

/-- Options come from options that the filter accepts, beside the nodes and not below them. -/
theorem exists_accepted (fit : Node.AllFit filter nodes)
    (flattened : Flattened table filter inline names script taken nodes result left) :
    ∀ twin ∈ result, twin.kind = .option →
      ∃ option ∈ nodes, option.kind = .option ∧ filter option = true := by
  have later : ∀ {node : Node} {rest : List Node},
      (∃ option ∈ rest, option.kind = .option ∧ filter option = true) →
        ∃ option ∈ node :: rest, option.kind = .option ∧ filter option = true := by
    intro node rest found
    obtain ⟨option, member, here⟩ := found
    exact ⟨option, List.mem_cons_of_mem _ member, here⟩
  -- What is spliced in came from below a node that takes no options.
  have optionless : ∀ {host : Declaration} {twin : Node}, host.kind.takesOptions = false →
      host.childFault? twin.declaration = none → twin.kind ≠ .option := by
    intro host twin takes placed option
    rw [Node.kind] at option
    simp [Declaration.childFault?, option, takes] at placed
  induction flattened with
  | nil => exact fun _ member => absurd member List.not_mem_nil
  | rejected _ _ ih => exact fun twin member kind => later (ih fit.of_cons.2.2 twin member kind)
  | declaration _ _ ih => exact fun twin member kind => later (ih fit.of_cons.2.2 twin member kind)
  | never _ _ _ ih => exact fun twin member kind => later (ih fit.of_cons.2.2 twin member kind)
  | emptied _ _ _ _ ih => exact fun twin member kind => later (ih fit.of_cons.2.2 twin member kind)
  | always accepts role _ below _ _ ih =>
      obtain ⟨⟨-, fits⟩, -, fitLater⟩ := fit.of_cons
      intro twin member kind
      rcases List.mem_append.1 member with member | member
      · refine absurd kind (optionless ?_ (below.placed bodies (fits accepts).below twin member))
        rw [← Node.kind, Node.role_eq_condition role]
        rfl
      · exact later (ih fitLater twin member kind)
  | condition _ role _ declaration _ _ _ _ ih =>
      intro twin member kind
      rcases List.mem_cons.1 member with rfl | member
      · rw [Node.kind, declaration, Rebuild.foldedDeclaration_kind, ← Node.kind,
          Node.role_eq_condition role] at kind
        cases kind
      · exact later (ih fit.of_cons.2.2 twin member kind)
  | call _ _ _ declaration _ _ _ _ ih =>
      intro twin member kind
      rcases List.mem_cons.1 member with rfl | member
      · rw [Node.kind, declaration] at kind
        cases kind
      · exact later (ih fit.of_cons.2.2 twin member kind)
  | inlined _ _ _ reached _ _ _ below _ _ ih =>
      intro twin member kind
      rcases List.mem_append.1 member with member | member
      · obtain ⟨host, top, fits⟩ := (bodies _ (CallTable.mem_of_reached? reached)).top
        refine absurd kind (optionless ?_ (below.placed bodies fits twin member))
        rcases top with top | top <;> rw [top] <;> rfl
      · exact later (ih fit.of_cons.2.2 twin member kind)
  | block accepts _ declaration _ _ _ _ ih =>
      intro twin member kind
      rcases List.mem_cons.1 member with rfl | member
      · rw [Node.kind, declaration] at kind
        exact ⟨_, List.mem_cons_self .., kind, accepts⟩
      · exact later (ih fit.of_cons.2.2 twin member kind)

/-- A node has room for what its children are flattened into, if it takes no options or keeps
some. -/
theorem accommodates {node : Node} (fits : node.Fits filter)
    (fit : Node.AllFit filter node.children)
    (flattened : Flattened table filter inline names script taken node.children result left)
    (keeps : node.kind.takesOptions = true → ∃ option ∈ result, option.kind = .option) :
    node.declaration.Accommodates result where
  placed := flattened.placed bodies fits.below
  offered := keeps
  picked takes value picked := by
    obtain ⟨twin, member, kind⟩ := keeps takes
    obtain ⟨option, there, kind, accepts⟩ := flattened.exists_accepted bodies fit twin member kind
    obtain ⟨other, inside, kind, accepts, chosen⟩ :=
      fits.picked option there kind accepts value picked
    obtain ⟨twin, member, same⟩ := flattened.exists_option inside kind accepts
    exact ⟨twin, member, (congrArg Declaration.kind same).trans kind, same ▸ chosen⟩

end Flattened

end Archetype
