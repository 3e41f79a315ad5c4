import Archetype.Proofs.Flatten.Discovery

/-!
Nodes that differ in their construction numbers alone. They pass the same checks, pruning makes the
same of them, and they are the first to call the same methods.
-/

namespace Archetype

open Stateful

inductive Renumbered : List Node → List Node → Prop
  | nil : Renumbered [] []
  | cons (declaration : twin.declaration = node.declaration)
      (expression : twin.expression = node.expression)
      (below : Renumbered node.children twin.children) (rest : Renumbered nodes twins) :
      Renumbered (node :: nodes) (twin :: twins)

namespace Renumbered

variable {nodes twins more : List Node}

theorem append {nodes' twins' : List Node} (first : Renumbered nodes twins)
    (second : Renumbered nodes' twins') : Renumbered (nodes ++ nodes') (twins ++ twins') := by
  induction first with
  | nil => exact second
  | cons declaration expression below _ _ ih => exact .cons declaration expression below ih

theorem thinned (renumbered : Renumbered nodes twins) : Thinned (fun _ => False) nodes twins := by
  induction renumbered with
  | nil => exact .nil
  | cons declaration _ _ _ ihBelow ih =>
      exact .keep (congrArg Declaration.kind declaration)
        (fun _ => congrArg Declaration.name? declaration) ihBelow ih

theorem declarations (renumbered : Renumbered nodes twins) :
    twins.map (·.declaration) = nodes.map (·.declaration) := by
  induction renumbered with
  | nil => rfl
  | cons declaration _ _ _ _ ih => rw [List.map_cons, List.map_cons, declaration, ih]

theorem targets (renumbered : Renumbered nodes twins) :
    twins.map (·.target) = nodes.map (·.target) := by
  have same := congrArg (List.map fun d : Declaration => d.name?.getD "") renumbered.declarations
  rwa [List.map_map, List.map_map] at same

theorem sameAll (renumbered : Renumbered nodes twins) : Node.sameAll twins nodes = true := by
  induction renumbered with
  | nil => rfl
  | @cons _ _ node twin declaration _ _ _ ihBelow ih =>
      obtain ⟨_, _, _, _⟩ := node
      obtain ⟨_, _, _, _⟩ := twin
      cases declaration
      simpa [Node.sameAll, Node.same] using ⟨ihBelow, ih⟩

end Renumbered

namespace Declaration

variable {d : Declaration} {children others : List Node}

theorem forM_congr {check : Node → Except NodeError Unit}
    (looks : ∀ child other : Node, other.declaration = child.declaration →
      check other = check child)
    (same : others.map (·.declaration) = children.map (·.declaration)) :
    others.forM check = children.forM check := by
  induction others generalizing children with
  | nil =>
      rw [List.map_nil, eq_comm, List.map_eq_nil_iff] at same
      rw [same]
  | cons other rest ih =>
      obtain ⟨child, children, rfl, here, later⟩ := List.map_eq_cons_iff.1 same.symm
      have later := ih later.symm
      simp only [List.forM_eq_forM, List.forM_cons] at later ⊢
      rw [later, looks child other here.symm]

theorem check_congr (same : others.map (·.declaration) = children.map (·.declaration)) :
    d.check others = d.check children := by
  have default : d.checkDefault others = d.checkDefault children := by
    have options : ∀ nodes : List Node,
        (nodes.filter (·.kind = .option)).filterMap (·.declaration.value?) =
          ((nodes.map (·.declaration)).filter (·.kind = .option)).filterMap (·.value?) := by
      intro nodes
      rw [List.filter_map, List.filterMap_map]
      rfl
    simp only [checkDefault, options, same]
  have below : d.checkChildren others = d.checkChildren children := by
    have offers : ∀ nodes : List Node, nodes.any (·.kind = .option) =
        (nodes.map (·.declaration)).any (·.kind = .option) := by
      intro nodes
      rw [List.any_map]
      rfl
    unfold checkChildren
    rw [offers, offers, same, forM_congr (fun child other same => ?_) same]
    simp only [Node.kind, same]
  simp only [check, default, below]

end Declaration

/-! Pruning. -/

namespace Prune

mutual
theorem node_of_alive {live : List String} : ∀ {node : Node} (s : NodeId),
    (∀ below ∈ Node.preorderAll node.children, below.isDead live = false) →
      Prune.node live node s = .ok (none, s)
  | ⟨id, d, e, children⟩, s, alive => by
      rw [Prune.node]
      exact bind_eq_ok.2 ⟨none, s, nodes_of_alive s alive, rfl⟩

theorem nodes_of_alive {live : List String} : ∀ {list : List Node} (s : NodeId),
    (∀ node ∈ Node.preorderAll list, node.isDead live = false) →
      Prune.nodes live list s = .ok (none, s)
  | [], _, _ => rfl
  | first :: rest, s, alive => by
      obtain ⟨here, below, later⟩ := Node.forall_preorderAll_cons.1 alive
      rw [Prune.nodes, here]
      exact bind_eq_ok.2 ⟨none, s, node_of_alive s below,
        bind_eq_ok.2 ⟨none, s, nodes_of_alive s later, rfl⟩⟩
end

end Prune

theorem Node.Clean.prune_eq {root : Node} (clean : root.Clean) (s : NodeId) :
    root.prune s = .ok (root, s) := by
  have rounds : root.preorder.length = (preorderAll root.children).length + 1 := by
    rw [preorder_eq, List.length_cons]
  rw [prune, rounds, Prune.rounds]
  exact bind_eq_ok.2 ⟨none, s, Prune.node_of_alive s clean, rfl⟩

/-! Methods. -/

/-- Renumbered nodes are the first to call the same methods, if methods of one name are the same. -/
theorem Discovers.renumbered {seen : List String} {nodes methods twins others : List Node}
    (discovers : Discovers seen nodes methods) (again : Discovers seen twins others)
    (same : Renumbered nodes twins)
    (methodsSame : ∀ method ∈ methods, ∀ other ∈ others, other.name? = method.name? →
      Renumbered [method] [other]) : Renumbered methods others := by
  induction discovers generalizing twins others with
  | nil =>
      cases same
      cases again
      exact .nil
  | @known name _ _ _ _ call named old _ ih =>
      cases same with
      | @cons _ _ _ twin declaration _ below rest =>
          have named' : twin.name? = some name :=
            (congrArg Declaration.name? declaration).trans named
          have call' : twin.kind = .invokeCall := (congrArg Declaration.kind declaration).trans call
          cases again with
          | known _ _ _ later => exact ih later rest methodsSame
          | fresh _ named'' new =>
              cases named'.symm.trans named''
              exact absurd old new
          | other plain => exact absurd call' plain
  | @fresh name seen nested nodes methods _ method call named new declared inside _ ihInside ih =>
      cases same with
      | @cons _ _ _ twin declaration _ below rest =>
          have named' : twin.name? = some name :=
            (congrArg Declaration.name? declaration).trans named
          have call' : twin.kind = .invokeCall := (congrArg Declaration.kind declaration).trans call
          cases again with
          | known _ named'' old =>
              cases named'.symm.trans named''
              exact absurd old new
          | @fresh _ _ _ _ _ _ other _ named'' _ declared' inside' rest' =>
              cases named'.symm.trans named''
              have here := methodsSame method (List.mem_cons_self ..) other (List.mem_cons_self ..)
                (declared'.trans declared.symm)
              cases here with
              | cons declaration expression below _ =>
                  have first := ihInside inside' below fun method member other member' =>
                    methodsSame method (List.mem_cons_of_mem _ (List.mem_append_left _ member))
                      other (List.mem_cons_of_mem _ (List.mem_append_left _ member'))
                  rw [first.targets] at rest'
                  exact .cons declaration expression below (first.append
                    (ih rest' rest fun method member other member' =>
                      methodsSame method (List.mem_cons_of_mem _ (List.mem_append_right _ member))
                        other (List.mem_cons_of_mem _ (List.mem_append_right _ member'))))
          | other plain => exact absurd call' plain
  | other plain _ _ ihBelow ih =>
      cases same with
      | @cons _ _ _ twin declaration _ below rest =>
          have plain' : twin.kind ≠ .invokeCall := fun call =>
            plain ((congrArg Declaration.kind declaration).symm.trans call)
          cases again with
          | known call => exact absurd call plain'
          | fresh call => exact absurd call plain'
          | other _ below' rest' =>
              have first := ihBelow below' below fun method member other member' =>
                methodsSame method (List.mem_append_left _ member) other
                  (List.mem_append_left _ member')
              rw [first.targets] at rest'
              exact first.append (ih rest' rest fun method member other member' =>
                methodsSame method (List.mem_append_right _ member) other
                  (List.mem_append_right _ member'))

end Archetype
