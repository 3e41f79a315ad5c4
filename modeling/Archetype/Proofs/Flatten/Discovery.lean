import Archetype.Proofs.Flatten.Pruning

/-!
The order of methods: each stands where it is called first, before the methods that its own body is
the first to call. Pruning keeps methods in that order.
-/

namespace Archetype

/-- Nodes and the methods that they are the first to call, when some names were called before. -/
inductive Discovers : List String → List Node → List Node → Prop
  | nil : Discovers seen [] []
  | known (call : node.kind = .invokeCall) (named : node.name? = some name) (old : name ∈ seen)
      (rest : Discovers seen nodes methods) : Discovers seen (node :: nodes) methods
  | fresh (call : node.kind = .invokeCall) (named : node.name? = some name) (new : name ∉ seen)
      (declared : method.name? = some name)
      (inside : Discovers (seen ++ [name]) method.children nested)
      (rest : Discovers (seen ++ [name] ++ nested.map (·.target)) nodes methods) :
      Discovers seen (node :: nodes) (method :: (nested ++ methods))
  | other (plain : node.kind ≠ .invokeCall) (below : Discovers seen node.children nested)
      (rest : Discovers (seen ++ nested.map (·.target)) nodes methods) :
      Discovers seen (node :: nodes) (nested ++ methods)

theorem Node.target_of_name? {node : Node} {name : String} (named : node.name? = some name) :
    node.target = name := by
  rw [Node.target, named, Option.getD_some]

namespace Discovers

variable {seen : List String} {nodes nodes' methods methods' : List Node}

theorem append (first : Discovers seen nodes methods)
    (second : Discovers (seen ++ methods.map (·.target)) nodes' methods') :
    Discovers seen (nodes ++ nodes') (methods ++ methods') := by
  induction first with
  | nil => simpa using second
  | known call named old _ ih => exact .known call named old (ih second)
  | fresh call named new declared inside _ _ ih =>
      rw [List.cons_append, List.cons_append, List.append_assoc]
      refine .fresh call named new declared inside (ih ?_)
      simpa [Node.target_of_name? declared] using second
  | other plain below _ _ ih =>
      rw [List.cons_append, List.append_assoc]
      refine .other plain below (ih ?_)
      simpa using second

theorem target_not_mem (discovers : Discovers seen nodes methods) :
    ∀ method ∈ methods, method.target ∉ seen := by
  induction discovers with
  | nil => simp
  | known _ _ _ _ ih => exact ih
  | fresh _ _ new declared _ _ ihInside ih =>
      intro method member
      rcases List.mem_cons.1 member with rfl | member
      · rwa [Node.target_of_name? declared]
      · rcases List.mem_append.1 member with member | member
        · exact fun old => ihInside method member (List.mem_append_left _ old)
        · exact fun old => ih method member
            (List.mem_append_left _ (List.mem_append_left _ old))
  | other _ _ _ ihBelow ih =>
      intro method member
      rcases List.mem_append.1 member with member | member
      · exact ihBelow method member
      · exact fun old => ih method member (List.mem_append_left _ old)

theorem eq_nil (discovers : Discovers seen [] methods) : methods = [] := by
  cases discovers
  rfl

theorem eq_nil_of_uncalled (discovers : Discovers seen nodes methods)
    (uncalled : ∀ node ∈ Node.preorderAll nodes, node.kind ≠ .invokeCall) : methods = [] := by
  induction discovers with
  | nil => rfl
  | known call _ _ _ _ => exact absurd call (Node.forall_preorderAll_cons.1 uncalled).1
  | fresh call _ _ _ _ _ _ _ => exact absurd call (Node.forall_preorderAll_cons.1 uncalled).1
  | other _ _ _ ihBelow ih =>
      obtain ⟨-, below, later⟩ := Node.forall_preorderAll_cons.1 uncalled
      rw [ihBelow below, ih later, List.append_nil]

end Discovers

/-! What pruning leaves of methods: those that are live, and nothing below the others. -/

def AllLive (live : List String) (nodes : List Node) : Prop :=
  ∀ node ∈ Node.preorderAll nodes, node.kind = .invokeCall → node.target ∈ live

inductive Surviving (live : List String) : List Node → List Node → Prop
  | nil : Surviving live [] []
  | dead (dead : method.target ∉ live) (below : Pruned live method.children [])
      (rest : Surviving live methods kept) : Surviving live (method :: methods) kept
  | alive (alive : twin.target ∈ live) (name : twin.name? = method.name?)
      (below : Pruned live method.children twin.children) (calls : AllLive live twin.children)
      (rest : Surviving live methods kept) : Surviving live (method :: methods) (twin :: kept)

namespace Surviving

variable {live : List String} {methods kept : List Node}

theorem of_append {first second : List Node} (surviving : Surviving live (first ++ second) kept) :
    ∃ kept' kept'', kept = kept' ++ kept'' ∧ Surviving live first kept' ∧
      Surviving live second kept'' := by
  induction first generalizing kept with
  | nil => exact ⟨[], kept, rfl, .nil, surviving⟩
  | cons method rest ih =>
      cases surviving with
      | dead dead below later =>
          obtain ⟨kept', kept'', rfl, first, second⟩ := ih later
          exact ⟨kept', kept'', rfl, .dead dead below first, second⟩
      | alive alive name below calls later =>
          obtain ⟨kept', kept'', rfl, first, second⟩ := ih later
          exact ⟨_ :: kept', kept'', rfl, .alive alive name below calls first, second⟩

theorem targets (surviving : Surviving live methods kept) :
    (methods.map (·.target)).filter (· ∈ live) = kept.map (·.target) := by
  induction surviving with
  | nil => rfl
  | dead dead _ _ ih => rw [List.map_cons, List.filter_cons_of_neg (by simpa using dead), ih]
  | @alive _ _ method twin alive name _ _ _ ih =>
      have target : twin.target = method.target := by rw [Node.target, Node.target, name]
      rw [List.map_cons, List.map_cons, ← target, List.filter_cons_of_pos (by simpa using alive),
        ih]

theorem of_pruned (pruned : Pruned live methods kept)
    (declared : ∀ method ∈ methods, method.kind = .method)
    (distinct : (methods.map (·.target)).Nodup) (alive : ∀ method ∈ kept, method.target ∈ live)
    (there : ∀ method ∈ methods, method.target ∈ live → method.target ∈ kept.map (·.target))
    (calls : ∀ method ∈ kept, AllLive live method.children) : Surviving live methods kept := by
  induction pruned with
  | nil => exact .nil
  | drop _ below rest _ ih =>
      obtain ⟨kind, declared⟩ := List.forall_mem_cons.1 declared
      rw [List.map_cons, List.nodup_cons] at distinct
      obtain ⟨here, there⟩ := List.forall_mem_cons.1 there
      refine .dead (fun alive => distinct.1 ?_) (below (by rw [kind]; exact NodeKind.noConfusion))
        (ih declared distinct.2 alive there calls)
      obtain ⟨twin, member, same⟩ := List.mem_map.1 (here alive)
      obtain ⟨other, inside, declaration, -⟩ := rest.exists_top twin member
      refine List.mem_map.2 ⟨other, inside, ?_⟩
      rw [← same, Node.target, Node.target, Node.name?, Node.name?, declaration]
  | @keep _ _ method twin declaration _ below rest _ ih =>
      obtain ⟨-, declared⟩ := List.forall_mem_cons.1 declared
      rw [List.map_cons, List.nodup_cons] at distinct
      have name : twin.name? = method.name? := congrArg Declaration.name? declaration
      refine .alive (alive twin (List.mem_cons_self ..)) name below
        (calls twin (List.mem_cons_self ..)) (ih declared distinct.2
          (fun other member => alive other (List.mem_cons_of_mem _ member))
          (fun other member alive => ?_)
          fun other member => calls other (List.mem_cons_of_mem _ member))
      have inside := there other (List.mem_cons_of_mem _ member) alive
      rw [List.map_cons, List.mem_cons] at inside
      refine inside.resolve_left fun same => distinct.1 (List.mem_map.2 ⟨other, member, ?_⟩)
      rw [same, Node.target, Node.target, name]

end Surviving

theorem AllLive.of_cons {live : List String} {node : Node} {nodes : List Node}
    (calls : AllLive live (node :: nodes)) :
    (node.kind = .invokeCall → node.target ∈ live) ∧ AllLive live node.children ∧
      AllLive live nodes :=
  Node.forall_preorderAll_cons.1 calls

theorem AllLive.nil {live : List String} : AllLive live [] := by
  simp [AllLive, Node.preorderAll]

/-- Pruning keeps methods in the order in which they are first called. -/
theorem Discovers.pruned {live seen : List String} {nodes methods kept left : List Node}
    (discovers : Discovers seen nodes methods) (pruned : Pruned live nodes kept)
    (calls : AllLive live kept) (surviving : Surviving live methods left) :
    Discovers (seen.filter (· ∈ live)) kept left := by
  induction discovers generalizing kept left with
  | nil =>
      cases pruned
      cases surviving
      exact .nil
  | known call named old _ ih =>
      cases pruned with
      | drop _ _ rest => exact ih rest calls surviving
      | @keep _ _ _ twin declaration _ _ rest =>
          obtain ⟨here, -, later⟩ := calls.of_cons
          have call' : twin.kind = .invokeCall := (congrArg Declaration.kind declaration).trans call
          have named' := (congrArg Declaration.name? declaration).trans named
          have alive := here call'
          rw [Node.target_of_name? named'] at alive
          exact .known call' named' (List.mem_filter.2 ⟨old, by simpa using alive⟩)
            (ih rest later surviving)
  | fresh call named new declared inside _ ihInside ih =>
      have target := Node.target_of_name? declared
      cases surviving with
      | dead dead below surviving =>
          obtain ⟨left', left'', rfl, survivingInner, survivingRest⟩ := surviving.of_append
          obtain rfl := (ihInside below .nil survivingInner).eq_nil
          rw [target] at dead
          cases pruned with
          | drop _ _ rest =>
              have discovers := ih rest calls survivingRest
              simpa [List.filter_append, survivingInner.targets, dead] using discovers
          | @keep _ _ _ twin declaration =>
              have named' := (congrArg Declaration.name? declaration).trans named
              have alive := calls.of_cons.1 ((congrArg Declaration.kind declaration).trans call)
              rw [Node.target_of_name? named'] at alive
              exact absurd alive dead
      | alive alive name' below calls' surviving =>
          obtain ⟨left', left'', rfl, survivingInner, survivingRest⟩ := surviving.of_append
          have declared' := name'.trans declared
          rw [Node.target_of_name? declared'] at alive
          cases pruned with
          | drop gone => exact absurd alive (gone call _ named)
          | @keep _ _ _ twin declaration _ _ rest =>
              have inside := ihInside below calls' survivingInner
              have discovers := ih rest calls.of_cons.2.2 survivingRest
              simp only [List.filter_append, survivingInner.targets] at inside discovers
              rw [List.filter_cons_of_pos (by simpa using alive), List.filter_nil]
                at inside discovers
              exact .fresh ((congrArg Declaration.kind declaration).trans call)
                ((congrArg Declaration.name? declaration).trans named)
                (fun member => new (List.mem_filter.1 member).1) declared' inside discovers
  | other plain _ _ ihBelow ih =>
      obtain ⟨left', left'', rfl, survivingInner, survivingRest⟩ := surviving.of_append
      cases pruned with
      | drop _ below rest =>
          obtain rfl := (ihBelow (below plain) .nil survivingInner).eq_nil
          have discovers := ih rest calls survivingRest
          simpa [List.filter_append, survivingInner.targets] using discovers
      | keep declaration _ below rest =>
          obtain ⟨-, inside, later⟩ := calls.of_cons
          have discovers := ih rest later survivingRest
          rw [List.filter_append, survivingInner.targets] at discovers
          exact .other (fun call => plain ((congrArg Declaration.kind declaration).symm.trans call))
            (ihBelow below inside survivingInner) discovers

end Archetype
