import Archetype.Flatten.Compile
import Archetype.Proofs.Flatten.Trimmed
import Archetype.Proofs.Script.Checking
import Archetype.Proofs.Script.Matched
import Archetype.Proofs.Stateful

/-!
What pruning leaves of a tree. A round drops nodes with all that is below them and keeps the others
in order; a round that drops none is the last, and then nothing below the root is dead.
-/

namespace Archetype

open Stateful

/-- What is left of nodes when some of those that may be are dropped. -/
inductive Thinned (droppable : Node → Prop) : List Node → List Node → Prop
  | nil : Thinned droppable [] []
  | drop (may : droppable node) (rest : Thinned droppable nodes kept) :
      Thinned droppable (node :: nodes) kept
  | keep (kind : twin.kind = node.kind) (name : node.kind ≠ .script → twin.name? = node.name?)
      (below : Thinned droppable node.children twin.children)
      (rest : Thinned droppable nodes kept) : Thinned droppable (node :: nodes) (twin :: kept)

namespace Thinned

variable {droppable : Node → Prop} {nodes kept : List Node}

theorem mono {other : Node → Prop} (weaker : ∀ node, droppable node → other node)
    (thinned : Thinned droppable nodes kept) : Thinned other nodes kept := by
  induction thinned with
  | nil => exact .nil
  | drop may _ ih => exact .drop (weaker _ may) ih
  | keep kind name _ _ ihBelow ih => exact .keep kind name ihBelow ih

theorem trans {fewer : List Node} (first : Thinned (fun _ => True) nodes kept)
    (second : Thinned (fun _ => True) kept fewer) : Thinned (fun _ => True) nodes fewer := by
  induction first generalizing fewer with
  | nil => exact second
  | drop _ _ ih => exact .drop trivial (ih second)
  | keep kind name _ _ ihBelow ih =>
      cases second with
      | drop _ rest => exact .drop trivial (ih rest)
      | keep kind' name' below rest =>
          refine .keep (kind'.trans kind) (fun other => ?_) (ihBelow below) (ih rest)
          exact (name' (kind ▸ other)).trans (name other)

/-- Every node that is left was there, with the same kind and, unless it is a script, the same
name. -/
theorem exists_of_mem (thinned : Thinned droppable nodes kept) :
    ∀ twin ∈ Node.preorderAll kept, ∃ node ∈ Node.preorderAll nodes, twin.kind = node.kind ∧
      (node.kind ≠ .script → twin.name? = node.name?) ∧
        Thinned droppable node.children twin.children := by
  induction thinned with
  | nil => simp [Node.preorderAll]
  | drop _ _ ih =>
      intro twin member
      obtain ⟨node, inside, same⟩ := ih twin member
      rw [Node.preorderAll_cons]
      exact ⟨node, List.mem_cons_of_mem _ (List.mem_append_right _ inside), same⟩
  | keep kind name below _ ihBelow ih =>
      intro twin member
      rw [Node.preorderAll_cons] at member ⊢
      rcases List.mem_cons.1 member with rfl | member
      · exact ⟨_, List.mem_cons_self .., kind, name, below⟩
      · rcases List.mem_append.1 member with member | member
        · obtain ⟨node, inside, same⟩ := ihBelow twin member
          exact ⟨node, List.mem_cons_of_mem _ (List.mem_append_left _ inside), same⟩
        · obtain ⟨node, inside, same⟩ := ih twin member
          exact ⟨node, List.mem_cons_of_mem _ (List.mem_append_right _ inside), same⟩

theorem exists_top (thinned : Thinned droppable nodes kept) :
    ∀ twin ∈ kept, ∃ node ∈ nodes, twin.kind = node.kind ∧
      (node.kind ≠ .script → twin.name? = node.name?) ∧
        Thinned droppable node.children twin.children := by
  induction thinned with
  | nil => simp
  | drop _ _ ih =>
      intro twin member
      obtain ⟨node, inside, same⟩ := ih twin member
      exact ⟨node, List.mem_cons_of_mem _ inside, same⟩
  | keep kind name below _ _ ih =>
      intro twin member
      rcases List.mem_cons.1 member with rfl | member
      · exact ⟨_, List.mem_cons_self .., kind, name, below⟩
      · obtain ⟨node, inside, same⟩ := ih twin member
        exact ⟨node, List.mem_cons_of_mem _ inside, same⟩

theorem forall_kind {p : NodeKind → Prop} (thinned : Thinned droppable nodes kept)
    (all : ∀ node ∈ Node.preorderAll nodes, p node.kind) :
    ∀ node ∈ Node.preorderAll kept, p node.kind := by
  intro node member
  obtain ⟨other, inside, kind, -⟩ := thinned.exists_of_mem node member
  exact kind ▸ all other inside

theorem of_append {first second : List Node} (thinned : Thinned droppable (first ++ second) kept) :
    ∃ kept' kept'', kept = kept' ++ kept'' ∧ Thinned droppable first kept' ∧
      Thinned droppable second kept'' := by
  induction first generalizing kept with
  | nil => exact ⟨[], kept, rfl, .nil, thinned⟩
  | cons node rest ih =>
      cases thinned with
      | drop may later =>
          obtain ⟨kept', kept'', rfl, first, second⟩ := ih later
          exact ⟨kept', kept'', rfl, .drop may first, second⟩
      | keep kind name below later =>
          obtain ⟨kept', kept'', rfl, first, second⟩ := ih later
          exact ⟨_ :: kept', kept'', rfl, .keep kind name below first, second⟩

theorem names_sublist (thinned : Thinned droppable nodes kept)
    (unscripted : ∀ node ∈ nodes, node.kind ≠ .script) :
    (kept.map (·.name?)).Sublist (nodes.map (·.name?)) := by
  induction thinned with
  | nil => exact .slnil
  | drop _ _ ih => exact (ih (List.forall_mem_cons.1 unscripted).2).cons _
  | keep _ name _ _ _ ih =>
      obtain ⟨here, later⟩ := List.forall_mem_cons.1 unscripted
      rw [List.map_cons, List.map_cons, name here]
      exact (ih later).cons_cons _

theorem isEmpty_eq (thinned : Thinned (fun _ => False) nodes kept) :
    kept.isEmpty = nodes.isEmpty := by
  cases thinned with
  | nil => rfl
  | drop may => exact may.elim
  | keep => rfl

end Thinned

namespace Node

def Clean (root : Node) : Prop :=
  ∀ node ∈ preorderAll root.children, node.isDead root.liveMethods = false

/-- Whether a node is dead depends on its kind, its name and whether it has children. -/
theorem isDead_congr {node twin : Node} (kind : twin.kind = node.kind)
    (name : node.kind ≠ .script → twin.name? = node.name?)
    (below : Thinned (fun _ => False) node.children twin.children) (live : List String) :
    twin.isDead live = node.isDead live := by
  have empty := below.isEmpty_eq
  by_cases script : node.kind = .script
  · simp [isDead, isPrunableIfEmpty, kind, script, NodeKind.prunableIfEmpty]
  · have name := name script
    simp only [Node.name?] at name
    simp only [isDead, isPrunableIfEmpty, kind, empty, Declaration.isContainer, Node.name?, name]

theorem liveMethods_congr {root twin : Node}
    (below : Thinned (fun _ => False) root.children twin.children) :
    twin.liveMethods = root.liveMethods := by
  unfold liveMethods methods
  generalize root.children = nodes at below
  generalize twin.children = kept at below
  induction below with
  | nil => rfl
  | drop may => exact may.elim
  | @keep _ _ node twin kind name below _ _ ih =>
      by_cases method : node.kind = .method
      · have name := name (by simp [method])
        have empty := below.isEmpty_eq
        simp only [List.filter_cons, kind, method, decide_true, if_true, empty]
        split
        · rw [List.filterMap_cons, List.filterMap_cons, name, ih]
        · exact ih
      · simpa only [List.filter_cons, kind, method, decide_false, Bool.false_eq_true, if_false]
          using ih

theorem Clean.of_thinned {root twin : Node} (clean : root.Clean)
    (below : Thinned (fun _ => False) root.children twin.children) : twin.Clean := by
  intro node member
  obtain ⟨other, inside, kind, name, thinned⟩ := below.exists_of_mem node member
  rw [liveMethods_congr below, isDead_congr kind name thinned]
  exact clean other inside

end Node

theorem Declaration.build_eq_ok {d : Declaration} {children : List Node} {s s' : NodeId}
    {node : Node} (gives : d.build children s = .ok (node, s')) :
    node.declaration = d ∧ node.children = children ∧
      node.declaration.check node.children = .ok node.expression := by
  unfold Declaration.build at gives
  cases checked : d.check children with
  | error error => simp [checked, Except.map] at gives
  | ok expression =>
      simp only [checked, Except.map, Except.ok.injEq, Prod.mk.injEq] at gives
      obtain ⟨rfl, rfl⟩ := gives
      exact ⟨rfl, rfl, checked⟩

/-- What is left of nodes when those are dropped under which nothing is left, and the calls of
methods that are not live. -/
inductive Pruned (live : List String) : List Node → List Node → Prop
  | nil : Pruned live [] []
  | drop (call : node.kind = .invokeCall → ∀ name ∈ node.name?, name ∉ live)
      (below : node.kind ≠ .invokeCall → Pruned live node.children [])
      (rest : Pruned live nodes kept) : Pruned live (node :: nodes) kept
  | keep (declaration : twin.declaration = node.declaration) (checked : node.Checked → twin.Checked)
      (below : Pruned live node.children twin.children)
      (rest : Pruned live nodes kept) : Pruned live (node :: nodes) (twin :: kept)

namespace Pruned

variable {live fewer : List String} {nodes kept : List Node}

theorem refl : ∀ nodes : List Node, Pruned live nodes nodes
  | [] => .nil
  | ⟨_, _, _, children⟩ :: rest => .keep rfl id (refl children) (refl rest)

theorem mono (subset : fewer ⊆ live) (pruned : Pruned live nodes kept) :
    Pruned fewer nodes kept := by
  induction pruned with
  | nil => exact .nil
  | drop call _ _ ihBelow ih =>
      exact .drop (fun kind name named inside => call kind name named (subset inside)) ihBelow ih
  | keep declaration checked _ _ ihBelow ih => exact .keep declaration checked ihBelow ih

theorem trans {left : List Node} (first : Pruned live nodes kept)
    (second : Pruned live kept left) : Pruned live nodes left := by
  induction first generalizing left with
  | nil => exact second
  | drop call below _ _ ih => exact .drop call below (ih second)
  | keep declaration checked _ _ ihBelow ih =>
      cases second with
      | drop call below rest =>
          simp only [Node.kind, Node.name?, declaration] at call below
          exact .drop call (fun other => ihBelow (below other)) (ih rest)
      | keep declaration' checked' below rest =>
          exact .keep (declaration'.trans declaration) (checked' ∘ checked) (ihBelow below)
            (ih rest)

theorem thinned (pruned : Pruned live nodes kept) : Thinned (fun _ => True) nodes kept := by
  induction pruned with
  | nil => exact .nil
  | drop _ _ _ _ ih => exact .drop trivial ih
  | keep declaration _ _ _ ihBelow ih =>
      exact .keep (congrArg Declaration.kind declaration)
        (fun _ => congrArg Declaration.name? declaration) ihBelow ih

/-- Every node that is left was there, with the same declaration. -/
theorem exists_of_mem (pruned : Pruned live nodes kept) :
    ∀ twin ∈ Node.preorderAll kept, ∃ node ∈ Node.preorderAll nodes,
      twin.declaration = node.declaration ∧ (node.Checked → twin.Checked) ∧
        Pruned live node.children twin.children := by
  induction pruned with
  | nil => simp [Node.preorderAll]
  | drop _ _ _ _ ih =>
      intro twin member
      obtain ⟨node, inside, same⟩ := ih twin member
      rw [Node.preorderAll_cons]
      exact ⟨node, List.mem_cons_of_mem _ (List.mem_append_right _ inside), same⟩
  | keep declaration checked below _ ihBelow ih =>
      intro twin member
      rw [Node.preorderAll_cons] at member ⊢
      rcases List.mem_cons.1 member with rfl | member
      · exact ⟨_, List.mem_cons_self .., declaration, checked, below⟩
      · rcases List.mem_append.1 member with member | member
        · obtain ⟨node, inside, same⟩ := ihBelow twin member
          exact ⟨node, List.mem_cons_of_mem _ (List.mem_append_left _ inside), same⟩
        · obtain ⟨node, inside, same⟩ := ih twin member
          exact ⟨node, List.mem_cons_of_mem _ (List.mem_append_right _ inside), same⟩

theorem exists_top (pruned : Pruned live nodes kept) :
    ∀ twin ∈ kept, ∃ node ∈ nodes, twin.declaration = node.declaration ∧
      (node.Checked → twin.Checked) ∧ Pruned live node.children twin.children := by
  induction pruned with
  | nil => simp
  | drop _ _ _ _ ih =>
      intro twin member
      obtain ⟨node, inside, same⟩ := ih twin member
      exact ⟨node, List.mem_cons_of_mem _ inside, same⟩
  | keep declaration checked below _ _ ih =>
      intro twin member
      rcases List.mem_cons.1 member with rfl | member
      · exact ⟨_, List.mem_cons_self .., declaration, checked, below⟩
      · obtain ⟨node, inside, same⟩ := ih twin member
        exact ⟨node, List.mem_cons_of_mem _ inside, same⟩

theorem of_append {first second : List Node} (pruned : Pruned live (first ++ second) kept) :
    ∃ kept' kept'', kept = kept' ++ kept'' ∧ Pruned live first kept' ∧
      Pruned live second kept'' := by
  induction first generalizing kept with
  | nil => exact ⟨[], kept, rfl, .nil, pruned⟩
  | cons node rest ih =>
      cases pruned with
      | drop call below later =>
          obtain ⟨kept', kept'', rfl, first, second⟩ := ih later
          exact ⟨kept', kept'', rfl, .drop call below first, second⟩
      | keep declaration checked below later =>
          obtain ⟨kept', kept'', rfl, first, second⟩ := ih later
          exact ⟨_ :: kept', kept'', rfl, .keep declaration checked below first, second⟩

theorem liveMethods_subset {root twin : Node} (pruned : Pruned live root.children twin.children) :
    twin.liveMethods ⊆ root.liveMethods := by
  intro name member
  obtain ⟨method, inside, named⟩ := List.mem_filterMap.1 member
  obtain ⟨declared, filled⟩ := List.mem_filter.1 inside
  obtain ⟨there, kind⟩ := List.mem_filter.1 declared
  obtain ⟨old, among, declaration, -, below⟩ := pruned.exists_top method there
  rw [Node.kind, declaration] at kind
  rw [Node.name?, declaration] at named
  refine List.mem_filterMap.2 ⟨old, List.mem_filter.2 ⟨List.mem_filter.2 ⟨among, kind⟩, ?_⟩, named⟩
  cases children : old.children with
  | nil =>
      rw [children] at below
      generalize method.children = left at below filled
      cases below
      cases filled
  | cons first rest => rfl

end Pruned

/-- A dead node calls a method that is not live, or it has no children. -/
theorem Node.dead {node : Node} {live : List String} (dead : node.isDead live = true) :
    (node.kind = .invokeCall → ∀ name ∈ node.name?, name ∉ live) ∧
      (node.kind ≠ .invokeCall → node.children = []) := by
  constructor
  · intro kind name named inside
    simp [isDead, isPrunableIfEmpty, kind, Option.mem_def.1 named, inside] at dead
  · intro other
    have empty : node.isPrunableIfEmpty = true := by simpa [isDead, other] using dead
    simp only [isPrunableIfEmpty, Bool.and_eq_true, List.isEmpty_iff] at empty
    exact empty.1.2

def Node.Remade (node twin : Node) : Prop :=
  twin.declaration = node.declaration ∧ (node.Checked → twin.Checked)

namespace Node.Remade

theorem refl (node : Node) : node.Remade node := ⟨rfl, fun checked => checked⟩

variable {node twin : Node}

theorem kind (remade : node.Remade twin) : twin.kind = node.kind :=
  congrArg Declaration.kind remade.1

theorem name? (remade : node.Remade twin) : twin.name? = node.name? :=
  congrArg Declaration.name? remade.1

end Node.Remade

/-- What is left when nodes go that are dead at the time. -/
theorem Trimmed.pruned {live : List String} {nodes kept : List Node}
    (trimmed : Trimmed (·.isDead live) Node.Remade nodes kept) : Pruned live nodes kept := by
  induction trimmed with
  | nil => exact .nil
  | drop here _ ih =>
      obtain ⟨call, childless⟩ := Node.dead here
      refine .drop call (fun other => ?_) ih
      rw [childless other]
      exact .nil
  | keep here _ _ ihBelow ih => exact .keep here.1 here.2 ihBelow ih

namespace Prune

def Round (live : List String) (list : List Node) : Option (List Node) → Prop
  | none => ∀ node ∈ Node.preorderAll list, node.isDead live = false
  | some kept => Trimmed (·.isDead live) Node.Remade list kept ∧
      (Node.preorderAll kept).length < (Node.preorderAll list).length

theorem Round.getD {live : List String} {list : List Node} {result : Option (List Node)}
    (round : Round live list result) :
    Trimmed (·.isDead live) Node.Remade list (result.getD list) ∧
      (Node.preorderAll (result.getD list)).length + result.toList.length ≤
        (Node.preorderAll list).length := by
  cases result with
  | none => exact ⟨.refl Node.Remade.refl list, Nat.le_refl _⟩
  | some kept => exact ⟨round.1, round.2⟩

mutual
theorem node_eq_ok {live : List String} : ∀ {node : Node} {result : Option Node} {s s' : NodeId},
    Prune.node live node s = .ok (result, s') →
      Round live node.children (result.map (·.children)) ∧
        ∀ pruned, result = some pruned → pruned.declaration = node.declaration ∧ pruned.Checked
  | ⟨id, d, e, children⟩, result, s, s', gives => by
      rw [Prune.node, bind_eq_ok] at gives
      obtain ⟨kept, between, below, gives⟩ := gives
      have round := nodes_eq_ok below
      cases kept with
      | none =>
          obtain ⟨rfl, rfl⟩ := pure_eq_ok.1 gives
          exact ⟨round, fun _ absurd => by cases absurd⟩
      | some kept =>
          simp only [bind_eq_ok] at gives
          obtain ⟨twin, built, build, gives⟩ := gives
          obtain ⟨rfl, rfl⟩ := pure_eq_ok.1 gives
          obtain ⟨declared, rfl, checked⟩ := Declaration.build_eq_ok build
          refine ⟨round, fun _ same => ?_⟩
          cases same
          exact ⟨declared, checked⟩

theorem nodes_eq_ok {live : List String} : ∀ {list : List Node} {result : Option (List Node)}
    {s s' : NodeId}, Prune.nodes live list s = .ok (result, s') → Round live list result
  | [], result, s, s', gives => by
      obtain ⟨rfl, rfl⟩ := pure_eq_ok.1 gives
      simp [Round, Node.preorderAll]
  | first :: rest, result, s, s', gives => by
      rw [Prune.nodes] at gives
      split at gives
      · next dead =>
          rw [bind_eq_ok] at gives
          obtain ⟨kept, between, later, gives⟩ := gives
          obtain ⟨rfl, rfl⟩ := pure_eq_ok.1 gives
          obtain ⟨trimmed, fewer⟩ := (nodes_eq_ok later).getD
          refine ⟨.drop dead trimmed, ?_⟩
          rw [Node.preorderAll_cons, List.length_cons, List.length_append]
          omega
      · next alive =>
          simp only [bind_eq_ok] at gives
          obtain ⟨pruned, between, here, kept, after, later, gives⟩ := gives
          obtain ⟨below, rebuilt⟩ := node_eq_ok here
          have rest := nodes_eq_ok later
          split at gives
          · next neither =>
              obtain ⟨rfl, rfl⟩ := pure_eq_ok.1 gives
              simp only [Bool.and_eq_true, Option.isNone_iff_eq_none] at neither
              obtain ⟨rfl, rfl⟩ := neither
              intro node member
              rw [Node.preorderAll_cons] at member
              rcases List.mem_cons.1 member with rfl | member
              · simpa using alive
              · exact (List.mem_append.1 member).elim (below node) (rest node)
          · next either =>
              obtain ⟨rfl, rfl⟩ := pure_eq_ok.1 gives
              have same : first.Remade (pruned.getD first) := by
                cases pruned with
                | none => exact .refl first
                | some twin => exact ⟨(rebuilt twin rfl).1, fun _ => (rebuilt twin rfl).2⟩
              have children : (pruned.map (·.children)).getD first.children =
                  (pruned.getD first).children := by cases pruned <;> rfl
              obtain ⟨trimmedBelow, fewer⟩ := below.getD
              obtain ⟨trimmedRest, fewerRest⟩ := rest.getD
              rw [children] at trimmedBelow fewer
              refine ⟨.keep same trimmedBelow trimmedRest, ?_⟩
              simp only [Node.preorderAll_cons, List.length_cons, List.length_append]
              have dropped : 0 < (pruned.map (·.children)).toList.length + kept.toList.length := by
                cases pruned <;> cases kept <;> simp_all
              omega
end

theorem rounds_eq_ok {n : Nat} {root pruned : Node} {s s' : NodeId}
    (enough : root.preorder.length ≤ n) (gives : rounds n root s = .ok (pruned, s')) :
    pruned.declaration = root.declaration ∧ (root.Checked → pruned.Checked) ∧
      Pruned pruned.liveMethods root.children pruned.children ∧ pruned.Clean := by
  induction n generalizing root s with
  | zero =>
      rw [Node.preorder_eq] at enough
      cases enough
  | succ n ih =>
      rw [rounds, bind_eq_ok] at gives
      obtain ⟨result, between, round, gives⟩ := gives
      obtain ⟨below, rebuilt⟩ := node_eq_ok round
      cases result with
      | none =>
          obtain ⟨rfl, rfl⟩ := pure_eq_ok.1 gives
          exact ⟨rfl, id, .refl _, below⟩
      | some fewer =>
          obtain ⟨trimmed, less⟩ : Trimmed (·.isDead root.liveMethods) Node.Remade root.children
              fewer.children ∧ (Node.preorderAll fewer.children).length <
                (Node.preorderAll root.children).length := below
          have first := trimmed.pruned
          rw [Node.preorder_eq, List.length_cons] at enough
          obtain ⟨same, checked, second, clean⟩ := ih (by
            rw [Node.preorder_eq, List.length_cons]
            omega) gives
          obtain ⟨declared, built⟩ := rebuilt fewer rfl
          have subset : pruned.liveMethods ⊆ root.liveMethods :=
            List.Subset.trans second.liveMethods_subset first.liveMethods_subset
          exact ⟨same.trans declared, fun _ => checked built, (first.mono subset).trans second,
            clean⟩

end Prune

/-! Dropping the names of scripts and all locations leaves every node. -/

@[simp] theorem Declaration.anonymous_kind (d : Declaration) : d.anonymous.kind = d.kind := rfl

theorem Declaration.anonymous_name? {d : Declaration} (other : d.kind ≠ .script) :
    d.anonymous.name? = d.name? := by
  simp only [name?, anonymous, if_neg other]

def Node.Anonymized (node twin : Node) : Prop := twin.declaration = node.declaration.anonymous

namespace Node.Anonymized

variable {node twin : Node}

theorem kind (anonymized : node.Anonymized twin) : twin.kind = node.kind := by
  rw [Node.kind, anonymized, Declaration.anonymous_kind]

theorem name? (anonymized : node.Anonymized twin) (unscripted : node.kind ≠ .script) :
    twin.name? = node.name? := by
  rw [Node.name?, anonymized, Declaration.anonymous_name? unscripted, Node.name?]

end Node.Anonymized

mutual
theorem Node.anonymize_eq_ok : ∀ {node twin : Node} {s s' : NodeId},
    node.anonymize s = .ok (twin, s') → node.Anonymized twin ∧
      Matched Node.Anonymized node.children twin.children
  | ⟨id, d, e, children⟩, twin, s, s', gives => by
      rw [Node.anonymize, bind_eq_ok] at gives
      obtain ⟨below, between, rebuilt, build⟩ := gives
      obtain ⟨declared, rfl, -⟩ := Declaration.build_eq_ok build
      exact ⟨declared, Node.anonymizeAll_eq_ok rebuilt⟩

theorem Node.anonymizeAll_eq_ok : ∀ {list result : List Node} {s s' : NodeId},
    Node.anonymizeAll list s = .ok (result, s') → Matched Node.Anonymized list result
  | [], result, s, s', gives => by
      obtain ⟨rfl, rfl⟩ := pure_eq_ok.1 gives
      exact .nil
  | first :: rest, result, s, s', gives => by
      rw [Node.anonymizeAll] at gives
      simp only [bind_eq_ok] at gives
      obtain ⟨twin, between, here, more, after, later, gives⟩ := gives
      obtain ⟨rfl, rfl⟩ := pure_eq_ok.1 gives
      obtain ⟨declared, below⟩ := Node.anonymize_eq_ok here
      exact .cons declared below (Node.anonymizeAll_eq_ok later)
end

theorem Thinned.of_anonymized {nodes twins : List Node}
    (matched : Matched Node.Anonymized nodes twins) : Thinned (fun _ => False) nodes twins := by
  induction matched with
  | nil => exact .nil
  | cons here _ _ ihBelow ih => exact .keep here.kind here.name? ihBelow ih

/-- What is left of a declaration in a finished tree. -/
def CompileOptions.published (options : CompileOptions) (d : Declaration) : Declaration :=
  if options.obfuscate then d.anonymous else d

theorem finishTree_plain_eq_ok {options : CompileOptions} (plain : options.obfuscate = false)
    {root : Declaration} {children : List Node} {tree : Node} {s s' : NodeId}
    (gives : finishTree options root children s = .ok (tree, s')) :
    tree.declaration = root ∧ tree.Checked ∧ Pruned tree.liveMethods children tree.children ∧
      tree.Clean := by
  unfold finishTree at gives
  simp only [bind_eq_ok, plain, Bool.false_eq_true, if_false] at gives
  obtain ⟨rebuilt, built, build, pruned, after, prune, gives⟩ := gives
  obtain ⟨rfl, rfl⟩ := pure_eq_ok.1 gives
  obtain ⟨declared, rfl, check⟩ := Declaration.build_eq_ok build
  obtain ⟨same, checked, pruned, clean⟩ := Prune.rounds_eq_ok (Nat.le_refl _) prune
  exact ⟨same.trans declared, checked check, pruned, clean⟩

/-- A finished tree is one that keeps its names, or what is left of it without them. -/
theorem exists_plain_of_finishTree {options : CompileOptions} {root : Declaration}
    {children : List Node} {tree : Node} {s s' : NodeId}
    (gives : finishTree options root children s = .ok (tree, s')) : ∃ plain between,
      finishTree { options with obfuscate := false } root children s = .ok (plain, between) ∧
      (options.obfuscate = false ∧ plain = tree ∨ options.obfuscate = true ∧
        plain.Anonymized tree ∧ Matched Node.Anonymized plain.children tree.children) := by
  unfold finishTree at gives ⊢
  simp only [bind_eq_ok, Bool.false_eq_true, if_false] at gives ⊢
  obtain ⟨rebuilt, built, build, pruned, after, prune, gives⟩ := gives
  refine ⟨pruned, after, ⟨rebuilt, built, build, pruned, after, prune, rfl⟩, ?_⟩
  split at gives
  · next hidden => exact .inr ⟨hidden, Node.anonymize_eq_ok gives⟩
  · next plain => exact .inl ⟨by simpa using plain, (pure_eq_ok.1 gives).1.symm⟩

/-- A finished tree is one of the same kind with nothing dead in it. -/
theorem finishTree_eq_ok {options : CompileOptions} {root : Declaration} {children : List Node}
    {tree : Node} {s s' : NodeId} (gives : finishTree options root children s = .ok (tree, s')) :
    tree.kind = root.kind ∧ Thinned (fun _ => True) children tree.children ∧ tree.Clean := by
  obtain ⟨plain, between, gives, same⟩ := exists_plain_of_finishTree gives
  obtain ⟨declaration, -, pruned, clean⟩ := finishTree_plain_eq_ok rfl gives
  have kind : plain.kind = root.kind := congrArg Declaration.kind declaration
  rcases same with ⟨-, rfl⟩ | ⟨-, anonymized, matched⟩
  · exact ⟨kind, pruned.thinned, clean⟩
  · have kept := Thinned.of_anonymized matched
    exact ⟨anonymized.kind.trans kind, pruned.thinned.trans (kept.mono fun _ => False.elim),
      clean.of_thinned kept⟩

theorem exists_of_finishTree {options : CompileOptions} {root : Declaration} {children : List Node}
    {tree : Node} {s s' : NodeId} (gives : finishTree options root children s = .ok (tree, s')) :
    ∀ twin ∈ Node.preorderAll tree.children, ∃ node ∈ Node.preorderAll children,
      twin.declaration = options.published node.declaration := by
  obtain ⟨plain, between, gives, finished⟩ := exists_plain_of_finishTree gives
  obtain ⟨-, -, pruned, -⟩ := finishTree_plain_eq_ok rfl gives
  intro twin member
  unfold CompileOptions.published
  rcases finished with ⟨named, rfl⟩ | ⟨hidden, -, matched⟩
  · obtain ⟨node, there, same, -⟩ := pruned.exists_of_mem twin member
    refine ⟨node, there, ?_⟩
    rw [named, if_neg Bool.false_ne_true]
    exact same
  · obtain ⟨kept, inside, anonymized⟩ := matched.exists_right twin member
    obtain ⟨node, there, same, -⟩ := pruned.exists_of_mem kept inside
    refine ⟨node, there, ?_⟩
    rw [if_pos hidden, ← same]
    exact anonymized

end Archetype
