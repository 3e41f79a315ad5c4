import Archetype.Proofs.Flatten.Closed
import Archetype.Proofs.Flatten.Exploring
import Archetype.Proofs.Script.Checking
import Archetype.Proofs.Walk.Apart

/-!
Frames in flattened trees. Rebuilding reads the frames of a scope off the nodes that share it. Where
it sees all of them and no scope is entered twice, the frames of a body that is put in place of its
invocation are new to the scope, so those of the flattened tree stay apart.
-/

namespace Archetype

namespace Node

/-- The frames that rebuilding sees nodes open have distinct names, and none looks like the frame of
a call. -/
structure SeenApart (nodes : List Node) : Prop where
  distinct : (allFrameNames nodes).Nodup
  unmarked : ∀ name ∈ allFrameNames nodes, '#' ∉ name.toList

/-- A node that keeps the frames below it apart, and hides none of those that it shares a scope
with. -/
structure Spaced (node : Node) : Prop where
  below : SeenApart node.children
  seen : node.role = .block none → allFrameNames node.children = []

instance (nodes : List Node) : Decidable (SeenApart nodes) :=
  decidable_of_iff ((allFrameNames nodes).Nodup ∧ ∀ name ∈ allFrameNames nodes, '#' ∉ name.toList)
    ⟨fun ⟨distinct, unmarked⟩ => ⟨distinct, unmarked⟩, fun apart => ⟨apart.1, apart.2⟩⟩

instance (node : Node) : Decidable node.Spaced :=
  decidable_of_iff
    (SeenApart node.children ∧ (node.role = .block none → (allFrameNames node.children).isEmpty))
    ⟨fun ⟨below, seen⟩ => ⟨below, fun role => List.isEmpty_iff.1 (seen role)⟩,
      fun spaced => ⟨spaced.1, fun role => List.isEmpty_iff.2 (spaced.2 role)⟩⟩

/-! Roles and frames. -/

theorem frameNames_eq (node : Node) : node.frameNames =
    match node.role with
    | .condition => allFrameNames node.children
    | .block (some (name, _)) => [name]
    | _ => [] := by
  obtain ⟨id, d, e, children⟩ := node
  unfold frameNames role
  simp only [Node.kind, Node.name?]
  cases d.kind <;> cases d.name? <;> rfl

theorem role_congr {node twin : Node} (kind : twin.kind = node.kind)
    (name : node.kind ≠ .script → twin.name? = node.name?) : twin.role = node.role := by
  unfold role
  rw [kind]
  by_cases script : node.kind = .script
  · simp only [script, NodeKind.frame?]
  · rw [name script]

theorem exists_role_of_frame? {node : Node} {children : List Node} {e : Option Expression}
    (check : node.declaration.check children = .ok e) {frame : FrameKind}
    (opens : node.kind.frame? = some frame) (other : node.kind ≠ .method) :
    ∃ name, node.role = .block (some (name, frame)) := by
  have needs : "name" ∈ node.declaration.required := by
    unfold Declaration.required
    cases kind : node.declaration.kind <;> simp_all [Node.kind, NodeKind.frame?]
  obtain ⟨name, named⟩ := Declaration.exists_name check needs
  refine ⟨name, ?_⟩
  unfold role
  have named : node.name? = some name := named
  cases kind : node.kind <;> simp_all [NodeKind.frame?]

theorem framed_of_check {node : Node} {children : List Node} {e : Option Expression}
    (check : node.declaration.check children = .ok e) (isInput : node.kind.isInput = true) :
    ∃ name, node.role = .block (some (name, .input)) := by
  refine exists_role_of_frame? check ?_ ?_
  · cases kind : node.kind <;> simp_all [NodeKind.isInput, NodeKind.frame?]
  · intro kind
    simp [kind, NodeKind.isInput] at isInput

theorem isSome_frame?_of_check {node : Node} {children : List Node} {e : Option Expression}
    (check : node.declaration.check children = .ok e) {frame : Option (String × FrameKind)}
    (role : node.role = .block frame) : node.kind.frame?.isSome = frame.isSome := by
  cases opens : node.kind.frame? with
  | none =>
      cases frame with
      | none => rfl
      | some frame => simp [(eq_of_role_block role).1] at opens
  | some opened =>
      have other : node.kind ≠ .method := fun method => by simp [Node.role, method] at role
      obtain ⟨name, named⟩ := exists_role_of_frame? check opens other
      rw [Role.block.inj (role.symm.trans named)]
      rfl

theorem frameNames_of_condition {node : Node} (role : node.role = .condition) :
    node.frameNames = allFrameNames node.children := by
  rw [frameNames_eq]
  simp only [role]

theorem frameNames_of_isInvocation {node : Node} (invokes : node.isInvocation = true) :
    node.frameNames = [] := by
  rw [frameNames_eq]
  cases role : node.role <;> simp_all [isInvocation_eq]

theorem allFrameNames_filter (nodes : List Node) :
    allFrameNames (nodes.filter (·.kind ≠ .method)) = allFrameNames nodes := by
  induction nodes with
  | nil => rfl
  | cons node rest ih =>
      rw [List.filter_cons, allFrameNames]
      split
      · rw [allFrameNames, ih]
      · next method =>
          have kind : node.kind = .method := by simpa using method
          have role : node.role = .declaration := by simp only [role, kind]
          rw [ih, frameNames_eq, role, List.nil_append]

end Node

open Node (SeenApart Spaced Apart Placed allOpens allFrameNames)

/-- What nodes become in a scope with frames that are taken, some of them seen to be theirs: all
frames are apart, and those that are not seen were free and are taken afterwards. -/
structure Level (taken seen : List String) (result : List Node) (left : List String) : Prop where
  apart : Apart result
  placed : ∀ node ∈ Node.preorderAll result, node.Placed
  fresh : ∀ name ∈ allOpens result, name ∈ seen ∨ name ∉ taken
  claimed : ∀ name ∈ allOpens result, name ∈ left
  kept : taken ⊆ left

namespace Level

variable {taken seen more between left : List String} {result result' : List Node} {node : Node}

theorem nil : Level taken [] [] taken where
  apart := ⟨.nil, by simp [allOpens]⟩
  placed := by simp [Node.preorderAll]
  fresh := by simp [allOpens]
  claimed := by simp [allOpens]
  kept := List.Subset.refl _

theorem mono (larger : seen ⊆ more) (level : Level taken seen result left) :
    Level taken more result left :=
  { level with fresh := fun name member => (level.fresh name member).imp_left (larger ·) }

theorem append (first : Level taken seen result between) (rest : Level between more result' left)
    (within : more ⊆ taken) (disjoint : seen.Disjoint more) :
    Level taken (seen ++ more) (result ++ result') left where
  apart := by
    obtain ⟨⟨distinct, unmarked⟩, ⟨distinct', unmarked'⟩⟩ := first.apart, rest.apart
    constructor
    · rw [Node.allOpens_append]
      refine List.nodup_append.2 ⟨distinct, distinct', ?_⟩
      rintro name here _ there rfl
      rcases rest.fresh name there with there | free
      · rcases first.fresh name here with here | free
        · exact disjoint here there
        · exact free (within there)
      · exact free (first.claimed name here)
    · rw [Node.allOpens_append]
      exact List.forall_mem_append.2 ⟨unmarked, unmarked'⟩
  placed := by
    rw [Node.preorderAll_append]
    exact List.forall_mem_append.2 ⟨first.placed, rest.placed⟩
  fresh := by
    rw [Node.allOpens_append]
    refine List.forall_mem_append.2 ⟨fun name member => ?_, fun name member => ?_⟩
    · exact (first.fresh name member).imp_left (List.mem_append_left _)
    · exact (rest.fresh name member).imp (List.mem_append_right _) fun free member =>
        free (first.kept member)
  claimed := by
    rw [Node.allOpens_append]
    exact List.forall_mem_append.2
      ⟨fun name member => rest.kept (first.claimed name member), rest.claimed⟩
  kept := fun _ member => rest.kept (first.kept member)

theorem splice (level : Level (seen ++ taken) seen result left)
    (free : ∀ name ∈ seen, name ∉ taken) : Level taken [] result left where
  apart := level.apart
  placed := level.placed
  fresh name member := .inr ((level.fresh name member).elim (free name) fun absent inside =>
    absent (List.mem_append_right _ inside))
  claimed := level.claimed
  kept := fun _ member => level.kept (List.mem_append_right _ member)

theorem around (level : Level taken seen node.children left)
    (role : node.role = .condition ∨ node.role = .block none) (placed : node.Placed) :
    Level taken seen [node] left := by
  have opens : allOpens [node] = allOpens node.children := by
    rw [allOpens, allOpens, List.append_nil, Node.opens_eq]
    rcases role with role | role <;> simp only [role]
  constructor
  · exact ⟨opens ▸ level.apart.distinct, opens ▸ level.apart.unmarked⟩
  · rw [Node.preorderAll_cons]
    simpa [Node.preorderAll] using ⟨placed, level.placed⟩
  · exact opens ▸ level.fresh
  · exact opens ▸ level.claimed
  · exact level.kept

theorem frame {name : String} {frame : FrameKind} (role : node.role = .block (some (name, frame)))
    (here : name ∈ taken) (unmarked : '#' ∉ name.toList) (placed : node.Placed)
    (below : ∀ child ∈ Node.preorderAll node.children, child.Placed) :
    Level taken [name] [node] taken := by
  have opens : allOpens [node] = [name] := by
    rw [allOpens, allOpens, List.append_nil, Node.opens_eq]
    simp only [role]
  constructor
  · exact ⟨by simp [opens], by simpa [opens] using unmarked⟩
  · rw [Node.preorderAll_cons]
    simpa [Node.preorderAll] using ⟨placed, below⟩
  · simp [opens]
  · simpa [opens] using here
  · exact List.Subset.refl _

theorem call (role : node.role = .call) (childless : node.children = []) (placed : node.Placed) :
    Level taken [] [node] taken := by
  have opens : allOpens [node] = [] := by
    rw [allOpens, allOpens, List.append_nil, Node.opens_eq]
    simp only [role]
  constructor
  · exact ⟨by simp [opens], by simp [opens]⟩
  · rw [Node.preorderAll_cons, childless]
    simpa [Node.preorderAll] using placed
  · simp [opens]
  · simp [opens]
  · exact List.Subset.refl _

end Level

structure Node.AllSpaced (nodes : List Node) : Prop where
  apart : SeenApart nodes
  below : ∀ node ∈ preorderAll nodes, node.Spaced

instance (nodes : List Node) : Decidable (Node.AllSpaced nodes) :=
  decidable_of_iff (SeenApart nodes ∧ ∀ node ∈ Node.preorderAll nodes, node.Spaced)
    ⟨fun ⟨apart, below⟩ => ⟨apart, below⟩, fun spaced => ⟨spaced.1, spaced.2⟩⟩

namespace Node.AllSpaced

variable {node : Node} {nodes : List Node}

theorem of_cons (spaced : AllSpaced (node :: nodes)) :
    AllSpaced node.children ∧ AllSpaced nodes ∧ node.Spaced ∧
      node.frameNames.Disjoint (allFrameNames nodes) := by
  obtain ⟨⟨distinct, unmarked⟩, below⟩ := spaced
  rw [preorderAll_cons, List.forall_mem_cons, List.forall_mem_append] at below
  obtain ⟨here, below, later⟩ := below
  rw [allFrameNames] at distinct unmarked
  obtain ⟨-, distinct, apart⟩ := List.nodup_append.1 distinct
  refine ⟨⟨here.below, below⟩, ⟨⟨distinct, (List.forall_mem_append.1 unmarked).2⟩, later⟩, here, ?_⟩
  exact fun name first rest => apart name first name rest rfl

end Node.AllSpaced

theorem Node.within_of_cons {node : Node} {nodes : List Node} {taken : List String}
    (within : allFrameNames (node :: nodes) ⊆ taken) :
    node.frameNames ⊆ taken ∧ allFrameNames nodes ⊆ taken := by
  rw [allFrameNames] at within
  exact List.append_subset.1 within

namespace Level

variable {taken between left : List String} {node twin : Node} {nodes result result' : List Node}

/-! What a first node becomes, by what rebuilding makes of it. -/

theorem spliced (role : node.role = .condition) (here : node.frameNames ⊆ taken)
    (below : allFrameNames node.children ⊆ taken →
      Level taken (allFrameNames node.children) result between) :
    Level taken node.frameNames result between := by
  rw [Node.frameNames_of_condition role] at here ⊢
  exact below here

theorem condition (role : node.role = .condition)
    (declaration : twin.declaration = Rebuild.foldedDeclaration node.declaration node.expression)
    (here : node.frameNames ⊆ taken)
    (below : allFrameNames node.children ⊆ taken →
      Level taken (allFrameNames node.children) twin.children between) :
    Level taken node.frameNames [twin] between := by
  rw [Node.frameNames_of_condition role] at here ⊢
  have inside := below here
  have kind : twin.kind = .condition := by
    rw [Node.kind, declaration, Rebuild.foldedDeclaration_kind, ← Node.kind,
      Node.role_eq_condition role]
  have role' : twin.role = .condition := by simp only [Node.role, kind]
  have placed : twin.Placed :=
    { below := inside.apart
      framed := by simp [kind, NodeKind.isInput]
      unsourced := by simp [role'] }
  exact inside.around (.inl role') placed

theorem called (invokes : node.isInvocation = true) (kind : twin.kind = .invokeCall)
    (childless : twin.children = []) : Level taken node.frameNames [twin] taken := by
  rw [Node.frameNames_of_isInvocation invokes]
  have role := Node.role_eq_call.2 kind
  have placed : twin.Placed :=
    { below := by
        rw [childless]
        exact ⟨.nil, by simp [allOpens]⟩
      framed := by simp [kind, NodeKind.isInput]
      unsourced := by simp [role] }
  exact .call role childless placed

theorem inlined {body : List Node} (invokes : node.isInvocation = true)
    (free : ∀ name ∈ allFrameNames body, name ∉ taken)
    (below : Level (allFrameNames body ++ taken) (allFrameNames body) result between) :
    Level taken node.frameNames result between := by
  rw [Node.frameNames_of_isInvocation invokes]
  exact below.splice free

theorem placed_block {frame : Option (String × FrameKind)} (role : twin.role = .block frame)
    (check : twin.declaration.check twin.children = .ok twin.expression)
    (apart : Apart twin.children) : twin.Placed where
  below := apart
  framed := Node.framed_of_check check
  unsourced := by simp [role]

theorem frameless (role : node.role = .block none) (role' : twin.role = .block none)
    (check : twin.declaration.check twin.children = .ok twin.expression) (spaced : node.Spaced)
    (here : node.frameNames ⊆ taken)
    (below : allFrameNames node.children ⊆ taken →
      Level taken (allFrameNames node.children) twin.children between) :
    Level taken node.frameNames [twin] between := by
  have seen : node.frameNames = allFrameNames node.children := by
    rw [Node.frameNames_eq, spaced.seen role]
    simp only [role]
  rw [seen] at here ⊢
  have inside := below here
  exact inside.around (.inr role') (placed_block role' check inside.apart)

theorem framed {name : String} {frame : FrameKind} (role : node.role = .block (some (name, frame)))
    (role' : twin.role = .block (some (name, frame)))
    (check : twin.declaration.check twin.children = .ok twin.expression)
    (unmarked : ∀ name ∈ node.frameNames, '#' ∉ name.toList) (here : node.frameNames ⊆ taken)
    {opened seen : List String} (below : Level opened seen twin.children between) :
    Level taken node.frameNames [twin] taken := by
  have seen : node.frameNames = [name] := by
    rw [Node.frameNames_eq]
    simp only [role]
  rw [seen] at unmarked here ⊢
  have member := List.mem_singleton_self name
  exact .frame role' (here member) (unmarked name member)
    (placed_block role' check below.apart) below.placed

/-! The first node and the rest. -/

variable (spaced : Node.AllSpaced (node :: nodes)) (within : allFrameNames (node :: nodes) ⊆ taken)
include spaced within

theorem skip (rest : Node.AllSpaced nodes → allFrameNames nodes ⊆ taken →
      Level taken (allFrameNames nodes) result left) :
    Level taken (allFrameNames (node :: nodes)) result left := by
  have level := rest spaced.of_cons.2.1 (Node.within_of_cons within).2
  rw [allFrameNames]
  exact level.mono (List.subset_append_right ..)

theorem cons (first : Level taken node.frameNames result between)
    (rest : Node.AllSpaced nodes → allFrameNames nodes ⊆ between →
      Level between (allFrameNames nodes) result' left) :
    Level taken (allFrameNames (node :: nodes)) (result ++ result') left := by
  obtain ⟨-, later, -, disjoint⟩ := spaced.of_cons
  have within := (Node.within_of_cons within).2
  rw [allFrameNames]
  exact first.append (rest later fun _ member => first.kept (within member)) within disjoint

end Level

theorem Flattened.level {table : CallTable} {filter : Node → Bool} {inline : Bool}
    {names : List String} {script : Script} {taken left : List String} {nodes result : List Node}
    (bodies : ∀ body ∈ table.bodies, Node.AllSpaced body.nodes)
    (flattened : Flattened table filter inline names script taken nodes result left)
    (spaced : Node.AllSpaced nodes) (within : allFrameNames nodes ⊆ taken) :
    Level taken (allFrameNames nodes) result left := by
  induction flattened with
  | nil => exact .nil
  | rejected _ _ ih => exact .skip spaced within ih
  | declaration _ _ ih => exact .skip spaced within ih
  | never _ _ _ ih => exact .skip spaced within ih
  | emptied _ _ _ _ ih => exact .skip spaced within ih
  | always _ role _ _ _ ihBelow ih =>
      have here := (Node.within_of_cons within).1
      exact .cons spaced within (.spliced role here (ihBelow spaced.of_cons.1)) ih
  | condition _ role _ declaration _ _ _ ihBelow ih =>
      have here := (Node.within_of_cons within).1
      exact .cons spaced within (.condition role declaration here (ihBelow spaced.of_cons.1)) ih
  | call _ invokes _ declaration _ childless _ _ ih =>
      have kind := congrArg Declaration.kind declaration
      exact .cons spaced within (.called invokes kind childless) ih
  | inlined _ _ invokes reached _ _ free _ _ ihBelow ih =>
      have body := bodies _ (CallTable.mem_of_reached? reached)
      have below := ihBelow body (List.subset_append_left ..)
      exact .cons spaced within (.inlined invokes free below) ih
  | @block node frame _ _ _ _ _ _ twin _ role declaration check _ _ ihBelow ih =>
      obtain ⟨below, -, spacedHere, -⟩ := spaced.of_cons
      have here := (Node.within_of_cons within).1
      have kind : twin.kind = node.kind := congrArg Declaration.kind declaration
      have role' : twin.role = .block frame :=
        (Node.role_congr kind fun _ => congrArg Declaration.name? declaration).trans role
      have opens := Node.isSome_frame?_of_check check role'
      rw [kind] at opens
      unfold Node.takenBelow at ihBelow
      unfold Node.takenAfter at ih
      cases frame with
      | none =>
          simp only [opens, Option.isSome_none, Bool.false_eq_true, if_false] at ih ihBelow
          exact .cons spaced within (.frameless role role' check spacedHere here (ihBelow below)) ih
      | some frame =>
          simp only [opens, Option.isSome_some, if_true] at ih ihBelow
          have inside := ihBelow below (List.Subset.refl _)
          have unmarked : ∀ name ∈ node.frameNames, '#' ∉ name.toList := fun name member =>
            spaced.apart.unmarked name (by
              rw [allFrameNames]
              exact List.mem_append_left _ member)
          exact .cons spaced within (.framed role role' check unmarked here inside) ih

/-! Pruning takes no frame away from another. -/

namespace Thinned

variable {droppable : Node → Prop} {nodes kept : List Node}

theorem opens_sublist (thinned : Thinned droppable nodes kept) :
    (allOpens kept).Sublist (allOpens nodes) := by
  induction thinned with
  | nil => exact .slnil
  | drop _ _ ih => exact ih.trans (List.sublist_append_right ..)
  | keep kind name _ _ ihBelow ih =>
      rw [allOpens, allOpens]
      refine .append ?_ ih
      rw [Node.opens_eq, Node.opens_eq, Node.role_congr kind name]
      split
      · exact .slnil
      · exact .slnil
      · exact .slnil
      · exact ihBelow
      · exact ihBelow
      · exact .refl _

theorem apart (thinned : Thinned droppable nodes kept) (apart : Apart nodes) : Apart kept where
  distinct := apart.distinct.sublist thinned.opens_sublist
  unmarked name member := apart.unmarked name (thinned.opens_sublist.subset member)

theorem placed (thinned : Thinned droppable nodes kept)
    (placed : ∀ node ∈ Node.preorderAll nodes, node.Placed) :
    ∀ node ∈ Node.preorderAll kept, node.Placed := by
  intro twin member
  obtain ⟨node, inside, kind, name, below⟩ := thinned.exists_of_mem twin member
  have role := Node.role_congr kind name
  have here := placed node inside
  exact
    { below := below.apart here.below
      framed := fun isInput => role ▸ here.framed (kind ▸ isInput)
      unsourced := role ▸ here.unsourced }

end Thinned

/-- A script that enters no scope twice from one place, and hides no frame. -/
def Script.Spaced (script : Script) : Prop := Node.AllSpaced script.root.children

instance (script : Script) : Decidable script.Spaced :=
  inferInstanceAs (Decidable (Node.AllSpaced script.root.children))

namespace Script.Spaced

variable {script : Script} (spaced : script.Spaced)
include spaced

theorem body : Node.AllSpaced script.root.body where
  apart := by
    have same := Node.allFrameNames_filter script.root.children
    exact ⟨same ▸ spaced.apart.distinct, same ▸ spaced.apart.unmarked⟩
  below node member := by
    obtain ⟨above, top, member⟩ := Node.mem_preorderAll.1 member
    exact spaced.below node (Node.mem_preorderAll.2 ⟨above, (List.mem_filter.1 top).1, member⟩)

theorem method {method : Node} (declared : method ∈ script.root.methods) :
    Node.AllSpaced method.children := by
  have top := (List.mem_filter.1 declared).1
  exact ⟨(spaced.below method (Node.subset_preorderAll _ top)).below,
    fun node member => spaced.below node (Node.preorderAll_subset top member)⟩

end Script.Spaced

theorem CallTable.Explored.spaced {library : Library} {filter : Node → Bool}
    {scripts : List Script} {script : Script} {table : CallTable} {done : List Callee}
    (explored : table.Explored library filter scripts script done)
    (spaced : ∀ script ∈ scripts, script.Spaced) :
    ∀ body ∈ table.bodies, Node.AllSpaced body.nodes := by
  intro body member
  have found := explored.bodies body member
  generalize body.callee = callee at found
  cases callee with
  | script identity =>
      obtain ⟨owner, known, same⟩ := Option.map_eq_some_iff.1 found
      rw [← (Prod.mk.inj same).2]
      exact (spaced owner (List.mem_of_find?_eq_some known)).body
  | method identity name =>
      obtain ⟨owner, known, found⟩ := Option.bind_eq_some_iff.1 found
      obtain ⟨method, declared, same⟩ := Option.map_eq_some_iff.1 found
      rw [← (Prod.mk.inj same).2]
      exact (spaced owner (List.mem_of_find?_eq_some known)).method
        (List.mem_of_find?_eq_some declared)

/-- A tree compiled from spaced scripts keeps the frames of every scope apart. -/
theorem Compiled.placed {table : CallTable} {filter : Node → Bool} {inline : Bool}
    {script : Script} {slots : Rebuild.Slots} {body : List Node} {tree : Node}
    (compiled : Compiled table filter inline script slots body tree)
    (bodies : ∀ body ∈ table.bodies, Node.AllSpaced body.nodes) (spaced : script.Spaced) :
    Apart tree.children ∧ ∀ node ∈ Node.preorderAll tree.children, node.Placed := by
  obtain ⟨left, flattened⟩ := compiled.flattened
  have level := flattened.level bodies spaced.body (List.Subset.refl _)
  have silent : allOpens tree.methods = [] := by
    have declared : ∀ method ∈ tree.methods, method.role = .declaration := fun method member => by
      simp only [Node.role, of_decide_eq_true (List.mem_filter.1 member).2]
    generalize tree.methods = methods at declared
    induction methods with
    | nil => rfl
    | cons method rest ih =>
        obtain ⟨here, later⟩ := List.forall_mem_cons.1 declared
        rw [allOpens, Node.opens_eq, here, ih later, List.nil_append]
  constructor
  · have apart := compiled.body.apart level.apart
    rw [compiled.split]
    exact ⟨by simpa [silent] using apart.distinct, by simpa [silent] using apart.unmarked⟩
  · rw [compiled.split, Node.preorderAll_append, List.forall_mem_append]
    refine ⟨fun node member => ?_, compiled.body.placed level.placed⟩
    obtain ⟨method, declared, member⟩ := Node.mem_preorderAll.1 member
    obtain ⟨shared, made, known, of, -, thinned⟩ := compiled.exists_methodOf declared
    obtain ⟨_, flattened⟩ := of.flattened
    have level := flattened.level bodies (bodies shared (List.mem_of_find?_eq_some known))
      (List.Subset.refl _)
    rcases Node.mem_preorder.1 member with rfl | member
    · have kind : node.kind = .method := of_decide_eq_true (List.mem_filter.1 declared).2
      exact
        { below := thinned.apart level.apart
          framed := by simp [kind, NodeKind.isInput]
          unsourced := by simp [Node.role, kind] }
    · exact thinned.placed level.placed node member

end Archetype
