import Archetype.Proofs.Flatten.Rebuilt
import Archetype.Proofs.Naming
import Archetype.Proofs.Scope.Routes
import Archetype.Proofs.Walk.Extension

/-!
Where a walk asks for inputs. If the frames that nodes open in one scope have distinct names, then
so do the routes to all scopes that are entered, and every input is asked for in a scope of its own.
-/

namespace Archetype

def inputVisits (trace : List Event) : List (Node × ScopeId) :=
  (entries trace).filter (·.1.kind.isInput)

def inputScopes (trace : List Event) : List ScopeId := (inputVisits trace).map (·.2)

@[simp] theorem inputScopes_nil : inputScopes [] = [] := rfl

@[simp] theorem inputScopes_append (first second : List Event) :
    inputScopes (first ++ second) = inputScopes first ++ inputScopes second := by
  simp only [inputScopes, inputVisits, entries_append, List.filter_append, List.map_append]

@[simp] theorem inputScopes_decided (node : Node) (tree : ScopeTree) (holds : Bool)
    (trace : List Event) : inputScopes (.decided node tree holds :: trace) = inputScopes trace :=
  rfl

theorem inputScopes_entered (node : Node) (tree : ScopeTree) (trace : List Event) :
    inputScopes (.entered node tree :: trace) =
      if node.kind.isInput then tree.current :: inputScopes trace else inputScopes trace := by
  simp only [inputScopes, inputVisits, entries_entered, List.filter_cons]
  split <;> rfl

namespace Node

mutual
/-- The names of the frames that the walk of a node opens in the scope it is walked in, but for the
frames of calls. -/
def opens : Node → List String
  | ⟨id, d, e, children⟩ =>
      match (⟨id, d, e, children⟩ : Node).role with
      | .declaration => []
      | .call => []
      | .source => []
      | .condition => allOpens children
      | .block none => allOpens children
      | .block (some (name, _)) => [name]

def allOpens : List Node → List String
  | [] => []
  | node :: rest => node.opens ++ allOpens rest
end

theorem opens_eq (node : Node) : node.opens =
    match node.role with
    | .declaration => []
    | .call => []
    | .source => []
    | .condition => allOpens node.children
    | .block none => allOpens node.children
    | .block (some (name, _)) => [name] := by
  obtain ⟨id, d, e, children⟩ := node
  rfl

@[simp] theorem allOpens_append (nodes more : List Node) :
    allOpens (nodes ++ more) = allOpens nodes ++ allOpens more := by
  induction nodes with
  | nil => rfl
  | cons node rest ih => simp only [List.cons_append, allOpens, ih, List.append_assoc]

/-- The frames that nodes open in one scope have distinct names, and none looks like the frame of a
call. -/
structure Apart (nodes : List Node) : Prop where
  distinct : (allOpens nodes).Nodup
  unmarked : ∀ name ∈ allOpens nodes, '#' ∉ name.toList

/-- A node that keeps what is below it apart, asks for inputs in frames only, and sources
nothing. -/
structure Placed (node : Node) : Prop where
  below : Apart node.children
  framed : node.kind.isInput = true → ∃ name, node.role = .block (some (name, .input))
  unsourced : node.role ≠ .source

def Opens (nodes : List Node) (name : String) : Prop :=
  name ∈ allOpens nodes ∨
    ∃ call ∈ invocations nodes, ∃ target, name = invocationFrame target call.id

section Opens

variable {node : Node} {nodes : List Node} {name : String}

/-- What is below a node without a frame is opened where the node is. -/
theorem opens_of_frameless (role : node.role = .condition ∨ node.role = .block none)
    (inner : Opens node.children name) : Opens [node] name := by
  rcases inner with inner | ⟨call, inner, frame⟩
  · refine .inl ?_
    rw [allOpens, allOpens, List.append_nil, opens_eq]
    rcases role with role | role <;> simpa only [role] using inner
  · refine .inr ⟨call, ?_, frame⟩
    rw [invocations_cons]
    exact List.mem_append_right _ (List.mem_append_left _ inner)

theorem opens_of_block {frame : FrameKind} (role : node.role = .block (some (name, frame))) :
    Opens [node] name := by
  refine .inl ?_
  rw [allOpens, allOpens, List.append_nil, opens_eq]
  simp only [role]
  exact List.mem_singleton_self _

theorem opens_of_call (role : node.role = .call) (target : String) :
    Opens [node] (invocationFrame target node.id) := by
  refine .inr ⟨node, ?_, target, rfl⟩
  rw [invocations_cons, if_pos (by simp [isInvocation_eq, role])]
  exact List.mem_append_left _ (List.mem_singleton_self _)

theorem opens_cons : Opens (node :: nodes) name ↔ Opens [node] name ∨ Opens nodes name := by
  simp only [Opens, allOpens, List.append_nil, List.mem_append, invocations_cons node nodes,
    invocations_cons node [], invocations_nil]
  constructor
  · rintro ((here | later) | ⟨call, (here | here | later), frame⟩)
    · exact .inl (.inl here)
    · exact .inr (.inl later)
    · exact .inl (.inr ⟨call, .inl here, frame⟩)
    · exact .inl (.inr ⟨call, .inr here, frame⟩)
    · exact .inr (.inr ⟨call, later, frame⟩)
  · rintro ((here | ⟨call, (here | here), frame⟩) | (later | ⟨call, later, frame⟩))
    · exact .inl (.inl here)
    · exact .inr ⟨call, .inl here, frame⟩
    · exact .inr ⟨call, .inr (.inl here), frame⟩
    · exact .inl (.inr later)
    · exact .inr ⟨call, .inr (.inr later), frame⟩

theorem Apart.not_opens (apart : Apart (node :: nodes))
    (ids : ((invocations (node :: nodes)).map (·.id)).Nodup) (here : Opens [node] name) :
    ¬Opens nodes name := by
  obtain ⟨distinct, unmarked⟩ := apart
  simp only [allOpens] at distinct unmarked
  rw [← List.singleton_append, invocations_append, List.map_append] at ids
  rcases here with here | ⟨call, here, target, rfl⟩
  · rw [allOpens, allOpens, List.append_nil] at here
    rintro (later | ⟨call, -, target, rfl⟩)
    · exact (List.nodup_append.1 distinct).2.2 name here name later rfl
    · exact unmarked _ (List.mem_append_left _ here) (marked_invocationFrame _ _)
  · rintro (later | ⟨call', later, target', same⟩)
    · exact unmarked _ (List.mem_append_right _ later) (marked_invocationFrame _ _)
    · exact (List.nodup_append.1 ids).2.2 _ (List.mem_map_of_mem here) _
        (List.mem_map_of_mem later) (invocationFrame_injective same)

end Opens

end Node

open Node (Opens Apart Placed)

/-- The inputs of a part of a walk are asked for in distinct scopes, each of them inside a frame of
one of the names in a scope around all of them. -/
structure Spread (names : String → Prop) (around : ScopeId) (trace : List Event)
    (after : ScopeTree) : Prop where
  distinct : (inputScopes trace).Nodup
  inside : ∀ id ∈ inputScopes trace, ∀ final : ScopeTree, after.Grows final →
    ∃ name, names name ∧ final.route around ++ [name] <+: final.route id

namespace Spread

variable {names more : String → Prop} {around : ScopeId} {trace later : List Event}
  {tree between after : ScopeTree}

theorem nil : Spread names around [] after := ⟨.nil, fun _ member => by cases member⟩

theorem imp (weaker : ∀ name, names name → more name) (spread : Spread names around trace after) :
    Spread more around trace after where
  distinct := spread.distinct
  inside id member final grows :=
    (spread.inside id member final grows).imp fun name => .imp_left (weaker name)

theorem append (first : Spread names around trace between)
    (rest : Spread more around later after) (grows : between.Grows after)
    (apart : ∀ name, names name → ¬more name) :
    Spread (fun name => names name ∨ more name) around (trace ++ later) after where
  distinct := by
    rw [inputScopes_append]
    refine List.nodup_append.2 ⟨first.distinct, rest.distinct, ?_⟩
    rintro id member _ member' rfl
    obtain ⟨name, here, before⟩ := first.inside id member after grows
    obtain ⟨name', there, before'⟩ := rest.inside id member' after (.refl after)
    -- Both routes lead to the same scope, so the frames that they go through have one name.
    have same := List.prefix_of_prefix_length_le before before' (by simp)
    have same := same.eq_of_length (by simp)
    rw [List.append_right_inj, List.singleton_inj] at same
    exact apart name here (same ▸ there)
  inside id member final grown := by
    rw [inputScopes_append] at member
    rcases List.mem_append.1 member with member | member
    · exact (first.inside id member final (grows.trans grown)).imp fun name => .imp_left .inl
    · exact (rest.inside id member final grown).imp fun name => .imp_left .inr

theorem push (wf : tree.WellFormed) {name : String} {frame : FrameKind}
    (spread : Spread names (tree.push name frame).2.current trace between)
    (entered : (tree.push name frame).2.Grows between) :
    Spread (· = name) tree.current trace between where
  distinct := spread.distinct
  inside id member final grows := by
    obtain ⟨inner, -, before⟩ := spread.inside id member final grows
    rw [ScopeTree.route_push wf (entered.trans grows)] at before
    exact ⟨name, rfl, (List.prefix_append _ _).trans before⟩

theorem input (wf : tree.WellFormed) {name : String} {frame : FrameKind}
    (spread : Spread names (tree.push name frame).2.current trace between)
    (entered : (tree.push name frame).2.Grows between) {node : Node}
    (isInput : node.kind.isInput = true) :
    Spread (· = name) tree.current (.entered node (tree.push name frame).2 :: trace) between where
  distinct := by
    rw [inputScopes_entered, if_pos isInput]
    refine List.nodup_cons.2 ⟨fun member => ?_, spread.distinct⟩
    obtain ⟨inner, -, before⟩ := spread.inside _ member between (.refl between)
    have longer := before.length_le
    rw [List.length_append, List.length_singleton] at longer
    exact Nat.not_succ_le_self _ longer
  inside id member final grows := by
    rw [inputScopes_entered, if_pos isInput] at member
    rcases List.mem_cons.1 member with rfl | member
    · rw [ScopeTree.route_push wf (entered.trans grows)]
      exact ⟨name, rfl, List.prefix_rfl⟩
    · exact (spread.push wf entered).inside id member final grows

theorem of_eq {trace' : List Event} (same : inputScopes trace' = inputScopes trace)
    (spread : Spread names around trace after) : Spread names around trace' after :=
  ⟨same ▸ spread.distinct, same ▸ spread.inside⟩

theorem cons {node : Node} {nodes : List Node}
    (first : Spread (Opens [node]) around trace between)
    (rest : Spread (Opens nodes) around later after) (grows : between.Grows after)
    (apart : Apart (node :: nodes)) (ids : ((Node.invocations (node :: nodes)).map (·.id)).Nodup) :
    Spread (Opens (node :: nodes)) around (trace ++ later) after :=
  (first.append rest grows fun _ => apart.not_opens ids).imp fun _ => Node.opens_cons.2

end Spread

structure Node.PlacedMethod (method : Node) : Prop where
  kind : method.kind = .method
  placed : ∀ node ∈ method.preorder, node.Placed
  ids : ((invocations method.children).map (·.id)).Nodup

theorem Node.Placed.not_isInput {node : Node} (placed : node.Placed)
    (role : ∀ name, node.role ≠ .block (some (name, .input))) : node.kind.isInput = false := by
  cases isInput : node.kind.isInput with
  | false => rfl
  | true =>
      obtain ⟨name, framed⟩ := placed.framed isInput
      exact absurd framed (role name)

theorem Node.ids_of_cons {node : Node} {nodes : List Node}
    (ids : ((invocations (node :: nodes)).map (·.id)).Nodup) :
    ((invocations node.children).map (·.id)).Nodup ∧ ((invocations nodes).map (·.id)).Nodup := by
  rw [invocations_cons, List.map_append, List.map_append] at ids
  have ids := List.nodup_append.1 (List.nodup_append.1 ids).2.1
  exact ⟨ids.1, ids.2.1⟩

theorem Node.Apart.of_cons {node : Node} {nodes : List Node} (apart : Apart (node :: nodes)) :
    Apart nodes where
  distinct := (List.nodup_append.1 apart.distinct).2.1
  unmarked name member := apart.unmarked name (List.mem_append_right _ member)

theorem Node.placed_of_cons {node : Node} {nodes : List Node}
    (placed : ∀ below ∈ preorderAll (node :: nodes), below.Placed) : node.Placed ∧
      (∀ below ∈ preorderAll node.children, below.Placed) ∧
        ∀ later ∈ preorderAll nodes, later.Placed := by
  rw [preorderAll_cons, List.forall_mem_cons, List.forall_mem_append] at placed
  exact placed

namespace Spread

variable {tree after : ScopeTree} {trace : List Event} {node : Node}

theorem frameless {around : ScopeId} (here : node.Placed)
    (role : node.role = .condition ∨ node.role = .block none)
    (spread : Spread (Opens node.children) around trace after) :
    Spread (Opens [node]) around (.entered node tree :: trace) after := by
  refine .of_eq ?_ (spread.imp fun _ => Node.opens_of_frameless role)
  have isInput : node.kind.isInput = false :=
    here.not_isInput fun name input => by rcases role with role | role <;> simp [role] at input
  rw [inputScopes_entered, isInput]
  rfl

theorem block (wf : tree.WellFormed) {frame : Option (String × FrameKind)} (here : node.Placed)
    (role : node.role = .block frame) (entered : (tree.opened frame).Grows after)
    (spread : Spread (Opens node.children) (tree.opened frame).current trace after) :
    Spread (Opens [node]) tree.current (.entered node (tree.opened frame) :: trace) after := by
  cases frame with
  | none => exact spread.frameless here (.inr role)
  | some frame =>
      have opens : ∀ name, name = frame.1 → Opens [node] name := by
        rintro _ rfl
        exact Node.opens_of_block role
      cases isInput : node.kind.isInput with
      | true => exact (spread.input wf entered isInput).imp opens
      | false =>
          refine .of_eq ?_ ((spread.push wf entered).imp opens)
          rw [inputScopes_entered, isInput]
          rfl

theorem call (around : ScopeTree) (wf : tree.WellFormed) (here : node.Placed)
    (role : node.role = .call) {method : Node} (kind : method.kind = .method)
    (entered : (tree.opened (node.bodyFrame node.target)).Grows after)
    (spread : Spread (Opens method.children)
      (tree.opened (node.bodyFrame node.target)).current trace after) :
    Spread (Opens [node]) tree.current (.entered node around ::
      .entered method (tree.opened (node.bodyFrame node.target)) :: trace) after := by
  refine .of_eq ?_ ((spread.push wf entered).imp fun name same => ?_)
  · rw [inputScopes_entered, here.not_isInput (by simp [role]), inputScopes_entered, kind]
    rfl
  · rw [same]
    exact Node.opens_of_call role _

end Spread

variable {visitor : Visitor σ} {library : Library}

namespace Spread

/-- Where frames are kept apart, the inputs of the walk are asked for in scopes of their own. -/
def Along (methods : Methods) (nodes : List Node) (tree : ScopeTree) (trace : List Event)
    (after : ScopeTree) : Prop :=
  (∀ entry ∈ methods, entry.2.PlacedMethod) → Apart nodes →
    (∀ node ∈ Node.preorderAll nodes, node.Placed) →
    ((Node.invocations nodes).map (·.id)).Nodup → Spread (Opens nodes) tree.current trace after

theorem lifts : Walked.Lifts visitor library Along where
  nil := fun _ _ _ _ => .nil
  declaration := by
    intro _ node nodes tree later after _ rest answered apart placed ids
    have later := rest answered apart.of_cons (Node.placed_of_cons placed).2.2
      (Node.ids_of_cons ids).2
    exact later.imp fun _ => Node.opens_cons.2 ∘ .inr
  untaken := by
    intro _ node nodes tree later after _ rest answered apart placed ids
    have later := rest answered apart.of_cons (Node.placed_of_cons placed).2.2
      (Node.ids_of_cons ids).2
    refine .of_eq (inputScopes_decided ..) ?_
    exact later.imp fun _ => Node.opens_cons.2 ∘ .inr
  taken := by
    intro _ node nodes tree inner left after trace later role enters worked finished below rest
      answered apart placed ids
    obtain ⟨here, belowPlaced, laterPlaced⟩ := Node.placed_of_cons placed
    obtain ⟨belowIds, laterIds⟩ := Node.ids_of_cons ids
    have spread := below answered here.below belowPlaced belowIds
    have later := rest answered apart.of_cons laterPlaced laterIds
    rw [enters.extended.current] at spread
    rw [(enters.extended.trans worked).current] at later
    refine .of_eq (inputScopes_decided ..) ?_
    exact (spread.frameless here (.inl role)).cons later finished.grows apart ids
  block := by
    intro _ node nodes tree inner left after trace later frame role wf enters worked finished below
      rest answered apart placed ids
    obtain ⟨here, belowPlaced, laterPlaced⟩ := Node.placed_of_cons placed
    obtain ⟨belowIds, laterIds⟩ := Node.ids_of_cons ids
    have extended := enters.extended.trans worked
    have spread := below answered here.below belowPlaced belowIds
    have later := rest answered apart.of_cons laterPlaced laterIds
    rw [enters.extended.current] at spread
    rw [extended.closed.current] at later
    have nodes : (tree.closed left frame).nodes = left.nodes := by cases frame <;> rfl
    exact (spread.block wf here role extended.grows).cons later
      (finished.grows.of_nodes nodes.symm rfl) apart ids
  call := by
    intro _ node nodes tree entry inner left after trace later method role found enters entersMethod
      worked finished below rest answered apart placed ids
    obtain ⟨here, -, laterPlaced⟩ := Node.placed_of_cons placed
    obtain ⟨before, others, split, -⟩ := List.lookup_eq_some_iff.1 found
    have answer := answered (node.target, method) (split ▸ by simp)
    obtain ⟨bodyPlaced, belowPlaced⟩ :=
      List.forall_mem_cons.1 (Node.preorder_eq method ▸ answer.placed)
    have extended := entersMethod.extended.trans worked
    have spread := below answered bodyPlaced.below belowPlaced answer.ids
    have later := rest answered apart.of_cons laterPlaced (Node.ids_of_cons ids).2
    rw [entersMethod.extended.current] at spread
    have first := spread.call tree enters.extended.wellFormed here role answer.kind extended.grows
    rw [enters.extended.current] at first
    rw [(enters.extended.trans extended.closed).current] at later
    exact first.cons later (finished.grows.of_nodes rfl rfl) apart ids
  source role := fun _ _ _ _ _ _ _ _ placed =>
    absurd role (Node.placed_of_cons placed).1.unsourced

end Spread

theorem Walked.spread (extending : visitor.Extends)
    (walked : Walked visitor library methods nodes c trace c') (wf : c.1.WellFormed)
    (answered : ∀ entry ∈ methods, entry.2.PlacedMethod) (apart : Apart nodes)
    (placed : ∀ node ∈ Node.preorderAll nodes, node.Placed)
    (ids : ((Node.invocations nodes).map (·.id)).Nodup) :
    Spread (Opens nodes) c.1.current trace c'.1 :=
  walked.lift extending Spread.lifts wf answered apart placed ids

end Archetype
