import Archetype.Proofs.Scope.Operations

/-!
Which value is in effect. A scope keeps every value bound to it in the order of binding, and the one
in effect is the latest of those with the highest origin, so it does not depend on how values of
different origins are interleaved.
-/

namespace Archetype

def latest? (bound : List Variant) (origin : Origin) : Option Variant :=
  (bound.filter (·.origin = origin)).getLast?

/-- The latest of the values with the highest origin. -/
def prevailing? (bound : List Variant) : Option Variant :=
  [Origin.external, .user, .preset, .default].findSome? (latest? bound)

theorem prevailing?_congr {bound other : List Variant}
    (same : ∀ origin, other.filter (·.origin = origin) = bound.filter (·.origin = origin)) :
    prevailing? other = prevailing? bound := by
  have latest : latest? other = latest? bound := by
    funext origin
    rw [latest?, latest?, same]
  rw [prevailing?, prevailing?, latest]

theorem origin_of_latest? {bound : List Variant} {origin : Origin} {v : Variant}
    (latest : latest? bound origin = some v) : v.origin = origin := by
  simpa using (List.mem_filter.1 (List.mem_of_getLast? latest)).2

theorem latest?_concat (bound : List Variant) (v : Variant) (origin : Origin) :
    latest? (bound ++ [v]) origin = if v.origin = origin then some v else latest? bound origin := by
  unfold latest?
  rw [List.filter_append]
  by_cases same : v.origin = origin <;> simp [same]

/-- A value that is bound last prevails, unless the one that prevailed has a higher origin. -/
theorem findSome?_latest?_concat (bound : List Variant) (v : Variant) {origins : List Origin}
    (falling : origins.Pairwise fun high low => low.rank < high.rank) (known : v.origin ∈ origins) :
    origins.findSome? (latest? (bound ++ [v])) =
      if (origins.findSome? (latest? bound)).all (·.origin.rank ≤ v.origin.rank) then some v
      else origins.findSome? (latest? bound) := by
  induction origins with
  | nil => cases known
  | cons high lower ih =>
      obtain ⟨above, falling⟩ := List.pairwise_cons.1 falling
      rw [List.findSome?_cons, List.findSome?_cons, latest?_concat]
      by_cases here : v.origin = high
      · have outranks : ∀ w, (high :: lower).findSome? (latest? bound) = some w →
            w.origin.rank ≤ v.origin.rank := by
          intro w prevails
          obtain ⟨origin, member, latest⟩ := List.exists_of_findSome?_eq_some prevails
          rw [origin_of_latest? latest, here]
          rcases List.mem_cons.1 member with rfl | below
          · exact Nat.le_refl _
          · exact Nat.le_of_lt (above origin below)
        rw [List.findSome?_cons] at outranks
        rw [if_pos here, if_pos]
        simpa [Option.all_eq_true] using outranks
      · have below := (List.mem_cons.1 known).resolve_left here
        rw [if_neg here]
        cases latest : latest? bound high with
        | none => exact ih falling below
        | some w =>
            have outranked : ¬w.origin.rank ≤ v.origin.rank := by
              rw [origin_of_latest? latest]
              exact Nat.not_le_of_lt (above _ below)
            simp [outranked]

theorem prevailing?_concat (bound : List Variant) (v : Variant) :
    prevailing? (bound ++ [v]) =
      if (prevailing? bound).all (·.origin.rank ≤ v.origin.rank) then some v
      else prevailing? bound :=
  findSome?_latest?_concat bound v (by decide) (by cases v.origin <;> decide)

namespace ScopeTree

variable {tree : ScopeTree}

def SameValues (before after : ScopeTree) : Prop :=
  ∀ id, (after.node id).variants = (before.node id).variants ∧
    (after.node id).inEffect = (before.node id).inEffect

namespace SameValues

theorem refl (tree : ScopeTree) : tree.SameValues tree := fun _ => ⟨rfl, rfl⟩

theorem trans {a b c : ScopeTree} (first : a.SameValues b) (second : b.SameValues c) :
    a.SameValues c := fun id =>
  ⟨(second id).1.trans (first id).1, (second id).2.trans (first id).2⟩

theorem modify (id : ScopeId) {f : ScopeNode → ScopeNode}
    (variants : ∀ node, (f node).variants = node.variants)
    (inEffect : ∀ node, (f node).inEffect = node.inEffect) :
    tree.SameValues (tree.modify id f) := by
  intro other
  rw [node_modify]
  split
  · exact ⟨variants _, inEffect _⟩
  · exact ⟨rfl, rfl⟩

theorem ensureChild (around : ScopeId) (name : String) (frame : FrameKind) :
    tree.SameValues (tree.ensureChild around name frame).2 := fun id =>
  have same := sameContent_ensureChild around name frame id
  ⟨same.variants, same.inEffect⟩

theorem reach (segments : List ScopePath.Segment) (anchored : Bool) (here : ScopeId) :
    tree.SameValues (tree.reach anchored here segments).2 := by
  induction segments generalizing tree anchored here with
  | nil => exact refl tree
  | cons segment rest ih =>
      cases segment with
      | root => exact ih true root
      | parent => exact ih true _
      | name name =>
          simp only [ScopeTree.reach]
          split
          · exact ih true _
          · exact (ensureChild here name .value).trans (ih true _)

end SameValues

def Operation.boundTo (tree : ScopeTree) (id : ScopeId) : Operation → List Variant
  | .bind path value origin => if (tree.scope path).1 = id then [⟨origin, value⟩] else []
  | .bindAt target value origin =>
      if target = id ∧ target < tree.size then [⟨origin, value⟩] else []
  | _ => []

def boundTo (tree : ScopeTree) (id : ScopeId) : List Operation → List Variant
  | [] => []
  | operation :: rest => operation.boundTo tree id ++ (operation.apply tree).boundTo id rest

/-- A scope holds its values in order, and the one in effect is the one that prevails. -/
structure Holds (tree : ScopeTree) (id : ScopeId) (bound : List Variant) : Prop where
  variants : (tree.node id).variants = bound
  effective : (tree.node id).effective? = prevailing? bound

variable {id : ScopeId} {bound : List Variant}

theorem Holds.of_sameValues {after : ScopeTree} (holds : tree.Holds id bound)
    (same : tree.SameValues after) : after.Holds id bound where
  variants := (same id).1.trans holds.variants
  effective := by
    rw [← holds.effective, ScopeNode.effective?, ScopeNode.effective?, (same id).1, (same id).2]

theorem Holds.bindAt (holds : tree.Holds id bound) (target : ScopeId) (value : Value)
    (origin : Origin) :
    (tree.bindAt target value origin).Holds id
      (bound ++ if target = id ∧ target < tree.size then [⟨origin, value⟩] else []) := by
  by_cases here : target = id ∧ target < tree.size
  · obtain ⟨rfl, inside⟩ := here
    have node : (tree.bindAt target value origin).node target =
        (tree.node target).bind ⟨origin, value⟩ := node_modify_self inside _
    rw [if_pos ⟨rfl, inside⟩]
    refine ⟨?_, ?_⟩
    · rw [node, ← holds.variants]
      rfl
    · rw [node, ScopeNode.effective?_bind, prevailing?_concat, holds.effective]
  · have node : (tree.bindAt target value origin).node id = tree.node id := by
      rw [ScopeTree.bindAt, node_modify, if_neg]
      exact fun both => here ⟨both.1.symm, both.2⟩
    rw [if_neg here, List.append_nil]
    exact ⟨by rw [node, holds.variants], by rw [node, holds.effective]⟩

theorem Holds.apply (wf : tree.WellFormed) (holds : tree.Holds id bound) (operation : Operation) :
    (operation.apply tree).Holds id (bound ++ operation.boundTo tree id) := by
  have kept : tree.SameValues (operation.apply tree) → operation.boundTo tree id = [] →
      (operation.apply tree).Holds id (bound ++ operation.boundTo tree id) := by
    intro same none
    rw [none, List.append_nil]
    exact holds.of_sameValues same
  cases operation with
  | push name frame => exact kept (.ensureChild tree.current name frame) rfl
  | leaveTo count => exact kept (.refl tree) rfl
  | declare name => exact kept (.ensureChild tree.current name .value) rfl
  | scope path => exact kept (.reach _ false tree.current) rfl
  | bind path value origin =>
      have reached : (tree.scope path).1 < (tree.scope path).2.size :=
        (reach_sound wf (ScopePath.segments path) false wf.current_lt).2.2
      have same : tree.SameValues (tree.scope path).2 := .reach _ false tree.current
      have added := (holds.of_sameValues same).bindAt (tree.scope path).1 value origin
      simp only [reached, and_true] at added
      exact added
  | bindAt target value origin => exact holds.bindAt target value origin
  | markVisited target => exact kept (.modify target (fun _ => rfl) fun _ => rfl) rfl
  | markSkipped target => exact kept (.modify target (fun _ => rfl) fun _ => rfl) rfl

theorem Holds.run (wf : tree.WellFormed) (holds : tree.Holds id bound)
    (operations : List Operation) :
    (tree.run operations).Holds id (bound ++ tree.boundTo id operations) := by
  induction operations generalizing tree bound with
  | nil =>
      rw [boundTo, List.append_nil]
      exact holds
  | cons operation rest ih =>
      rw [boundTo, ← List.append_assoc]
      exact ih (wf.apply operation) (holds.apply wf operation)

theorem Holds.init (id : ScopeId) : Holds {} id [] := by
  cases id with
  | zero => exact ⟨rfl, rfl⟩
  | succ id =>
      have outside : ({} : ScopeTree).node (id + 1) = {} :=
        node_of_size_le (Nat.le_add_left 1 id)
      exact ⟨by rw [outside], by rw [outside]; rfl⟩

/-- Whatever is done to a fresh tree, a scope holds the values bound to it in the order of binding,
and the latest of those with the highest origin is in effect. So two runs that bind the same values
of each origin in the same order leave the same value in effect, however the origins are mixed. -/
theorem effective_value_prevails (operations : List Operation) (id : ScopeId) :
    ((run {} operations).node id).variants = boundTo {} id operations ∧
    ((run {} operations).node id).effective? = prevailing? (boundTo {} id operations) ∧
    ∀ reordered other,
      (∀ origin, (boundTo {} other reordered).filter (·.origin = origin) =
        (boundTo {} id operations).filter (·.origin = origin)) →
      ((run {} reordered).node other).effective? = ((run {} operations).node id).effective? := by
  have holds : ∀ operations id, (run {} operations).Holds id (boundTo {} id operations) :=
    fun operations id => (Holds.init id).run .init operations
  refine ⟨(holds operations id).variants, (holds operations id).effective, ?_⟩
  intro reordered other same
  rw [(holds reordered other).effective, (holds operations id).effective]
  exact prevailing?_congr same

/-- Wherever a preset comes among two values of the user, the later of the two is in effect. -/
theorem effective_value_prevails_interleaved :
    let preset := Operation.bindAt 1 (.string "preset") .preset
    let first := Operation.bindAt 1 (.string "first") .user
    let second := Operation.bindAt 1 (.string "second") .user
    ((run {} [.declare "x", preset, first, second]).node 1).effective? =
      ((run {} [.declare "x", first, second, preset]).node 1).effective? :=
  (effective_value_prevails _ 1).2.2 _ 1 fun origin => by cases origin <;> decide +kernel

end ScopeTree

end Archetype
