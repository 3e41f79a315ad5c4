import Archetype.Proofs.Scope.Retracing

/-!
Following a path against looking it up. Where a look-up finds a scope, the path leads to it and the
tree stays as it is; otherwise what is missing is created, and all that happens to the scopes there
are is that some get further children.
-/

namespace Archetype

structure ScopeNode.Plain (node : ScopeNode) : Prop where
  frame : node.frame = .value
  variants : node.variants = []
  unbound : node.isBound = false
  unvisited : node.visited = false
  unskipped : node.skipped = false

namespace ScopeTree

open ScopePath (Segment)

/-- All that happened to the scopes of the earlier tree is that children were appended to some,
which are found by their names; these are new scopes, and plain ones. The open frames are the
same. -/
structure OnlyExtended (before after : ScopeTree) : Prop where
  frames : after.frames = before.frames
  size : before.size ≤ after.size
  kept : ∀ id < before.size, ∃ added : List ScopeId,
    (∀ child ∈ added, before.size ≤ child ∧ child < after.size) ∧
    after.node id = { before.node id with
      children := (before.node id).children ++ added
      index := (added.map fun child => ((after.node child).name, child)).reverse
        ++ (before.node id).index }
  plain : ∀ id, before.size ≤ id → id < after.size → (after.node id).Plain

namespace OnlyExtended

variable {tree : ScopeTree} {a b c : ScopeTree}

theorem refl (tree : ScopeTree) : tree.OnlyExtended tree where
  frames := rfl
  size := Nat.le_refl _
  kept _ _ := ⟨[], by simp, by simp⟩
  plain _ beyond inside := absurd inside (Nat.not_lt_of_le beyond)

theorem trans (first : a.OnlyExtended b) (second : b.OnlyExtended c) : a.OnlyExtended c where
  frames := second.frames.trans first.frames
  size := Nat.le_trans first.size second.size
  kept id inside := by
    obtain ⟨added, new, same⟩ := first.kept id inside
    obtain ⟨more, newer, same'⟩ := second.kept id (Nat.lt_of_lt_of_le inside first.size)
    have named : ∀ child ∈ added, (c.node child).name = (b.node child).name := by
      intro child member
      obtain ⟨_, -, still⟩ := second.kept child (new child member).2
      rw [still]
    have names : added.map (fun child => ((c.node child).name, child)) =
        added.map fun child => ((b.node child).name, child) :=
      List.map_congr_left fun child member => by rw [named child member]
    refine ⟨added ++ more, ?_, ?_⟩
    · intro child member
      rcases List.mem_append.1 member with early | late
      · exact ⟨(new child early).1, Nat.lt_of_lt_of_le (new child early).2 second.size⟩
      · exact ⟨Nat.le_trans first.size (newer child late).1, (newer child late).2⟩
    · rw [same', same, List.map_append, List.reverse_append, names, List.append_assoc,
        List.append_assoc]
  plain id beyond inside := by
    by_cases old : id < b.size
    · obtain ⟨_, -, still⟩ := second.kept id old
      have plain := first.plain id beyond old
      rw [still]
      exact ⟨plain.frame, plain.variants, plain.unbound, plain.unvisited, plain.unskipped⟩
    · exact second.plain id (Nat.le_of_not_lt old) inside

theorem addChild (around : ScopeId) (name : String) :
    tree.OnlyExtended (tree.addChild around name .value) where
  frames := rfl
  size := by simp
  kept id inside := by
    by_cases parent : id = around
    · refine ⟨[tree.size], by simp, ?_⟩
      rw [node_addChild_of_lt inside, if_pos parent, List.map_singleton, node_addChild_new]
      rfl
    · refine ⟨[], by simp, ?_⟩
      rw [node_addChild_of_lt inside, if_neg parent]
      simp
  plain id beyond inside := by
    rw [size_addChild] at inside
    obtain rfl : id = tree.size := Nat.le_antisymm (Nat.le_of_lt_succ inside) beyond
    rw [node_addChild_new]
    exact ⟨rfl, rfl, rfl, rfl, rfl⟩

end OnlyExtended

variable {tree : ScopeTree}

theorem onlyExtended_reach (wf : tree.WellFormed) (segments : List Segment) (anchored : Bool)
    {here : ScopeId} (inside : here < tree.size) :
    tree.OnlyExtended (tree.reach anchored here segments).2 :=
  related_reach (fun tree _ => .refl tree) .trans (fun _ _ _ _ => .addChild _ _) wf anchored inside

/-- Whatever was done to a fresh tree: if a look-up leads to a scope, so does following the path,
and the tree stays as it is; if not, following the path changes no scope there is but for children
that it appends, and every scope that it adds is a plain value, unbound, unvisited and not
skipped. -/
theorem scope_agrees_with_resolve (operations : List Operation) (path : String) :
    let tree := run {} operations
    (∀ id, tree.resolve? path = some id → tree.scope path = (id, tree)) ∧
      (tree.resolve? path = none → tree.OnlyExtended (tree.scope path).2) := by
  intro tree
  have wf : tree.WellFormed := (run_sound .init operations).1
  exact ⟨fun _ found => reach_of_follow? found,
    fun _ => onlyExtended_reach wf _ false wf.current_lt⟩

/-- Inside a step, a name that is bound outside is found, and one that is not is created. -/
theorem scope_agrees_with_resolve_in_step :
    let tree := run {} [.bind "module" (.string "io") .user, .push "rename" .step]
    tree.scope "module" = (1, tree) ∧ tree.OnlyExtended (tree.scope "~.module.path").2 := by
  have agrees := scope_agrees_with_resolve
    [.bind "module" (.string "io") .user, .push "rename" .step]
  exact ⟨(agrees "module").1 1 (by decide +kernel),
    (agrees "~.module.path").2 (by decide +kernel)⟩

end ScopeTree

end Archetype
