import Archetype.Proofs.Generation.Visitors
import Archetype.Proofs.Walk.Upholding

/-!
What the model and the output pass leave behind. A walk whose visitor only looks at the scope tree
changes it by the frames that it enters and leaves again. These add scopes that hold nothing, and
turn scopes of plain values into scopes of blocks; what was bound, visited or skipped before stays,
also where the walk fails.
-/

namespace Archetype

/-- What entering frames leaves of a scope: its name, its place and all that it holds. Children are
only added, and a plain value may become a block. -/
structure ScopeNode.Kept (before after : ScopeNode) : Prop where
  name : after.name = before.name
  parent : after.parent = before.parent
  children : before.children <+: after.children
  index : ∀ name id, before.index.lookup name = some id → after.index.lookup name = some id
  variants : after.variants = before.variants
  inEffect : after.inEffect = before.inEffect
  visited : after.visited = before.visited
  skipped : after.skipped = before.skipped
  frame : after.frame = before.frame ∨ before.frame = .value ∧ after.frame.isBlock = true

structure ScopeNode.Unused (node : ScopeNode) : Prop where
  variants : node.variants = []
  inEffect : node.inEffect = none
  visited : node.visited = false
  skipped : node.skipped = false
  frame : node.frame.isBlock = true

namespace ScopeNode

variable {a b c : ScopeNode}

theorem Kept.refl (node : ScopeNode) : node.Kept node where
  name := rfl
  parent := rfl
  children := List.prefix_rfl
  index _ _ found := found
  variants := rfl
  inEffect := rfl
  visited := rfl
  skipped := rfl
  frame := .inl rfl

theorem Kept.trans (first : a.Kept b) (second : b.Kept c) : a.Kept c where
  name := second.name.trans first.name
  parent := second.parent.trans first.parent
  children := first.children.trans second.children
  index name id found := second.index name id (first.index name id found)
  variants := second.variants.trans first.variants
  inEffect := second.inEffect.trans first.inEffect
  visited := second.visited.trans first.visited
  skipped := second.skipped.trans first.skipped
  frame := by
    rcases first.frame with same | ⟨plain, block⟩
    · rw [← same]
      exact second.frame
    · rcases second.frame with same | ⟨plain', -⟩
      · exact .inr ⟨plain, same ▸ block⟩
      · rw [plain'] at block
        cases block

theorem Kept.value?_eq (kept : a.Kept b) : b.value? = a.value? := by
  simp only [value?, effective?, kept.inEffect, kept.variants]

theorem Unused.of_kept (unused : a.Unused) (kept : a.Kept b) : b.Unused where
  variants := kept.variants.trans unused.variants
  inEffect := kept.inEffect.trans unused.inEffect
  visited := kept.visited.trans unused.visited
  skipped := kept.skipped.trans unused.skipped
  frame := by
    rcases kept.frame with same | ⟨-, block⟩
    · rw [same]
      exact unused.frame
    · exact block

end ScopeNode

namespace ScopeTree

/-- The scopes of the earlier tree are kept in the later one, and those added hold nothing. -/
structure OnlyEntered (before after : ScopeTree) : Prop where
  size : before.size ≤ after.size
  kept : ∀ id < before.size, (before.node id).Kept (after.node id)
  added : ∀ id < after.size, before.size ≤ id → (after.node id).Unused

variable {tree a b c : ScopeTree}

theorem OnlyEntered.refl (tree : ScopeTree) : tree.OnlyEntered tree where
  size := Nat.le_refl _
  kept id _ := .refl (tree.node id)
  added _ inside beyond := absurd inside (Nat.not_lt.2 beyond)

theorem OnlyEntered.trans (first : a.OnlyEntered b) (second : b.OnlyEntered c) :
    a.OnlyEntered c where
  size := Nat.le_trans first.size second.size
  kept id inside :=
    (first.kept id inside).trans (second.kept id (Nat.lt_of_lt_of_le inside first.size))
  added id inside beyond := by
    rcases Nat.lt_or_ge id b.size with between | new
    · exact (first.added id between beyond).of_kept (second.kept id between)
    · exact second.added id inside new

theorem onlyEntered_promote (id : ScopeId) {frame : FrameKind} (block : frame.isBlock = true) :
    tree.OnlyEntered (tree.promote id frame) where
  size := by simp
  kept other _ := by
    rw [promote, node_modify]
    split
    · refine { ScopeNode.Kept.refl (tree.node other) with frame := ?_ }
      by_cases plain : (tree.node other).frame = .value
      · exact .inr ⟨plain, by simpa only [if_pos plain] using block⟩
      · exact .inl (if_neg plain)
    · exact .refl _
  added other inside beyond := by
    rw [size_promote] at inside
    exact absurd inside (Nat.not_lt.2 beyond)

theorem onlyEntered_addChild {around : ScopeId} {name : String}
    (missing : tree.child? around name = none) {frame : FrameKind}
    (block : frame.isBlock = true) : tree.OnlyEntered (tree.addChild around name frame) where
  size := by simp
  kept id inside := by
    have grown := (grows_addChild missing frame).node id inside
    rw [node_addChild_of_lt inside] at grown ⊢
    by_cases here : id = around
    · rw [if_pos here] at grown ⊢
      exact { ScopeNode.Kept.refl (tree.node id) with
        children := grown.children
        index := grown.index }
    · rw [if_neg here]
      exact .refl _
  added id inside beyond := by
    rw [size_addChild] at inside
    obtain rfl : id = tree.size := Nat.le_antisymm (Nat.le_of_lt_succ inside) beyond
    rw [node_addChild_new]
    exact ⟨rfl, rfl, rfl, rfl, block⟩

theorem onlyEntered_push (name : String) {frame : FrameKind} (block : frame.isBlock = true) :
    tree.OnlyEntered (tree.push name frame).2 := by
  have entered : tree.OnlyEntered (tree.ensureChild tree.current name frame).2 := by
    rw [ensureChild_eq]
    split
    · exact onlyEntered_promote _ block
    · next missing => exact onlyEntered_addChild missing block
  exact ⟨entered.size, entered.kept, entered.added⟩

end ScopeTree

namespace Visit

/-- Work that only enters frames of blocks and leaves them again, however it ends. -/
def OnlyEnters (work : Visit σ Unit) : Prop :=
  ∀ ⦃c result c'⦄, work c = some (result, c') →
    c.1.OnlyEntered c'.1 ∧ c'.1.frames = c.1.frames

theorem Looking.onlyEnters {work : Visit σ Unit} (looking : Looking work) : OnlyEnters work := by
  intro c result c' ended
  rw [looking ended]
  exact ⟨.refl c.1, rfl⟩

theorem OnlyEnters.bind {work next : Visit σ Unit} (first : OnlyEnters work)
    (rest : OnlyEnters next) : OnlyEnters (work >>= fun _ => next) := by
  intro c result c' ended
  rw [bind_eq] at ended
  obtain ⟨⟨outcome, between⟩, worked, ended⟩ := Option.bind_eq_some_iff.1 ended
  obtain ⟨entered, frames⟩ := first worked
  cases outcome with
  | error error =>
      cases ended
      exact ⟨entered, frames⟩
  | ok =>
      obtain ⟨entered', frames'⟩ := rest ended
      exact ⟨entered.trans entered', frames'.trans frames⟩

theorem OnlyEnters.within {work : Visit σ Unit} {frame : FrameKind} (name : String)
    (block : frame.isBlock = true) (inner : OnlyEnters work) :
    OnlyEnters (Visit.within name frame work) := by
  intro c result c' ended
  rw [within_eq] at ended
  obtain ⟨⟨outcome, inside⟩, worked, same⟩ := Option.bind_eq_some_iff.1 ended
  cases same
  obtain ⟨entered, frames⟩ := inner worked
  have left := (ScopeTree.onlyEntered_push name block).trans entered
  exact ⟨⟨left.size, left.kept, left.added⟩, ScopeTree.frames_leaveTo_of_push frames⟩

theorem OnlyEnters.condition {work : Visit σ Unit} (node : Node) (inner : OnlyEnters work) :
    OnlyEnters (do if ← Walk.holds node then work) := by
  intro c result c' ended
  refine condition_ends node ended (fun error fails => ?_) (fun passes => ?_) fun works =>
    inner works
  · cases fails
    exact ⟨.refl c.1, rfl⟩
  · cases passes
    exact ⟨.refl c.1, rfl⟩

end Visit

theorem Visitor.Looks.upholds {visitor : Visitor σ} (looks : visitor.Looks) :
    visitor.Upholds Visit.OnlyEnters where
  enter node := (looks.enter node).onlyEnters
  leave node := (looks.leave node).onlyEnters
  pure := (Visit.looking_pure ()).onlyEnters
  throw _ := by
    intro c result c' ended
    cases ended
    exact ⟨.refl c.1, rfl⟩
  outOfBounds := by
    intro c result c' ended
    cases ended
  bind := .bind
  within := .within
  condition := .condition

/-- The model pass and the output pass only read: whether they succeed or fail, all scopes are
there with their names, places and values, visited and skipped as before, and the open frames are
the same. What they add are scopes of blocks that hold nothing. -/
theorem later_passes_only_read (library : Library) (limit : Nat) (root : Node) (tree : ScopeTree) :
    (∀ result tree', assembleModel library limit root tree = some (result, tree') →
      tree.OnlyEntered tree' ∧ tree'.frames = tree.frames) ∧
    ∀ result tree', collectOutputs library limit root tree = some (result, tree') →
      tree.OnlyEntered tree' ∧ tree'.frames = tree.frames := by
  constructor
  · intro result tree' ended
    obtain ⟨⟨outcome, after, assembling⟩, walks, same⟩ := Option.bind_eq_some_iff.1 ended
    cases same
    exact Assembly.visitor_looks.upholds.walk library limit [] root walks
  · intro result tree' ended
    obtain ⟨⟨outcome, after, outputs⟩, walks, same⟩ := Option.bind_eq_some_iff.1 ended
    cases same
    exact Outputs.visitor_looks.upholds.walk library limit [] root walks

/-- A step that holds an input and an output whose target is written with a path that leads
nowhere. -/
def misdirectedScript : Node :=
  let input : Node := ⟨⟨1⟩, ⟨.inputText, .ofList [("name", .string "y")], none⟩, none, []⟩
  let output : Node := ⟨⟨2⟩, ⟨.output,
    .ofList [("src", .string "o"), ("target", .string "$\x7bnowhere\x7d")], none⟩, none, []⟩
  let step : Node :=
    ⟨⟨3⟩, ⟨.step, .ofList [("name", .string "x")], none⟩, none, [input, output]⟩
  ⟨⟨4⟩, ⟨.script, .empty, none⟩, none, [step]⟩

/-- An output pass that fails inside a step: the scope that was bound by name is the one of the step
now and keeps its value, and the input has a scope without one. -/
theorem later_passes_only_read_of_failure :
    let tree := (ScopeTree.bind {} "x" (.string "v") .external).2
    ∃ error tree', collectOutputs .empty 1 misdirectedScript tree = some (.error error, tree') ∧
      tree'.frames = tree.frames ∧ (tree'.node 2).Unused ∧ (tree'.node 1).frame = .step ∧
      (tree'.node 1).value? = some (.string "v") := by
  intro tree
  have fails : (collectOutputs .empty 1 misdirectedScript tree).any fun (result, tree') =>
      !result.isOk && decide (tree'.size = 3) && decide ((tree'.node 1).frame = .step) := by
    decide +kernel
  cases collects : collectOutputs .empty 1 misdirectedScript tree with
  | none => simp [collects] at fails
  | some pair =>
      obtain ⟨result, tree'⟩ := pair
      cases result with
      | ok => simp [collects, Except.isOk, Except.toBool] at fails
      | error error =>
          have ended : tree'.size = 3 ∧ (tree'.node 1).frame = .step := by
            simpa [collects, Except.isOk, Except.toBool] using fails
          obtain ⟨entered, frames⟩ :=
            (later_passes_only_read .empty 1 misdirectedScript tree).2 _ _ collects
          have size : tree.size = 2 := by decide +kernel
          have unused := entered.added 2 (by omega) (by omega)
          have kept := (entered.kept 1 (by omega)).value?_eq
          have bound : (tree.node 1).value? = some (.string "v") := by decide +kernel
          exact ⟨error, tree', rfl, frames, unused, ended.2, kept.trans bound⟩

end Archetype
