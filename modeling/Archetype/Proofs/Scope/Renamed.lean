import Archetype.Generation.Inputs
import Archetype.Proofs.Expression.Agreement
import Archetype.Proofs.Scope.Renaming
import Archetype.Proofs.Scope.Segments

/-!
Runs over renamed scopes. Only scopes of invocations have a number sign in their names, so a
renaming changes no other scope, no path by inputs, and no full path that a caller could give.
-/

namespace Archetype.ScopeTree

/-- The same scopes under new names with the same frames open; a name with a number sign belongs to
an invocation. -/
structure Renamed (ρ : Renaming) (a b : ScopeTree) : Prop extends Alike ρ a b where
  frames : b.frames = a.frames
  marked : ∀ id, '#' ∈ (a.node id).name.toList → (a.node id).frame = .invocation
  indexed : ∀ id, ∀ entry ∈ (a.node id).index, '#' ∈ entry.1.toList →
    (a.node entry.2).frame = .invocation

namespace Renamed

variable {ρ : Renaming} {a b : ScopeTree}

theorem init : Renamed ρ {} {} where
  size := rfl
  node id := by
    have root : ({} : ScopeTree).node id = {} := by
      cases id with
      | zero => rfl
      | succ id => exact node_of_size_le (Nat.le_add_left 1 id)
    rw [root, ScopeNode.rename_empty]
  frames := rfl
  marked id := by
    have root : ({} : ScopeTree).node id = {} := by
      cases id with
      | zero => rfl
      | succ id => exact node_of_size_le (Nat.le_add_left 1 id)
    simp [root]
  indexed id := by
    have root : ({} : ScopeTree).node id = {} := by
      cases id with
      | zero => rfl
      | succ id => exact node_of_size_le (Nat.le_add_left 1 id)
    simp [root]

theorem current (renamed : Renamed ρ a b) : b.current = a.current := by
  simp only [ScopeTree.current, renamed.frames]

theorem modify (renamed : Renamed ρ a b) (id : ScopeId) {f : ScopeNode → ScopeNode}
    (name : ∀ node, (f node).name = node.name)
    (index : ∀ node, (f node).index = node.index) (frame : ∀ node, (f node).frame = node.frame)
    (rename : ∀ node, f (node.rename ρ) = (f node).rename ρ) :
    Renamed ρ (a.modify id f) (b.modify id f) where
  size := by simp [renamed.size]
  node other := by
    rw [node_modify, node_modify, renamed.size, renamed.node other]
    split
    · exact rename _
    · rfl
  frames := renamed.frames
  marked other := by
    rw [node_modify]
    split
    · rw [name, frame]
      exact renamed.marked other
    · exact renamed.marked other
  indexed other entry member hash := by
    have same : ∀ other, ((a.modify id f).node other).index = (a.node other).index ∧
        ((a.modify id f).node other).frame = (a.node other).frame := by
      intro other
      rw [node_modify]
      split
      · exact ⟨index _, frame _⟩
      · exact ⟨rfl, rfl⟩
    rw [(same other).1] at member
    rw [(same entry.2).2]
    exact renamed.indexed other entry member hash

theorem bindAt (renamed : Renamed ρ a b) (id : ScopeId) (value : Value) (origin : Origin) :
    Renamed ρ (a.bindAt id value origin) (b.bindAt id value origin) :=
  renamed.modify id (fun _ => rfl) (fun _ => rfl) (fun _ => rfl) fun _ => rfl

theorem markVisited (renamed : Renamed ρ a b) (id : ScopeId) :
    Renamed ρ (a.markVisited id) (b.markVisited id) :=
  renamed.modify id (fun _ => rfl) (fun _ => rfl) (fun _ => rfl) fun _ => rfl

theorem markSkipped (renamed : Renamed ρ a b) (id : ScopeId) :
    Renamed ρ (a.markSkipped id) (b.markSkipped id) :=
  renamed.modify id (fun _ => rfl) (fun _ => rfl) (fun _ => rfl) fun _ => rfl

theorem frame_promote_of_invocation {id other : ScopeId} {frame : FrameKind}
    (invocation : (a.node other).frame = .invocation) :
    ((a.promote id frame).node other).frame = .invocation := by
  rw [ScopeTree.promote, node_modify]
  split
  · simp [invocation]
  · exact invocation

theorem promote (renamed : Renamed ρ a b) (id : ScopeId) (frame : FrameKind) :
    Renamed ρ (a.promote id frame) (b.promote id frame) where
  size := by simp [renamed.size]
  node other := by
    rw [ScopeTree.promote, ScopeTree.promote, node_modify, node_modify, renamed.size,
      renamed.node other]
    split <;> rfl
  frames := renamed.frames
  marked other hash := by
    have kept : ((a.promote id frame).node other).name = (a.node other).name := by
      rw [ScopeTree.promote, node_modify]
      split <;> rfl
    rw [kept] at hash
    exact frame_promote_of_invocation (renamed.marked other hash)
  indexed other entry member hash := by
    have kept : ((a.promote id frame).node other).index = (a.node other).index := by
      rw [ScopeTree.promote, node_modify]
      split <;> rfl
    rw [kept] at member
    exact frame_promote_of_invocation (renamed.indexed other entry member hash)

theorem addChild (renamed : Renamed ρ a b) (around : ScopeId) {name : String} {frame : FrameKind}
    (mark : '#' ∈ name.toList → frame = .invocation) :
    Renamed ρ (a.addChild around name frame) (b.addChild around (ρ.apply name) frame) := by
  have position : ∀ id, id < a.size ∨ id = a.size ∨ a.size + 1 ≤ id := by omega
  constructor
  case toAlike =>
    refine ⟨by simp [renamed.size], fun id => ?_⟩
    rcases position id with old | rfl | beyond
    · rw [node_addChild_of_lt old, node_addChild_of_lt (renamed.size ▸ old), renamed.node id,
        renamed.size]
      split <;> rfl
    · have new := b.node_addChild_new around (ρ.apply name) frame
      rw [renamed.size] at new
      rw [new, node_addChild_new]
      rfl
    · rw [node_of_size_le (by rw [size_addChild, renamed.size]; exact beyond),
        node_of_size_le (by rw [size_addChild]; exact beyond), ScopeNode.rename_empty]
  case frames => exact renamed.frames
  case marked =>
    intro id hash
    rcases position id with old | rfl | beyond
    · rw [node_addChild_of_lt old] at hash ⊢
      split at hash <;> rename_i same
      · rw [if_pos same]
        exact renamed.marked id hash
      · rw [if_neg same]
        exact renamed.marked id hash
    · rw [node_addChild_new] at hash ⊢
      exact mark hash
    · rw [node_of_size_le (by simpa using beyond)] at hash
      simp at hash
  case indexed =>
    have old : ∀ entry : String × ScopeId, (a.node entry.2).frame = .invocation →
        ((a.addChild around name frame).node entry.2).frame = .invocation := by
      intro entry invocation
      have inside : entry.2 < a.size := by
        by_contra outside
        rw [node_of_size_le (Nat.le_of_not_lt outside)] at invocation
        cases invocation
      rw [node_addChild_of_lt inside]
      split <;> exact invocation
    intro id entry member hash
    rcases position id with inside | rfl | beyond
    · rw [node_addChild_of_lt inside] at member
      split at member
      · rcases List.mem_cons.1 member with rfl | member
        · rw [node_addChild_new]
          exact mark hash
        · exact old entry (renamed.indexed id entry member hash)
      · exact old entry (renamed.indexed id entry member hash)
    · rw [node_addChild_new] at member
      cases member
    · rw [node_of_size_le (by simpa using beyond)] at member
      cases member

theorem ensureChild (renamed : Renamed ρ a b) (around : ScopeId) {name : String} {frame : FrameKind}
    (mark : '#' ∈ name.toList → frame = .invocation) :
    (b.ensureChild around (ρ.apply name) frame).1 = (a.ensureChild around name frame).1 ∧
      Renamed ρ (a.ensureChild around name frame).2
        (b.ensureChild around (ρ.apply name) frame).2 := by
  rw [ensureChild_eq, ensureChild_eq, renamed.child?]
  cases a.child? around name with
  | some id => exact ⟨rfl, renamed.promote id frame⟩
  | none => exact ⟨renamed.size, renamed.addChild around mark⟩

theorem push (renamed : Renamed ρ a b) {name : String} {frame : FrameKind}
    (mark : '#' ∈ name.toList → frame = .invocation) :
    Renamed ρ (a.push name frame).2 (b.push (ρ.apply name) frame).2 := by
  obtain ⟨same, reached⟩ := renamed.ensureChild a.current mark
  rw [push_eq, push_eq, renamed.current]
  refine ⟨⟨reached.size, reached.node⟩, ?_, reached.marked, reached.indexed⟩
  simp only [same, renamed.frames]

theorem leaveTo (renamed : Renamed ρ a b) (count : Nat) :
    Renamed ρ (a.leaveTo count) (b.leaveTo count) where
  size := renamed.size
  node := renamed.node
  frames := by simp only [ScopeTree.leaveTo, renamed.frames]
  marked := renamed.marked
  indexed := renamed.indexed

/-! Paths. -/

theorem keeps_of_frame (renamed : Renamed ρ a b) {id : ScopeId}
    (frame : (a.node id).frame ≠ .invocation) : ρ.apply (a.node id).name = (a.node id).name :=
  ρ.keeps _ fun hash => frame (renamed.marked id hash)

theorem inputPath (renamed : Renamed ρ a b) (id : ScopeId) : b.inputPath id = a.inputPath id := by
  simp only [ScopeTree.inputPath, ScopeTree.namesTo, renamed.ancestry, renamed.frame]
  congr 1
  refine List.map_congr_left fun around member => ?_
  have input : (a.node around).frame = .input := by simpa using (List.mem_filter.1 member).2
  rw [renamed.name]
  exact renamed.keeps_of_frame (by rw [input]; decide)

theorem marked_intercalate (names : List String) :
    '#' ∈ (".".intercalate names).toList ↔ ∃ name ∈ names, '#' ∈ name.toList := by
  induction names with
  | nil => simp
  | cons name rest ih =>
      cases rest with
      | nil => simp
      | cons next rest =>
          rw [String.intercalate_cons_cons, String.toList_append, String.toList_append]
          simp only [List.mem_append, ih, List.mem_cons, exists_eq_or_imp]
          simp

theorem lookup_of_marked {table : List (String × α)}
    (plain : ∀ entry ∈ table, '#' ∉ entry.1.toList) {path : String} (hash : '#' ∈ path.toList) :
    table.lookup path = none := by
  refine List.lookup_eq_none_iff.2 fun entry member => ?_
  simp only [bne_iff_ne, ne_eq]
  rintro rfl
  exact plain entry member hash

/-- Keys without number signs are the same for names put together before and after the renaming. -/
theorem lookup_intercalate (ρ : Renaming) {table : List (String × α)}
    (plain : ∀ entry ∈ table, '#' ∉ entry.1.toList) (names : List String) :
    table.lookup (".".intercalate (names.map ρ.apply)) = table.lookup (".".intercalate names) := by
  by_cases hash : ∃ name ∈ names, '#' ∈ name.toList
  · rw [lookup_of_marked plain ((marked_intercalate names).2 hash), lookup_of_marked plain]
    obtain ⟨name, member, hash⟩ := hash
    exact (marked_intercalate _).2
      ⟨_, List.mem_map_of_mem member, (ρ.marked_apply_iff name).2 hash⟩
  · have kept : ∀ name ∈ names, ρ.apply name = name := fun name member =>
      ρ.keeps name fun marked => hash ⟨name, member, marked⟩
    rw [List.map_congr_left kept, List.map_id']

/-- A key without a number sign leads to the same value for the full path of a scope before and
after the renaming. -/
theorem lookup_path (renamed : Renamed ρ a b) {table : List (String × α)}
    (plain : ∀ entry ∈ table, '#' ∉ entry.1.toList) (id : ScopeId) :
    table.lookup (b.path id) = table.lookup (a.path id) := by
  have names := renamed.namesTo (fun _ => rfl : ∀ other, decide (other ≠ root) = _) id
  rw [ScopeTree.path, names]
  exact lookup_intercalate ρ plain _

theorem find? (renamed : Renamed ρ a b) {table : ValueTable}
    (plain : ∀ entry ∈ table, '#' ∉ entry.1.toList) (id : ScopeId) :
    table.find? (b.inputPath id) (b.path id) = table.find? (a.inputPath id) (a.path id) := by
  simp only [ValueTable.find?, renamed.inputPath, renamed.lookup_path plain]

/-! Values. -/

theorem lookup_agree (renamed : Renamed ρ a b) {path : String} (plain : '#' ∉ path.toList) :
    Variables.AgreeAt b.lookup a.lookup path :=
  renamed.lookup renamed.current fun _ member =>
    ρ.keeps _ fun hash => plain (ScopePath.subset_of_name_mem_segments member hash)

theorem interpolate (renamed : Renamed ρ a b) {template : String}
    (plain : ∀ path ∈ Template.paths template, '#' ∉ path.toList) :
    (Template.interpolate b.lookup template).toOption =
      (Template.interpolate a.lookup template).toOption :=
  Template.interpolate_agree fun path member => renamed.lookup_agree (plain path member)

theorem holdsIn (renamed : Renamed ρ a b) {e : Expression}
    (plain : ∀ path ∈ e.paths, '#' ∉ path.toList) :
    (e.holds b.lookup).toOption = (e.holds a.lookup).toOption :=
  e.holds_agree fun path member => renamed.lookup_agree (plain path member)

/-! What is left open. -/

theorem requireResolved (renamed : Renamed ρ a b) :
    b.requireResolved.toOption = a.requireResolved.toOption := by
  have same : b.unresolved = a.unresolved := by
    simp only [ScopeTree.unresolved, renamed.size, renamed.node, ScopeNode.rename,
      ScopeNode.isBound]
  simp only [ScopeTree.requireResolved, same]
  cases a.unresolved <;> rfl

end Renamed

end Archetype.ScopeTree
