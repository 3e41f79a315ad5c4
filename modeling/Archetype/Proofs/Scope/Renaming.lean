import Archetype.Proofs.Scope.Growth
import Mathlib.Logic.Function.Basic

/-!
Renaming scopes. Two trees that differ by a renaming of scopes are looked up alike through every
name that the renaming keeps, and every operation carries the renaming on.
-/

namespace Archetype

/-- An injective change of scope names that keeps every name without a number sign. -/
structure Renaming where
  apply : String → String
  injective : Function.Injective apply
  keeps : ∀ name, '#' ∉ name.toList → apply name = name

namespace Renaming

def refl : Renaming := ⟨id, Function.injective_id, fun _ _ => rfl⟩

variable (ρ : Renaming)

theorem apply_eq_iff {name kept : String} (keep : ρ.apply kept = kept) :
    ρ.apply name = kept ↔ name = kept :=
  ⟨fun eq => ρ.injective (eq.trans keep.symm), fun eq => eq ▸ keep⟩

theorem marked_apply_iff (name : String) : '#' ∈ (ρ.apply name).toList ↔ '#' ∈ name.toList := by
  by_cases plain : '#' ∉ name.toList
  · rw [ρ.keeps name plain]
  · refine ⟨fun _ => not_not.1 plain, fun marked => ?_⟩
    by_contra unmarked
    have same : ρ.apply name = name := ρ.injective (ρ.keeps _ unmarked)
    rw [same] at unmarked
    exact unmarked marked

end Renaming

def ScopeNode.rename (ρ : Renaming) (node : ScopeNode) : ScopeNode :=
  { node with
    name := ρ.apply node.name
    index := node.index.map fun entry => (ρ.apply entry.1, entry.2) }

theorem ScopeNode.rename_refl (node : ScopeNode) : node.rename .refl = node := by
  have same : node.index.map (fun entry => (Renaming.refl.apply entry.1, entry.2)) = node.index :=
    List.map_id node.index
  rw [rename, same]
  rfl

theorem ScopeNode.rename_empty (ρ : Renaming) : ({} : ScopeNode).rename ρ = {} := by
  rw [rename, ρ.keeps "" (by simp)]
  rfl

theorem Renaming.lookup_map (ρ : Renaming) (entries : List (String × α)) (name : String) :
    (entries.map fun entry => (ρ.apply entry.1, entry.2)).lookup (ρ.apply name) =
      entries.lookup name := by
  induction entries with
  | nil => rfl
  | cons entry rest ih =>
      obtain ⟨key, value⟩ := entry
      have same : (ρ.apply name == ρ.apply key) = (name == key) := by
        rw [Bool.eq_iff_iff, beq_iff_eq, beq_iff_eq, ρ.injective.eq_iff]
      simp only [List.map_cons, List.lookup_cons, same, ih]

namespace ScopeTree

structure Alike (ρ : Renaming) (a b : ScopeTree) : Prop where
  size : b.size = a.size
  node : ∀ id, b.node id = (a.node id).rename ρ

variable {ρ : Renaming} {a b : ScopeTree}

theorem Alike.of_nodes {tree other : ScopeTree} (same : other.nodes = tree.nodes) :
    Alike .refl tree other where
  size := congrArg Array.size same
  node id := by
    rw [ScopeNode.rename_refl]
    exact congrArg (·.getD id {}) same

namespace Alike

theorem name (alike : Alike ρ a b) (id : ScopeId) :
    (b.node id).name = ρ.apply (a.node id).name := by
  rw [alike.node]
  rfl

theorem parent (alike : Alike ρ a b) (id : ScopeId) :
    (b.node id).parent = (a.node id).parent := by
  rw [alike.node]
  rfl

theorem children (alike : Alike ρ a b) (id : ScopeId) :
    (b.node id).children = (a.node id).children := by
  rw [alike.node]
  rfl

theorem frame (alike : Alike ρ a b) (id : ScopeId) : (b.node id).frame = (a.node id).frame := by
  rw [alike.node]
  rfl

theorem value? (alike : Alike ρ a b) (id : ScopeId) :
    (b.node id).value? = (a.node id).value? := by
  rw [alike.node]
  rfl

theorem hasPreset (alike : Alike ρ a b) (id : ScopeId) :
    (b.node id).hasPreset = (a.node id).hasPreset := by
  rw [alike.node]
  rfl

theorem visited (alike : Alike ρ a b) (id : ScopeId) :
    (b.node id).visited = (a.node id).visited := by
  rw [alike.node]
  rfl

theorem skipped (alike : Alike ρ a b) (id : ScopeId) :
    (b.node id).skipped = (a.node id).skipped := by
  rw [alike.node]
  rfl

/-! Looking up. -/

theorem ancestry (alike : Alike ρ a b) (id : ScopeId) : b.ancestry id = a.ancestry id :=
  ancestry_congr fun around _ => alike.parent around

theorem namesTo (alike : Alike ρ a b) {keep keep' : ScopeId → Bool}
    (same : ∀ id, keep' id = keep id) (id : ScopeId) :
    b.namesTo keep' id = (a.namesTo keep id).map ρ.apply := by
  have keeps : keep' = keep := funext same
  simp only [ScopeTree.namesTo, alike.ancestry, keeps, List.map_map]
  exact List.map_congr_left fun around _ => alike.name around

theorem child? (alike : Alike ρ a b) {name : String} (around : ScopeId) :
    b.child? around (ρ.apply name) = a.child? around name := by
  rw [ScopeTree.child?, alike.node]
  exact ρ.lookup_map _ name

theorem searchLevels (alike : Alike ρ a b) {accept accept' : ScopeId → Bool}
    (same : ∀ id, accept' id = accept id) (n : Nat) (level : List ScopeId) :
    b.searchLevels accept' n level = a.searchLevels accept n level := by
  obtain rfl : accept' = accept := funext same
  induction n generalizing level with
  | zero => rfl
  | succ n ih =>
      cases level with
      | nil => rfl
      | cons first rest =>
          simp only [ScopeTree.searchLevels, alike.children, alike.frame, ih]

theorem findBelow? (alike : Alike ρ a b) {accept accept' : ScopeId → Bool}
    (same : ∀ id, accept' id = accept id) {name : String} (keep : ρ.apply name = name)
    (start : ScopeId) : b.findBelow? accept' start name = a.findBelow? accept start name := by
  simp only [ScopeTree.findBelow?, alike.size]
  apply alike.searchLevels
  intro id
  simp only [alike.name, ρ.apply_eq_iff keep, same]

theorem findUpward? (alike : Alike ρ a b) {accept accept' : ScopeId → Bool}
    (same : ∀ id, accept' id = accept id) {name : String} (keep : ρ.apply name = name)
    (start : ScopeId) : b.findUpward? accept' start name = a.findUpward? accept start name := by
  simp only [ScopeTree.findUpward?, alike.ancestry, alike.findBelow? same keep]

theorem follow? (alike : Alike ρ a b) {segments : List ScopePath.Segment}
    (keep : ∀ name, .name name ∈ segments → ρ.apply name = name) (anchored : Bool)
    (here : ScopeId) : b.follow? anchored here segments = a.follow? anchored here segments := by
  induction segments generalizing anchored here with
  | nil => rfl
  | cons segment rest ih =>
      have later := fun name member => keep name (List.mem_cons_of_mem _ member)
      cases segment with
      | root => exact ih later true root
      | parent => simp only [ScopeTree.follow?, alike.parent, ih later]
      | name name =>
          have first := keep name (List.mem_cons_self ..)
          simp only [ScopeTree.follow?, alike.findBelow? (fun _ => rfl) first,
            alike.findUpward? (fun _ => rfl) first, ih later]

theorem resolve? (alike : Alike ρ a b) (current : b.current = a.current) {path : String}
    (keep : ∀ name, .name name ∈ ScopePath.segments path → ρ.apply name = name) :
    b.resolve? path = a.resolve? path := by
  simp only [ScopeTree.resolve?, ScopeTree.resolveFrom?, current, alike.follow? keep]

/-- A path that the renaming keeps stands for the same value; if it stands for nothing, the scope
in question may go by another name. -/
theorem lookup (alike : Alike ρ a b) (current : b.current = a.current) {path : String}
    (keep : ∀ name, .name name ∈ ScopePath.segments path → ρ.apply name = name) :
    (b.lookup path).toOption = (a.lookup path).toOption := by
  simp only [ScopeTree.lookup, alike.resolve? current keep]
  cases a.resolve? path with
  | none => rfl
  | some id =>
      simp only [alike.value?, alike.skipped]
      cases (a.node id).value? with
      | some v => rfl
      | none => cases (a.node id).skipped <;> rfl

theorem findPreset? (alike : Alike ρ a b) {name : String} (keep : ρ.apply name = name)
    (input : ScopeId) : b.findPreset? input name = a.findPreset? input name := by
  simp only [ScopeTree.findPreset?, alike.parent]
  congr 1
  funext around
  exact alike.findUpward? (fun id => by rw [alike.hasPreset]) keep around

end Alike

end ScopeTree

end Archetype
