import Archetype.Proofs.Scope.InputNames
import Archetype.Proofs.Scope.Retracing

/-!
The path of a scope as its address. Where every name is one that a path can hold, the path of a
scope, anchored at the root, is read back as the names that lead to it, and each of them is found
at the next scope on the way: what lies deeper never comes before a scope right below.
-/

namespace Archetype

/-! Texts that trimming leaves alone. -/

theorem Text.exists_of_trimmed {cs : List Char} (kept : trimmed cs = cs) (nonempty : cs ≠ []) :
    ∃ front last, cs = front ++ [last] ∧ isBlank last = false := by
  obtain ⟨back, isBack⟩ : ∃ back, back = (cs.dropWhile isBlank).reverse.dropWhile isBlank :=
    ⟨_, rfl⟩
  have reversed : back.reverse = cs := by rw [isBack]; exact kept
  cases back with
  | nil => exact absurd reversed.symm nonempty
  | cons last front =>
      refine ⟨front.reverse, last, by rw [← reversed, List.reverse_cons], ?_⟩
      have first := List.head?_dropWhile_not isBlank (cs.dropWhile isBlank).reverse
      rw [← isBack] at first
      simpa using first

theorem Text.trimmed_of_ends {first last : Char} (cs : List Char) (opens : isBlank first = false)
    (closes : isBlank last = false) : trimmed (first :: cs ++ [last]) = first :: cs ++ [last] := by
  simp [trimmed, opens, closes]

namespace ScopePath

/-- A name that a path holds as it is: not empty, without points, and without blanks at its ends. -/
def Plain (name : String) : Prop :=
  name ≠ "" ∧ '.' ∉ name.toList ∧ Text.trim name = name

instance (name : String) : Decidable (Plain name) :=
  inferInstanceAs (Decidable (_ ∧ _ ∧ _))

theorem Plain.trimmed {name : String} (plain : Plain name) :
    Text.trimmed name.toList = name.toList := by
  rw [← Text.toList_trim, plain.2.2]

theorem Plain.toList_ne_nil {name : String} (plain : Plain name) : name.toList ≠ [] := fun none =>
  plain.1 (String.toList_eq_nil_iff.1 none)

/-! Reading a path of such names. -/

theorem named_plain {name : String} (plain : Plain name) :
    named name.toList = [.name name] := by
  unfold named
  rw [plain.trimmed]
  split
  · next none => exact absurd none plain.toList_ne_nil
  · rw [String.ofList_toList]

/-- The characters up to a point, or up to the end, are read as one name. -/
theorem relative_append {cs rest : List Char} (nonempty : cs ≠ []) (pointless : '.' ∉ cs)
    (ends : ∀ c ∈ rest.head?, c = '.') :
    relative (cs ++ rest) = named cs ++ relative (rest.drop 1) := by
  cases cs with
  | nil => exact absurd rfl nonempty
  | cons first cs =>
      have other : first ≠ '.' := fun same => pointless (same ▸ List.mem_cons_self)
      have others : ∀ c ∈ cs, decide (c ≠ '.') = true := fun c member =>
        decide_eq_true fun same => pointless (same ▸ List.mem_cons_of_mem _ member)
      have taken : (cs ++ rest).takeWhile (· ≠ '.') = cs := by
        rw [List.takeWhile_append_of_pos others]
        cases rest with
        | nil => exact List.append_nil cs
        | cons c rest => simp [ends c rfl]
      have left : (cs ++ rest).dropWhile (· ≠ '.') = rest := by
        rw [List.dropWhile_append_of_pos others]
        cases rest with
        | nil => rfl
        | cons c rest => simp [ends c rfl]
      rw [List.cons_append, relative, taken, left]
      · exact fun _ same _ => other same
      · exact other

theorem relative_intercalate {names : List String} (plain : ∀ name ∈ names, Plain name) :
    relative (".".intercalate names).toList = names.map .name := by
  induction names with
  | nil => rw [String.intercalate_nil, String.toList_empty, relative, List.map_nil]
  | cons name more ih =>
      obtain ⟨here, rest⟩ := List.forall_mem_cons.1 plain
      cases more with
      | nil =>
          have whole : relative (name.toList ++ []) = named name.toList ++ relative [] :=
            relative_append here.toList_ne_nil here.2.1 (by simp)
          rw [List.append_nil, named_plain here, relative] at whole
          rw [String.intercalate_singleton, whole]
          rfl
      | cons next more =>
          have whole : relative (name.toList ++ '.' :: (".".intercalate (next :: more)).toList) =
              named name.toList ++ relative (".".intercalate (next :: more)).toList :=
            relative_append here.toList_ne_nil here.2.1 (by simp)
          rw [named_plain here, ih rest] at whole
          rw [String.intercalate_cons_cons, String.toList_append, String.toList_append,
            List.append_assoc]
          exact whole

theorem exists_last {names : List String} (nonempty : names ≠ [])
    (plain : ∀ name ∈ names, Plain name) :
    ∃ front last, (".".intercalate names).toList = front ++ [last] ∧
      Text.isBlank last = false := by
  induction names with
  | nil => exact absurd rfl nonempty
  | cons name more ih =>
      obtain ⟨here, rest⟩ := List.forall_mem_cons.1 plain
      cases more with
      | nil =>
          rw [String.intercalate_singleton]
          exact Text.exists_of_trimmed here.trimmed here.toList_ne_nil
      | cons next more =>
          obtain ⟨front, last, ends, closes⟩ := ih (List.cons_ne_nil _ _) rest
          refine ⟨name.toList ++ ".".toList ++ front, last, ?_, closes⟩
          rw [String.intercalate_cons_cons, String.toList_append, String.toList_append, ends,
            List.append_assoc _ front]

/-- A path from the root is read as the names in it. -/
theorem segments_intercalate {names : List String} (plain : ∀ name ∈ names, Plain name) :
    segments ("~." ++ ".".intercalate names) = .root :: names.map .name := by
  have kept : Text.trimmed ("~." ++ ".".intercalate names).toList =
      '~' :: '.' :: (".".intercalate names).toList := by
    rw [String.toList_append]
    by_cases none : names = []
    · subst none
      decide +kernel
    · obtain ⟨front, last, ends, closes⟩ := exists_last none plain
      rw [ends]
      exact Text.trimmed_of_ends ('.' :: front) (by decide) closes
  unfold segments
  rw [kept]
  exact congrArg _ (relative_intercalate plain)

end ScopePath

namespace ScopeTree

variable {tree : ScopeTree} {id : ScopeId}

theorem route_root (wf : tree.WellFormed) : tree.route root = [] := by
  have ancestry : tree.ancestry root = [root] := by
    rw [ScopeTree.ancestry]
    simp only [wf.root_parent]
  simp [route, namesTo, ancestry]

theorem exists_of_mem_route (inside : id < tree.size) {name : String}
    (member : name ∈ tree.route id) :
    ∃ around < tree.size, around ≠ root ∧ (tree.node around).name = name := by
  obtain ⟨around, kept, named⟩ := List.mem_map.1 member
  obtain ⟨inAncestry, inner⟩ := List.mem_filter.1 kept
  have below := le_of_mem_ancestry (List.mem_reverse.1 inAncestry)
  exact ⟨around, Nat.lt_of_le_of_lt below inside, of_decide_eq_true inner, named⟩

/-- The names that lead to a scope are followed to it from the root: each scope on the way is found
right below the one before, whatever else has its name. -/
theorem follow?_route (wf : tree.WellFormed) (inside : id < tree.size) :
    tree.follow? true root ((tree.route id).map .name) = some id := by
  induction id using Nat.strongRecOn with
  | ind id ih =>
      by_cases isRoot : id = root
      · rw [isRoot, route_root wf]
        rfl
      · obtain ⟨around, below, link⟩ := wf.parent id inside isRoot
        have child : tree.child? around (tree.node id).name = some id :=
          (wf.indexed _ _ _).2 ⟨(wf.children _ _).2 ⟨inside, link⟩, rfl⟩
        rw [route_of_parent link below, List.map_append, follow?_append,
          ih around below (Nat.lt_trans below inside), Option.bind_some, List.map_singleton,
          follow?_name, Bool.true_or, search_of_child? wf true child]
        rfl

theorem resolveFrom?_path (wf : tree.WellFormed)
    (plain : ∀ id < tree.size, id ≠ root → ScopePath.Plain (tree.node id).name)
    (inside : id < tree.size) (start : ScopeId) :
    tree.resolveFrom? start ("~." ++ tree.path id) = some id := by
  have names : ∀ name ∈ tree.route id, ScopePath.Plain name := by
    intro name member
    obtain ⟨around, bounded, inner, rfl⟩ := exists_of_mem_route inside member
    exact plain around bounded inner
  have read : ScopePath.segments ("~." ++ tree.path id) = .root :: (tree.route id).map .name :=
    ScopePath.segments_intercalate names
  rw [resolveFrom?, read]
  exact follow?_route wf inside

/-- In every tree that operations lead to and in which all names are ones that a path can hold, the
full path of a scope leads to it from wherever it is followed, and so no two scopes have the same
path. -/
theorem full_path_resolves (operations : List Operation) :
    let tree := run {} operations
    (∀ id < tree.size, id ≠ root → ScopePath.Plain (tree.node id).name) →
      (∀ id < tree.size, tree.resolve? ("~." ++ tree.path id) = some id ∧
        ∀ start, tree.resolveFrom? start ("~." ++ tree.path id) = some id) ∧
      ∀ id < tree.size, ∀ other < tree.size, tree.path id = tree.path other → id = other := by
  intro tree plain
  have wf : tree.WellFormed := (run_sound .init operations).1
  have resolves : ∀ id < tree.size, ∀ start,
      tree.resolveFrom? start ("~." ++ tree.path id) = some id := fun id inside =>
    resolveFrom?_path wf plain inside
  refine ⟨fun id inside => ⟨resolves id inside _, resolves id inside⟩, ?_⟩
  intro id inside other inside' same
  have leads := resolves id inside root
  rw [same, resolves other inside' root] at leads
  exact (Option.some.inj leads).symm

def nestedSteps : List Operation :=
  [.push "a" .step, .push "s" .step, .push "a" .step, .declare "b", .leaveTo 1, .declare "b"]

theorem full_paths_of_nested_steps :
    (∀ id < (run {} nestedSteps).size, id ≠ root →
      ScopePath.Plain ((run {} nestedSteps).node id).name) ∧
    ((run {} nestedSteps).path 4 = "a.s.a.b" ∧
      (run {} nestedSteps).resolve? ("~." ++ (run {} nestedSteps).path 4) = some 4) ∧
    (run {} nestedSteps).path 5 = "a.b" ∧
      (run {} nestedSteps).resolve? ("~." ++ (run {} nestedSteps).path 5) = some 5 := by
  have plain : ∀ id < (run {} nestedSteps).size, id ≠ root →
      ScopePath.Plain ((run {} nestedSteps).node id).name := by decide +kernel
  have resolves := (full_path_resolves nestedSteps plain).1
  exact ⟨plain, ⟨by decide +kernel, (resolves 4 (by decide +kernel)).1⟩, by decide +kernel,
    (resolves 5 (by decide +kernel)).1⟩

end ScopeTree

end Archetype
