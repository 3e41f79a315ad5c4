import Archetype.Proofs.Scope.Search
import Mathlib.Data.List.Induction

/-!
Paths that are followed again. Once a path was followed and what was missing created, it leads to
the same scope and nothing more is created, unless a scope created on the way lies nearer than one
that a name of the path was found at. A look-up goes along, except above the root.
-/

namespace Archetype

namespace ScopePath

def Segment.name? : Segment → Option String
  | .name s => some s
  | _ => none

def names (path : String) : List String := (segments path).filterMap Segment.name?

end ScopePath

namespace ScopeTree

open ScopePath (Segment)

variable {tree : ScopeTree}

/-! Paths in two parts. -/

theorem reach_append (front rest : List Segment) (anchored : Bool) (here : ScopeId) :
    tree.reach anchored here (front ++ rest) =
      (tree.reach anchored here front).2.reach (anchored || !front.isEmpty)
        (tree.reach anchored here front).1 rest := by
  induction front generalizing tree anchored here with
  | nil => simp [reach]
  | cons segment front ih =>
      have anchors : (anchored || !(segment :: front).isEmpty) = (true || !front.isEmpty) := by simp
      rw [anchors, List.cons_append]
      cases segment with
      | root => exact ih true root
      | parent => exact ih true _
      | name name =>
          rw [reach_name, reach_name]
          cases tree.search anchored here name with
          | some id => exact ih true id
          | none => exact ih true _

theorem follow?_append (front rest : List Segment) (anchored : Bool) (here : ScopeId) :
    tree.follow? anchored here (front ++ rest) =
      (tree.follow? anchored here front).bind fun id =>
        tree.follow? (anchored || !front.isEmpty) id rest := by
  induction front generalizing anchored here with
  | nil => simp [follow?]
  | cons segment front ih =>
      have anchors : (anchored || !(segment :: front).isEmpty) = (true || !front.isEmpty) := by simp
      rw [anchors, List.cons_append]
      cases segment with
      | root => exact ih true root
      | parent =>
          simp only [follow?, Option.bind_assoc]
          exact congrArg _ (funext (ih true))
      | name name =>
          simp only [follow?_name, Option.bind_assoc]
          exact congrArg _ (funext (ih true))

/-- What a look-up finds is where the path leads, and nothing is created. -/
theorem reach_of_follow? {segments : List Segment} {anchored : Bool} {here id : ScopeId}
    (follows : tree.follow? anchored here segments = some id) :
    tree.reach anchored here segments = (id, tree) := by
  induction segments generalizing anchored here with
  | nil =>
      cases follows
      rfl
  | cons segment rest ih =>
      cases segment with
      | root => exact ih follows
      | parent =>
          obtain ⟨around, link, follows⟩ := Option.bind_eq_some_iff.1 follows
          simpa only [reach, link, Option.getD_some] using ih follows
      | name name =>
          rw [follow?_name] at follows
          obtain ⟨next, found, follows⟩ := Option.bind_eq_some_iff.1 follows
          rw [reach_name, found]
          exact ih follows

theorem frames_reach (segments : List Segment) (anchored : Bool) (here : ScopeId) :
    (tree.reach anchored here segments).2.frames = tree.frames := by
  induction segments generalizing tree anchored here with
  | nil => rfl
  | cons segment rest ih =>
      cases segment with
      | root => exact ih true root
      | parent => exact ih true _
      | name name =>
          rw [reach_name]
          cases tree.search anchored here name with
          | some id => exact ih true id
          | none => exact (ih true _).trans (frames_ensureChild here name .value)

/-! One segment in a later tree. -/

theorem reach_one_name (anchored : Bool) (here : ScopeId) (name : String) :
    tree.reach anchored here [.name name] =
      match tree.search anchored here name with
      | some id => (id, tree)
      | none => tree.ensureChild here name .value := rfl

variable {later : ScopeTree} {anchored : Bool} {here id : ScopeId} {segment : Segment}

/-- A segment leads to the same scope again if its name is still found where it was found. -/
theorem reach_again (wf : tree.WellFormed) (wf' : later.WellFormed) (inside : here < tree.size)
    (old : tree.Grows later) (grows : (tree.reach anchored here [segment]).2.Grows later)
    (kept : ∀ name id, segment = .name name → tree.search anchored here name = some id →
      later.search anchored here name = some id) :
    later.reach anchored here [segment] = ((tree.reach anchored here [segment]).1, later) := by
  cases segment with
  | root => rfl
  | parent => simp only [reach, (old.node here inside).parent]
  | name name =>
      rw [reach_one_name] at grows ⊢
      rw [reach_one_name]
      cases found : tree.search anchored here name with
      | some id => simp only [kept name id rfl found]
      | none =>
          rw [found] at grows
          have created := grows.child? (wf.ensureChild inside name .value)
            (child?_ensureChild wf inside name .value)
          simp only [search_of_child? wf' anchored created]

theorem search_of_reach (wf : tree.WellFormed) {name : String}
    (again : tree.reach anchored here [.name name] = (id, tree)) :
    tree.search anchored here name = some id := by
  rw [reach_one_name] at again
  cases found : tree.search anchored here name with
  | some other =>
      rw [found] at again
      exact congrArg some (congrArg Prod.fst again)
  | none =>
      simp only [found, ensureChild_eq, child?_eq_none_of_search wf found] at again
      have size := congrArg (fun pair => pair.2.size) again
      simp at size

theorem follow?_again (wf : tree.WellFormed) (inside : here < tree.size)
    (again : tree.reach anchored here [segment] = (id, tree))
    (below : segment = .parent → here ≠ root) :
    tree.follow? anchored here [segment] = some id := by
  cases segment with
  | root => exact congrArg some (congrArg Prod.fst again)
  | parent =>
      obtain ⟨around, -, link⟩ := wf.parent here inside (below rfl)
      have same := congrArg Prod.fst again
      simp only [reach, link, Option.getD_some] at same
      simp only [follow?, link, Option.bind_some, same]
  | name name =>
      rw [follow?_name, search_of_reach wf again]
      rfl

/-! A whole path. -/

/-- Where a part of a path leads from the current scope, and the tree that it leaves behind. -/
def after (tree : ScopeTree) (front : List Segment) : ScopeId × ScopeTree :=
  tree.reach false tree.current front

/-- Each name of the path that was found at a scope is found there once the path was followed: no
scope that was created on the way lies nearer. -/
def Unshadowed (tree : ScopeTree) (path : String) : Prop :=
  ∀ front name rest id, ScopePath.segments path = front ++ .name name :: rest →
    (tree.after front).2.search (!front.isEmpty) (tree.after front).1 name = some id →
      (tree.scope path).2.search (!front.isEmpty) (tree.after front).1 name = some id

def Overshoots (tree : ScopeTree) (path : String) : Prop :=
  ∃ front rest, ScopePath.segments path = front ++ .parent :: rest ∧ (tree.after front).1 = root

/-- Once the path was followed, each part of it leads to the same scope again and creates
nothing. -/
def Retraced (tree : ScopeTree) (path : String) : Prop :=
  ∀ front, front <+: ScopePath.segments path →
    (tree.scope path).2.after front = ((tree.after front).1, (tree.scope path).2)

theorem after_append (front rest : List Segment) :
    tree.after (front ++ rest) =
      (tree.after front).2.reach (!front.isEmpty) (tree.after front).1 rest := by
  unfold after
  rw [reach_append, Bool.false_or]

theorem Retraced.one {path : String} (retraced : tree.Retraced path)
    {front rest : List Segment} {segment : Segment}
    (whole : ScopePath.segments path = front ++ segment :: rest) :
    (tree.scope path).2.reach (!front.isEmpty) (tree.after front).1 [segment] =
      ((tree.after (front ++ [segment])).1, (tree.scope path).2) := by
  have longer := retraced (front ++ [segment]) ⟨rest, by simp [whole]⟩
  rwa [after_append, retraced front ⟨segment :: rest, whole.symm⟩] at longer

section

variable (wf : tree.WellFormed) {path : String}
include wf

theorem after_sound (front : List Segment) :
    (tree.after front).2.WellFormed ∧ tree.Grows (tree.after front).2 ∧
      (tree.after front).1 < (tree.after front).2.size :=
  reach_sound wf front false wf.current_lt

theorem grows_after {front : List Segment} (part : front <+: ScopePath.segments path) :
    (tree.after front).2.Grows (tree.scope path).2 := by
  obtain ⟨rest, whole⟩ := part
  have sound := after_sound wf front
  have further := (reach_sound sound.1 rest (!front.isEmpty) sound.2.2).2.1
  rw [← after_append, whole] at further
  exact further

theorem retraced_of_unshadowed (unshadowed : tree.Unshadowed path) : tree.Retraced path := by
  have wf' := (after_sound wf (ScopePath.segments path)).1
  intro front part
  -- By induction from the end of the part: its last segment goes on from where the others lead.
  induction front using List.reverseRecOn with
  | nil =>
      have current : (tree.scope path).2.current = tree.current := by
        unfold ScopeTree.current
        rw [scope, frames_reach]
      simp only [after, reach, current]
  | append_singleton front segment ih =>
      have shorter : front <+: ScopePath.segments path := (List.prefix_append _ _).trans part
      have sound := after_sound wf front
      have grows := grows_after wf part
      rw [after_append] at grows
      rw [after_append, ih shorter, after_append]
      refine reach_again sound.1 wf' sound.2.2 (grows_after wf shorter) grows ?_
      rintro name id rfl found
      obtain ⟨rest, whole⟩ := part
      rw [List.append_assoc, List.singleton_append] at whole
      exact unshadowed front name rest id whole.symm found

theorem unshadowed_of_retraced (retraced : tree.Retraced path) : tree.Unshadowed path := by
  intro front name rest id whole found
  have led : (tree.after (front ++ [.name name])).1 = id := by
    rw [after_append, reach_one_name, found]
  have again := retraced.one whole
  rw [led] at again
  exact search_of_reach (after_sound wf (ScopePath.segments path)).1 again

/-- Where nothing is shadowed, a look-up leads where the path leads as long as it stays below the
root. -/
theorem follow?_after (retraced : tree.Retraced path) (stays : ¬tree.Overshoots path)
    {front : List Segment} (part : front <+: ScopePath.segments path) :
    (tree.scope path).2.follow? false (tree.scope path).2.current front =
      some (tree.after front).1 := by
  induction front using List.reverseRecOn with
  | nil =>
      have start := congrArg Prod.fst (retraced [] (List.nil_prefix))
      exact congrArg some start
  | append_singleton front segment ih =>
      have shorter : front <+: ScopePath.segments path := (List.prefix_append _ _).trans part
      obtain ⟨rest, whole⟩ := part
      rw [List.append_assoc, List.singleton_append] at whole
      rw [follow?_append, ih shorter, Option.bind_some, Bool.false_or]
      have inside := Nat.lt_of_lt_of_le (after_sound wf front).2.2 (grows_after wf shorter).size
      refine follow?_again (after_sound wf (ScopePath.segments path)).1 inside
        (retraced.one whole.symm) ?_
      rintro rfl top
      exact stays ⟨front, rest, whole.symm, top⟩

theorem resolve?_of_overshoots (retraced : tree.Retraced path) (overshoots : tree.Overshoots path) :
    (tree.scope path).2.resolve? path = none := by
  obtain ⟨front, rest, whole, top⟩ := overshoots
  unfold resolve? resolveFrom?
  rw [whole, follow?_append]
  cases follows : (tree.scope path).2.follow? false (tree.scope path).2.current front with
  | none => rfl
  | some id =>
      have same := retraced front ⟨.parent :: rest, whole.symm⟩
      obtain rfl : id = root := by
        rw [after, reach_of_follow? follows] at same
        exact (congrArg Prod.fst same).trans top
      have above : ((tree.scope path).2.node root).parent = none :=
        (after_sound wf (ScopePath.segments path)).1.root_parent
      rw [Option.bind_some, follow?, above]
      rfl

/-- Under distinct names nothing is shadowed: what is created has the name of a later segment. -/
theorem unshadowed_of_nodup (distinct : (ScopePath.names path).Nodup) : tree.Unshadowed path := by
  intro front name rest id whole found
  have sound := after_sound wf front
  -- From where the name was found on, only scopes with names of the rest of the path are added.
  have adds := adds_reach sound.1 rest true (search_lt sound.1 found)
  have led : (tree.scope path).2 = ((tree.after front).2.reach true id rest).2 := by
    rw [show tree.scope path = tree.after (ScopePath.segments path) from rfl, whole, after_append,
      reach_name, found]
  have later : ¬Segment.name name ∈ rest := by
    intro again
    have named : (Segment.name name).name? = some name := rfl
    rw [ScopePath.names, whole, List.filterMap_append, List.filterMap_cons_some named] at distinct
    have fresh := (List.nodup_cons.1 (List.nodup_append.1 distinct).2.1).1
    exact fresh (List.mem_filterMap.2 ⟨_, again, rfl⟩)
  rw [← led] at adds
  rw [adds.search sound.1 (after_sound wf (ScopePath.segments path)).1 later _ sound.2.2, found]

end

/-- Whatever was done to a fresh tree, a path that is followed leads back to the same scope part by
part, and creates nothing, exactly if no scope that it created lies nearer than one that a name of
it was found at; under distinct names none does. Then a look-up leads to that scope too, unless the
path goes up from the root, where a path stays and a look-up finds nothing. -/
theorem scope_again (operations : List Operation) (path : String) :
    let tree := run {} operations
    (tree.Retraced path ↔ tree.Unshadowed path) ∧
    (tree.Unshadowed path →
      (tree.scope path).2.scope path = tree.scope path ∧
      (¬tree.Overshoots path →
        (tree.scope path).2.resolve? path = some (tree.scope path).1) ∧
      (tree.Overshoots path → (tree.scope path).2.resolve? path = none)) ∧
    ((ScopePath.names path).Nodup → tree.Unshadowed path) := by
  intro tree
  have wf : tree.WellFormed := (run_sound .init operations).1
  refine ⟨⟨unshadowed_of_retraced wf, retraced_of_unshadowed wf⟩, fun unshadowed => ?_,
    unshadowed_of_nodup wf⟩
  have retraced := retraced_of_unshadowed wf unshadowed
  have whole := List.prefix_refl (ScopePath.segments path)
  exact ⟨retraced _ whole, fun stays => follow?_after wf retraced stays whole,
    resolve?_of_overshoots wf retraced⟩

/-- A path of two names, in a frame. -/
theorem scope_again_of_two_names :
    let tree := run {} [.push "a" .step]
    (ScopePath.names "b.c").Nodup ∧ ¬tree.Overshoots "b.c" ∧
      (tree.scope "b.c").2.scope "b.c" = tree.scope "b.c" ∧
      (tree.scope "b.c").2.resolve? "b.c" = some (tree.scope "b.c").1 := by
  intro tree
  have distinct : (ScopePath.names "b.c").Nodup := by decide +kernel
  have stays : ¬tree.Overshoots "b.c" := by
    rintro ⟨front, rest, whole, -⟩
    have up : Segment.parent ∈ ScopePath.segments "b.c" := by simp [whole]
    revert up
    decide +kernel
  have again := scope_again [.push "a" .step] "b.c"
  have led := again.2.1 (again.2.2 distinct)
  exact ⟨distinct, stays, led.1, led.2.1 stays⟩

/-- Within a scope of that name, a path that repeats the name creates a nearer one; and a look-up
does not follow a path above the root. -/
theorem path_leads_elsewhere :
    let inside := run {} [.push "a" .step]
    (inside.scope "a.a").1 ≠ ((inside.scope "a.a").2.scope "a.a").1 ∧
    (inside.scope "a.a").2.size < ((inside.scope "a.a").2.scope "a.a").2.size ∧
    (inside.scope "a.a").2.resolve? "a.a" ≠ some (inside.scope "a.a").1 ∧
    (run {} []).scope ".." = (root, {}) ∧ (run {} []).resolve? ".." = none := by
  decide +kernel

end ScopeTree

end Archetype
