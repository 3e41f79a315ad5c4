import Archetype.Proofs.Scope.Operations
import Mathlib.Data.List.Shortlex

/-!
Which scope a name stands for. A search goes level by level below a scope, and then below each scope
around it. What it finds is given here by places alone: of the scopes around the start that have a
match below them it takes the nearest, and of the matches below that one the first by the length of
the way down and then by the places of the children on it.
-/

namespace Archetype.ScopeTree

variable {tree : ScopeTree} {accept : ScopeId → Bool} {name : String} {start id other : ScopeId}
  {places others : List Nat}

/-- A scope lies below another at such places among the children, and all scopes in between are
those of steps and invocations. -/
inductive Descends (tree : ScopeTree) (start : ScopeId) : List Nat → ScopeId → Prop
  | child {place : Nat} {id : ScopeId} (below : (tree.node start).children[place]? = some id) :
      Descends tree start [place] id
  | further {places : List Nat} {around : ScopeId} {place : Nat} {id : ScopeId}
      (outer : Descends tree start places around)
      (through : (tree.node around).frame = .step ∨ (tree.node around).frame = .invocation)
      (below : (tree.node around).children[place]? = some id) :
      Descends tree start (places ++ [place]) id

def above? (tree : ScopeTree) : Nat → ScopeId → Option ScopeId
  | 0, id => some id
  | n + 1, id => (tree.node id).parent.bind (tree.above? n)

structure Matches (tree : ScopeTree) (accept : ScopeId → Bool) (name : String) (start : ScopeId)
    (places : List Nat) (id : ScopeId) : Prop where
  descends : tree.Descends start places id
  named : (tree.node id).name = name
  accepted : accept id = true

/-- The match with the fewest scopes in between, and among those the one whose places come first in
lexicographic order. -/
structure Foremost (tree : ScopeTree) (accept : ScopeId → Bool) (name : String) (start : ScopeId)
    (places : List Nat) (id : ScopeId) : Prop where
  found : tree.Matches accept name start places id
  least : ∀ others other, tree.Matches accept name start others other →
    others = places ∨ List.Shortlex (· < ·) places others

/-- The foremost match below the nearest scope around the start, itself included, that has any. -/
def Nearest (tree : ScopeTree) (accept : ScopeId → Bool) (name : String)
    (start id : ScopeId) : Prop :=
  ∃ n around places, tree.above? n start = some around ∧
    (∀ m < n, ∀ inner, tree.above? m start = some inner →
      ∀ others other, ¬tree.Matches accept name inner others other) ∧
    tree.Foremost accept name around places id

/-! The way down. -/

theorem Descends.ne_nil (descends : tree.Descends start places id) : places ≠ [] := by
  cases descends <;> simp

theorem Descends.unique (descends : tree.Descends start places id)
    (again : tree.Descends start places other) : other = id := by
  induction descends generalizing other with
  | @child place id below =>
      generalize same : [place] = others at again
      cases again with
      | child below' =>
          cases same
          exact Option.some.inj (below'.symm.trans below)
      | further outer through below' =>
          exact absurd (congrArg List.length same) (by simp [outer.ne_nil])
  | @further places around place id outer through below ih =>
      generalize same : places ++ [place] = others at again
      cases again with
      | child below' => exact absurd (congrArg List.length same) (by simp [outer.ne_nil])
      | further outer' through' below' =>
          obtain ⟨rfl, ⟨⟩⟩ := List.append_inj' same rfl
          rw [ih outer'] at below'
          exact Option.some.inj (below'.symm.trans below)

/-- A scope that lies deeper has a larger number. -/
theorem Descends.add_length_le (wf : tree.WellFormed) (descends : tree.Descends start places id) :
    start + places.length ≤ id ∧ id < tree.size := by
  induction descends with
  | child below => exact wf.child_lt (List.mem_of_getElem? below)
  | further outer through below ih =>
      obtain ⟨deeper, inside⟩ := wf.child_lt (List.mem_of_getElem? below)
      rw [List.length_append, List.length_singleton, ← Nat.add_assoc]
      exact ⟨Nat.le_trans (Nat.succ_le_succ ih.1) deeper, inside⟩

/-- So no way down is as long as there are scopes, which is how many levels a search may take. -/
theorem Descends.length_lt (wf : tree.WellFormed) (descends : tree.Descends start places id) :
    places.length < tree.size :=
  have ⟨deeper, inside⟩ := descends.add_length_le wf
  Nat.lt_of_le_of_lt (Nat.le_trans (Nat.le_add_left _ _) deeper) inside

/-! The levels of a search, with the places of each scope. -/

def childrenOf (tree : ScopeTree) (level : List (List Nat × ScopeId)) :
    List (List Nat × ScopeId) :=
  level.flatMap fun outer =>
    (tree.node outer.2).children.zipIdx.map fun child => (outer.1 ++ [child.2], child.1)

def openAt (tree : ScopeTree) (start : ScopeId) : Nat → List (List Nat × ScopeId)
  | 0 => [([], start)]
  | depth + 1 => (tree.childrenOf (tree.openAt start depth)).filter fun outer =>
      (tree.node outer.2).frame.isTransparent

def levelAt (tree : ScopeTree) (start : ScopeId) (depth : Nat) : List (List Nat × ScopeId) :=
  tree.childrenOf (tree.openAt start depth)

theorem mem_childrenOf {level : List (List Nat × ScopeId)} :
    (places, id) ∈ tree.childrenOf level ↔ ∃ front around place, (front, around) ∈ level ∧
      (tree.node around).children[place]? = some id ∧ places = front ++ [place] := by
  simp only [childrenOf, List.mem_flatMap, List.mem_map, Prod.exists, Prod.mk.injEq,
    List.mem_zipIdx_iff_getElem?]
  constructor
  · rintro ⟨front, around, member, child, place, below, rfl, rfl⟩
    exact ⟨front, around, place, member, below, rfl⟩
  · rintro ⟨front, around, place, member, below, rfl⟩
    exact ⟨front, around, member, id, place, below, rfl, rfl⟩

theorem isTransparent_iff (frame : FrameKind) :
    frame.isTransparent = true ↔ frame = .step ∨ frame = .invocation := by
  cases frame <;> decide

theorem mem_levelAt {depth : Nat} : (places, id) ∈ tree.levelAt start depth ↔
    tree.Descends start places id ∧ places.length = depth + 1 := by
  constructor
  · intro member
    induction depth generalizing places id with
    | zero =>
        obtain ⟨front, around, place, outer, below, rfl⟩ := mem_childrenOf.1 member
        obtain ⟨rfl, rfl⟩ := Prod.mk.inj (List.mem_singleton.1 outer)
        exact ⟨.child below, rfl⟩
    | succ depth ih =>
        obtain ⟨front, around, place, outer, below, rfl⟩ := mem_childrenOf.1 member
        obtain ⟨inLevel, through⟩ := List.mem_filter.1 outer
        obtain ⟨descends, length⟩ := ih inLevel
        exact ⟨.further descends ((isTransparent_iff _).1 through) below, by simp [length]⟩
  · rintro ⟨descends, length⟩
    induction descends generalizing depth with
    | @child place id below =>
        cases Nat.succ.inj length
        exact mem_childrenOf.2 ⟨[], start, place, List.mem_singleton_self _, below, rfl⟩
    | @further places around place id outer through below ih =>
        rw [List.length_append, List.length_singleton] at length
        have deep : depth ≠ 0 := by
          rintro rfl
          exact outer.ne_nil (List.length_eq_zero_iff.1 (Nat.succ.inj length))
        obtain ⟨shallower, rfl⟩ := Nat.exists_eq_succ_of_ne_zero deep
        have opened : (places, around) ∈ tree.openAt start (shallower + 1) :=
          List.mem_filter.2 ⟨ih (Nat.succ.inj length), (isTransparent_iff _).2 through⟩
        exact mem_childrenOf.2 ⟨places, around, place, opened, below, rfl⟩

/-! Each level is in lexicographic order. -/

theorem lex_append {a b : List Nat} (lower : List.Lex (· < ·) a b) (same : a.length = b.length)
    (c d : List Nat) : List.Lex (· < ·) (a ++ c) (b ++ d) := by
  induction lower with
  | nil => cases same
  | rel first => exact .rel first
  | cons _ ih => exact .cons (ih (Nat.succ.inj same))

theorem ordered_childrenOf {level : List (List Nat × ScopeId)} {depth : Nat}
    (even : ∀ outer ∈ level, outer.1.length = depth)
    (ordered : level.Pairwise fun a b => List.Lex (· < ·) a.1 b.1) :
    (tree.childrenOf level).Pairwise fun a b => List.Lex (· < ·) a.1 b.1 := by
  rw [childrenOf, List.pairwise_flatMap]
  constructor
  · intro outer member
    have counted : (tree.node outer.2).children.zipIdx.Pairwise fun a b => a.2 < b.2 := by
      have indices : (List.range' 0 (tree.node outer.2).children.length).Pairwise (· < ·) :=
        List.pairwise_lt_range'
      rwa [← List.zipIdx_map_snd, List.pairwise_map] at indices
    rw [List.pairwise_map]
    refine counted.imp fun {a b} lower => ?_
    exact List.Lex.append_left _ (.rel lower) _
  · refine ordered.imp_of_mem fun {a b} inA inB lower => ?_
    simp only [List.mem_map]
    rintro _ ⟨x, -, rfl⟩ _ ⟨y, -, rfl⟩
    exact lex_append lower ((even a inA).trans (even b inB).symm) _ _

theorem ordered_levelAt (tree : ScopeTree) (start : ScopeId) (depth : Nat) :
    (tree.levelAt start depth).Pairwise fun a b => List.Lex (· < ·) a.1 b.1 := by
  induction depth with
  | zero =>
      have even : ∀ outer ∈ tree.openAt start 0, outer.1.length = 0 := fun outer member => by
        rw [List.mem_singleton.1 member, List.length_nil]
      exact ordered_childrenOf even (List.pairwise_singleton _ _)
  | succ depth ih =>
      have even : ∀ outer ∈ tree.openAt start (depth + 1), outer.1.length = depth + 1 :=
        fun ⟨places, id⟩ member => (mem_levelAt.1 (List.mem_filter.1 member).1).2
      exact ordered_childrenOf even (ih.filter _)

/-! The search below one scope. -/

theorem searchLevels_nil (levels : Nat) : tree.searchLevels accept levels [] = none := by
  cases levels <;> rfl

theorem searchLevels_succ (levels : Nat) (level : List ScopeId) :
    tree.searchLevels accept (levels + 1) level =
      ((level.flatMap fun id => (tree.node id).children).find? accept).or
        (tree.searchLevels accept levels ((level.flatMap fun id =>
          (tree.node id).children).filter fun id => (tree.node id).frame.isTransparent)) := by
  cases level with
  | nil => simp [searchLevels_nil]
  | cons first rest =>
      simp only [searchLevels]
      cases ((first :: rest).flatMap fun id => (tree.node id).children).find? accept <;> rfl

theorem map_snd_childrenOf (level : List (List Nat × ScopeId)) :
    (tree.childrenOf level).map (·.2) =
      (level.map (·.2)).flatMap fun id => (tree.node id).children := by
  rw [childrenOf, List.map_flatMap, List.flatMap_map]
  refine List.flatMap_congr fun outer _ => ?_
  rw [List.map_map]
  exact List.zipIdx_map_fst 0 _

/-- One round of the search tries the scopes of a level and goes on with those looked through. -/
theorem searchLevels_openAt (levels depth : Nat) :
    tree.searchLevels accept (levels + 1) ((tree.openAt start depth).map (·.2)) =
      (((tree.levelAt start depth).find? fun found => accept found.2).map (·.2)).or
        (tree.searchLevels accept levels ((tree.openAt start (depth + 1)).map (·.2))) := by
  rw [searchLevels_succ, ← map_snd_childrenOf, List.find?_map, List.filter_map]
  rfl

/-- The search ends at the first accepted scope of the first level that has any. -/
theorem searchLevels_eq_some (levels depth : Nat)
    (found : tree.searchLevels accept levels ((tree.openAt start depth).map (·.2)) = some id) :
    ∃ reached places, depth ≤ reached ∧
      (tree.levelAt start reached).find? (fun found => accept found.2) = some (places, id) ∧
      ∀ passed, depth ≤ passed → passed < reached →
        ∀ outer ∈ tree.levelAt start passed, ¬accept outer.2 = true := by
  induction levels generalizing depth with
  | zero => cases found
  | succ levels ih =>
      rw [searchLevels_openAt] at found
      cases first : (tree.levelAt start depth).find? fun found => accept found.2 with
      | some placed =>
          rw [first] at found
          cases found
          exact ⟨depth, placed.1, Nat.le_refl _, first, fun _ low high => by omega⟩
      | none =>
          rw [first] at found
          obtain ⟨reached, places, beyond, here, none⟩ := ih (depth + 1) found
          refine ⟨reached, places, Nat.le_of_succ_le beyond, here, fun passed low high => ?_⟩
          rcases Nat.eq_or_lt_of_le low with rfl | low
          · exact List.find?_eq_none.1 first
          · exact none passed low high

theorem searchLevels_eq_none (levels depth : Nat)
    (missing : tree.searchLevels accept levels ((tree.openAt start depth).map (·.2)) = none)
    {passed : Nat} (low : depth ≤ passed) (high : passed < depth + levels) :
    ∀ outer ∈ tree.levelAt start passed, ¬accept outer.2 = true := by
  induction levels generalizing depth with
  | zero => omega
  | succ levels ih =>
      rw [searchLevels_openAt, Option.or_eq_none_iff, Option.map_eq_none_iff] at missing
      rcases Nat.eq_or_lt_of_le low with rfl | low
      · exact List.find?_eq_none.1 missing.1
      · exact ih (depth + 1) missing.2 low (by omega)

theorem matches_iff {depth : Nat} (length : places.length = depth + 1) :
    tree.Matches accept name start places id ↔ (places, id) ∈ tree.levelAt start depth ∧
      ((tree.node id).name = name && accept id) = true := by
  rw [mem_levelAt, Bool.and_eq_true, decide_eq_true_eq]
  exact ⟨fun ⟨descends, named, accepted⟩ => ⟨⟨descends, length⟩, named, accepted⟩,
    fun ⟨⟨descends, _⟩, named, accepted⟩ => ⟨descends, named, accepted⟩⟩

theorem Matches.depth (found : tree.Matches accept name start places id) :
    ∃ depth, places.length = depth + 1 :=
  Nat.exists_eq_succ_of_ne_zero fun none =>
    found.descends.ne_nil (List.length_eq_zero_iff.1 none)

theorem foremost_of_findBelow? (found : tree.findBelow? accept start name = some id) :
    ∃ places, tree.Foremost accept name start places id := by
  obtain ⟨reached, places, -, here, none⟩ := searchLevels_eq_some tree.size 0 found
  obtain ⟨accepted, earlier, later, split, rejected⟩ := List.find?_eq_some_iff_append.1 here
  have member : (places, id) ∈ tree.levelAt start reached := List.mem_of_find?_eq_some here
  have length := (mem_levelAt.1 member).2
  refine ⟨places, (matches_iff length).2 ⟨member, accepted⟩, fun others other found => ?_⟩
  obtain ⟨depth, length'⟩ := found.depth
  obtain ⟨member', accepted'⟩ := (matches_iff length').1 found
  rw [List.shortlex_def]
  rcases Nat.lt_trichotomy depth reached with shallower | rfl | deeper
  · exact absurd accepted' (none depth (Nat.zero_le _) shallower _ member')
  · have ordered := ordered_levelAt tree start depth
    rw [split] at member' ordered
    rcases List.mem_append.1 member' with before | after
    · have refused := rejected _ before
      rw [accepted'] at refused
      cases refused
    · rcases List.mem_cons.1 after with same | after
      · exact .inl (congrArg Prod.fst same)
      · have lower := (List.pairwise_cons.1 (List.pairwise_append.1 ordered).2.1).1 _ after
        exact .inr (.inr ⟨length.trans length'.symm, lower⟩)
  · exact .inr (.inl (by omega))

theorem not_matches_of_findBelow? (wf : tree.WellFormed)
    (missing : tree.findBelow? accept start name = none) :
    ¬tree.Matches accept name start places id := by
  intro found
  obtain ⟨depth, length⟩ := found.depth
  obtain ⟨member, accepted⟩ := (matches_iff length).1 found
  have inside := found.descends.length_lt wf
  exact searchLevels_eq_none tree.size 0 missing (Nat.zero_le _) (by omega) _ member accepted

theorem Foremost.unique (first : tree.Foremost accept name start places id)
    (second : tree.Foremost accept name start others other) : id = other := by
  have same : others = places := by
    rcases first.least _ _ second.found with same | lower
    · exact same
    · rcases second.least _ _ first.found with same | higher
      · exact same.symm
      · exact absurd higher (asymm lower)
  subst same
  exact second.found.descends.unique first.found.descends

/-! The search outward. -/

theorem getElem?_ancestry (wf : tree.WellFormed) (n : Nat) :
    (tree.ancestry start)[n]? = tree.above? n start := by
  fun_induction ScopeTree.ancestry tree start generalizing n with
  | case1 id top => cases n <;> simp [above?, top]
  | case2 id around link lower ih =>
      cases n with
      | zero => rfl
      | succ n => rw [List.getElem?_cons_succ, ih, above?, link, Option.bind_some]
  | case3 id around link notLower => exact absurd (wf.parent_lt link).1 notLower

theorem nearest_of_findUpward? (wf : tree.WellFormed)
    (found : tree.findUpward? accept start name = some id) :
    tree.Nearest accept name start id := by
  obtain ⟨inner, around, outer, split, below, none⟩ := List.findSome?_eq_some_iff.1 found
  obtain ⟨places, foremost⟩ := foremost_of_findBelow? below
  have above : ∀ n, tree.above? n start = (inner ++ around :: outer)[n]? := fun n => by
    rw [← split, getElem?_ancestry wf]
  refine ⟨inner.length, around, places, by simp [above], fun m nearer a isAbove others other => ?_,
    foremost⟩
  rw [above, List.getElem?_append_left nearer] at isAbove
  exact not_matches_of_findBelow? wf (none a (List.mem_of_getElem? isAbove))

theorem Nearest.unique (first : tree.Nearest accept name start id)
    (second : tree.Nearest accept name start other) : id = other := by
  obtain ⟨n, around, places, above, none, foremost⟩ := first
  obtain ⟨m, around', places', above', none', foremost'⟩ := second
  rcases Nat.lt_trichotomy n m with nearer | rfl | further
  · exact absurd foremost.found (none' n nearer around above _ _)
  · obtain rfl := Option.some.inj (above.symm.trans above')
    exact foremost.unique foremost'
  · exact absurd foremost'.found (none m further around' above' _ _)

theorem findUpward?_isSome (wf : tree.WellFormed) :
    (tree.findUpward? accept start name).isSome ↔ ∃ n around places id,
      tree.above? n start = some around ∧ tree.Matches accept name around places id := by
  constructor
  · intro isSome
    obtain ⟨id, found⟩ := Option.isSome_iff_exists.1 isSome
    obtain ⟨n, around, places, above, -, foremost⟩ := nearest_of_findUpward? wf found
    exact ⟨n, around, places, id, above, foremost.found⟩
  · rintro ⟨n, around, places, id, above, found⟩
    rw [Option.isSome_iff_ne_none]
    intro missing
    have around_mem : around ∈ tree.ancestry start :=
      List.mem_of_getElem? ((getElem?_ancestry wf n).trans above)
    exact not_matches_of_findBelow? wf (List.findSome?_eq_none_iff.1 missing around around_mem)
      found

theorem findUpward?_eq_some_iff (wf : tree.WellFormed) :
    tree.findUpward? accept start name = some id ↔ tree.Nearest accept name start id := by
  refine ⟨nearest_of_findUpward? wf, fun nearest => ?_⟩
  have ⟨n, around, places, above, _, foremost⟩ := nearest
  obtain ⟨other, found⟩ := Option.isSome_iff_exists.1
    ((findUpward?_isSome wf).2 ⟨n, around, places, id, above, foremost.found⟩)
  rw [found, (nearest_of_findUpward? wf found).unique nearest]

/-! The lookups of a run. -/

theorem resolveFrom?_of_name {path : String} (single : ScopePath.segments path = [.name name]) :
    tree.resolveFrom? start path = tree.findUpward? any start name := by
  simp only [resolveFrom?, single, follow?, Bool.false_eq_true, if_false, Option.bind_fun_some]

/-- In every tree that operations lead to, the search for a name outward from a scope finds
something exactly if a scope around it, or the scope itself, has a match that only steps and
invocations lie in between; what it finds is the foremost match below the nearest such scope. A
path of one name is looked up so, and so is a preset, from around the input that asks for it. -/
theorem lookup_finds_nearest (operations : List Operation) :
    let tree := run {} operations
    (∀ accept start name,
      ((tree.findUpward? accept start name).isSome ↔ ∃ n around places id,
        tree.above? n start = some around ∧ tree.Matches accept name around places id) ∧
      ∀ id, tree.findUpward? accept start name = some id ↔ tree.Nearest accept name start id) ∧
    (∀ path name, ScopePath.segments path = [.name name] → ∀ id,
      tree.resolve? path = some id ↔ tree.Nearest any name tree.current id) ∧
    ∀ input name id, tree.findPreset? input name = some id ↔
      ∃ around, (tree.node input).parent = some around ∧
        tree.Nearest (fun other => other ≠ input && (tree.node other).hasPreset) name around
          id := by
  intro tree
  have wf : tree.WellFormed := (run_sound .init operations).1
  refine ⟨fun accept start name => ⟨findUpward?_isSome wf, fun id => findUpward?_eq_some_iff wf⟩,
    fun path name single id => ?_, fun input name id => ?_⟩
  · rw [resolve?, resolveFrom?_of_name single]
    exact findUpward?_eq_some_iff wf
  · rw [findPreset?, Option.bind_eq_some_iff]
    exact exists_congr fun around => and_congr_right fun _ => findUpward?_eq_some_iff wf

/-- Of two steps beside each other that both have a scope of that name, the scope in the first one
counts, although it is the later one. Inside the second step its own scope is nearer. -/
theorem lookup_in_two_steps :
    let beside := [.push "a" .step, .leaveTo 0, .push "b" .step, .declare "x", .leaveTo 0,
      .push "a" .step, .declare "x", .leaveTo 0]
    let inside := beside ++ [.push "b" .step]
    ScopePath.segments "x" = [.name "x"] ∧
      (run {} beside).current = root ∧
      (run {} beside).Nearest any "x" (run {} beside).current 4 ∧
      (run {} inside).current = 2 ∧
      (run {} inside).Nearest any "x" (run {} inside).current 3 := by
  intro beside inside
  have single : ScopePath.segments "x" = [.name "x"] := by decide +kernel
  refine ⟨single, by decide +kernel, ?_, by decide +kernel, ?_⟩
  · exact ((lookup_finds_nearest beside).2.1 "x" "x" single 4).1 (by decide +kernel)
  · exact ((lookup_finds_nearest inside).2.1 "x" "x" single 3).1 (by decide +kernel)

end Archetype.ScopeTree
