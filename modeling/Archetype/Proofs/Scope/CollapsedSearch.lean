import Archetype.Proofs.Scope.Collapsed
import Archetype.Proofs.Scope.Nearest
import Archetype.Proofs.Scope.Search
import Mathlib.Data.List.Sort

/-!
Looking up where frames dissolve. A frame that goes brings what is below it one level nearer, so a
name may come to stand for another scope. It does not if no scope of that name is below such a
frame: then the others only stand in between. Nor does it if there is only one scope of that name:
then it counts whether it is found at all, which is a matter of the blocks on the way alone.
-/

namespace Archetype.ScopeTree

variable {δ : Dissolving} {tree a b : ScopeTree} {accept accept' wider : ScopeId → Bool}
  {name : String} {start id around : ScopeId}

/-- Is a scope below no frame that goes, and none itself? -/
def exposed (δ : Dissolving) (tree : ScopeTree) (id : ScopeId) : Bool :=
  (tree.ancestry id).all (tree.stays δ)

/-- The accepted scopes of a name are below no frame that goes, or there is only one. -/
def Clear (δ : Dissolving) (tree : ScopeTree) (accept : ScopeId → Bool) (name : String) : Prop :=
  (∀ id < tree.size, (tree.node id).name = name → accept id = true → tree.exposed δ id = true) ∨
  ∀ id < tree.size, ∀ other < tree.size, (tree.node id).name = name →
    (tree.node other).name = name → accept id = true → accept other = true → id = other

theorem Clear.of_imp (clear : tree.Clear δ wider name)
    (implies : ∀ id, accept id = true → wider id = true) : tree.Clear δ accept name :=
  clear.imp (fun bare id inside named accepts => bare id inside named (implies id accepts))
    fun single id inside other inside' named named' accepts accepts' =>
      single id inside other inside' named named' (implies id accepts) (implies other accepts')

/-! Ways down, whatever the places. -/

inductive Opens (tree : ScopeTree) (start : ScopeId) : ScopeId → Prop
  | start : Opens tree start start
  | further {around id : ScopeId} (outer : Opens tree start around)
      (link : (tree.node id).parent = some around)
      (through : (tree.node id).frame.isTransparent = true) : Opens tree start id

theorem WellFormed.exists_place (wf : tree.WellFormed) :
    (∃ place : Nat, (tree.node around).children[place]? = some id) ↔
      (tree.node id).parent = some around := by
  rw [← List.mem_iff_getElem?, wf.children]
  exact and_iff_right_of_imp fun link => (wf.parent_lt link).2

theorem exists_descends (wf : tree.WellFormed) :
    (∃ places, tree.Descends start places id) ↔
      ∃ around, tree.Opens start around ∧ (tree.node id).parent = some around := by
  constructor
  · rintro ⟨places, descends⟩
    induction descends with
    | child below => exact ⟨start, .start, wf.exists_place.1 ⟨_, below⟩⟩
    | further _ through below ih =>
        obtain ⟨outer, opens, link⟩ := ih
        exact ⟨_, .further opens link ((isTransparent_iff _).2 through),
          wf.exists_place.1 ⟨_, below⟩⟩
  · rintro ⟨around, opens, link⟩
    induction opens generalizing id with
    | start =>
        obtain ⟨place, below⟩ := wf.exists_place.2 link
        exact ⟨_, .child below⟩
    | further _ link' through ih =>
        obtain ⟨places, descends⟩ := ih link'
        obtain ⟨place, below⟩ := wf.exists_place.2 link
        exact ⟨_, .further descends ((isTransparent_iff _).1 through) below⟩

/-- A search below a scope finds something if it looks through the scope around an accepted one. -/
theorem findBelow?_isSome (wf : tree.WellFormed) :
    (tree.findBelow? accept start name).isSome ↔ ∃ id around, tree.Opens start around ∧
      (tree.node id).parent = some around ∧ (tree.node id).name = name ∧ accept id = true := by
  constructor
  · intro isSome
    obtain ⟨id, found⟩ := Option.isSome_iff_exists.1 isSome
    obtain ⟨places, ⟨descends, named, accepted⟩, -⟩ := foremost_of_findBelow? found
    obtain ⟨around, opens, link⟩ := (exists_descends wf).1 ⟨places, descends⟩
    exact ⟨id, around, opens, link, named, accepted⟩
  · rintro ⟨id, around, opens, link, named, accepted⟩
    obtain ⟨places, descends⟩ := (exists_descends wf).2 ⟨around, opens, link⟩
    rw [Option.isSome_iff_ne_none]
    exact fun missing => not_matches_of_findBelow? wf missing ⟨descends, named, accepted⟩

theorem findBelow?_eq_some (wf : tree.WellFormed)
    (found : tree.findBelow? accept start name = some id) :
    id < tree.size ∧ (tree.node id).name = name ∧ accept id = true := by
  obtain ⟨places, ⟨-, named, accepted⟩, -⟩ := foremost_of_findBelow? found
  exact ⟨searchLevels_lt wf found, named, accepted⟩

theorem findUpward?_eq_some (wf : tree.WellFormed)
    (found : tree.findUpward? accept start name = some id) :
    id < tree.size ∧ (tree.node id).name = name ∧ accept id = true := by
  obtain ⟨around, -, below⟩ := List.exists_of_findSome?_eq_some found
  exact findBelow?_eq_some wf below

theorem isTransparent_of_gone (collapsed : Collapsed δ a b) (gone : a.stays δ id = false) :
    (a.node id).frame.isTransparent = true := by
  rw [collapsed.frame_of_gone gone]
  rfl

namespace Collapsed

section Ways

variable (collapsed : Collapsed δ a b)
include collapsed

theorem opens (opens : a.Opens start id) : b.Opens (a.rank δ start) (a.rank δ id) := by
  induction opens with
  | start => exact .start
  | @further around id _ link through ih =>
      have bounds := collapsed.before.parent_lt link
      cases stays : a.stays δ id with
      | true =>
          have stands := collapsed.node id bounds.2 stays
          exact .further ih (by rw [stands.parent, link, Option.map_some])
            (by rw [stands.frame]; exact through)
      | false => rwa [rank_of_gone stays link bounds.1]

theorem opens_of_rank (stays : a.stays δ start = true)
    (opens : b.Opens (a.rank δ start) number) :
    ∀ id < a.size, a.rank δ id = number → a.Opens start id := by
  induction opens with
  | start =>
      intro id inside same
      induction id using Nat.strongRecOn with
      | ind id ih =>
          cases stays' : a.stays δ id with
          | true => exact (rank_inj stays' stays).1 same ▸ .start
          | false =>
              obtain ⟨around, below, link, held⟩ := collapsed.exists_around inside stays'
              exact .further (ih around below (Nat.lt_trans below inside) (held ▸ same)) link
                (isTransparent_of_gone collapsed stays')
  | @further outer number _ link through ihOuter =>
      intro id inside same
      induction id using Nat.strongRecOn with
      | ind id ih =>
          cases stays' : a.stays δ id with
          | true =>
              have stands := collapsed.node id inside stays'
              rw [← same, stands.parent] at link
              obtain ⟨around, outward, held⟩ := Option.map_eq_some_iff.1 link
              rw [← same, stands.frame] at through
              have below := (collapsed.before.parent_lt outward).1
              exact .further (ihOuter around (Nat.lt_trans below inside) held) outward through
          | false =>
              obtain ⟨around, below, link, held⟩ := collapsed.exists_around inside stays'
              exact .further (ih around below (Nat.lt_trans below inside) (held ▸ same)) link
                (isTransparent_of_gone collapsed stays')

/-! Whether anything is found. -/

section Found

variable (plain : '#' ∉ name.toList)
  (accepts : ∀ id < a.size, a.stays δ id = true → accept' (a.rank δ id) = accept id)
include plain accepts

theorem findBelow?_found (found : (a.findBelow? accept start name).isSome) :
    (b.findBelow? accept' (a.rank δ start) name).isSome := by
  obtain ⟨id, around, opens, link, named, accepted⟩ := (findBelow?_isSome collapsed.before).1 found
  have inside := (collapsed.before.parent_lt link).2
  have stays : a.stays δ id = true := by rw [ScopeTree.stays, named, δ.stays plain]; rfl
  have stands := collapsed.node id inside stays
  refine (findBelow?_isSome collapsed.after).2
    ⟨a.rank δ id, a.rank δ around, collapsed.opens opens, ?_, ?_, ?_⟩
  · rw [stands.parent, link, Option.map_some]
  · rw [stands.name, named, δ.keeps name plain]
  · rw [accepts id inside stays, accepted]

theorem findBelow?_found_of_rank (stays : a.stays δ start = true)
    (found : (b.findBelow? accept' (a.rank δ start) name).isSome) :
    (a.findBelow? accept start name).isSome := by
  obtain ⟨number, outer, opens, link, named, accepted⟩ :=
    (findBelow?_isSome collapsed.after).1 found
  obtain ⟨id, inside, stays', rfl⟩ := collapsed.exists_rank (collapsed.after.parent_lt link).2
  have stands := collapsed.node id inside stays'
  rw [stands.parent] at link
  obtain ⟨around, outward, rfl⟩ := Option.map_eq_some_iff.1 link
  have inside' := Nat.lt_trans (collapsed.before.parent_lt outward).1 inside
  rw [stands.name] at named
  exact (findBelow?_isSome collapsed.before).2 ⟨id, around,
    collapsed.opens_of_rank stays opens around inside' rfl, outward,
    (δ.apply_eq_iff (δ.keeps name plain)).1 named, accepts id inside stays' ▸ accepted⟩

omit plain accepts in
theorem mem_ancestry (inside : start < a.size) (member : around ∈ a.ancestry start) :
    a.rank δ around ∈ b.ancestry (a.rank δ start) := by
  induction start using Nat.strongRecOn with
  | ind start ih =>
      have self : a.rank δ start ∈ b.ancestry (a.rank δ start) := by
        obtain ⟨outer, ancestry⟩ := exists_ancestry b (a.rank δ start)
        rw [ancestry]
        exact List.mem_cons_self ..
      cases link : (a.node start).parent with
      | none =>
          rw [ScopeTree.ancestry] at member
          simp only [link, List.mem_singleton] at member
          exact member ▸ self
      | some outer =>
          have below := (collapsed.before.parent_lt link).1
          rw [ancestry_of_parent link below] at member
          rcases List.mem_cons.1 member with rfl | member
          · exact self
          · have further := ih outer below (Nat.lt_trans below inside) member
            cases stays : a.stays δ start with
            | false => rwa [rank_of_gone stays link below]
            | true =>
                have parent := (collapsed.node start inside stays).parent
                rw [link, Option.map_some] at parent
                rw [ancestry_of_parent parent (collapsed.after.parent_lt parent).1]
                exact List.mem_cons_of_mem _ further

/-- A search outward finds something in both trees or in none. -/
theorem isSome_findUpward? (inside : start < a.size) :
    (b.findUpward? accept' (a.rank δ start) name).isSome =
      (a.findUpward? accept start name).isSome := by
  rw [Bool.eq_iff_iff, ScopeTree.findUpward?, ScopeTree.findUpward?, List.findSome?_isSome_iff,
    List.findSome?_isSome_iff]
  constructor
  · rintro ⟨number, member, found⟩
    rw [collapsed.ancestry inside] at member
    obtain ⟨around, among, rfl⟩ := List.mem_map.1 member
    obtain ⟨member, stays⟩ := List.mem_filter.1 among
    exact ⟨around, member, collapsed.findBelow?_found_of_rank plain accepts stays found⟩
  · rintro ⟨around, member, found⟩
    exact ⟨_, collapsed.mem_ancestry inside member, collapsed.findBelow?_found plain accepts found⟩

/-- Where there is only one accepted scope of the name, it is what both searches find. -/
theorem eq_map_rank_of_single {found found' : Option ScopeId}
    (single : ∀ id < a.size, ∀ other < a.size, (a.node id).name = name →
      (a.node other).name = name → accept id = true → accept other = true → id = other)
    (same : found'.isSome = found.isSome)
    (accepted : ∀ id, found = some id →
      id < a.size ∧ (a.node id).name = name ∧ accept id = true)
    (accepted' : ∀ number, found' = some number →
      number < b.size ∧ (b.node number).name = name ∧ accept' number = true) :
    found' = found.map (a.rank δ) := by
  cases found with
  | none =>
      rw [Option.isSome_none, Option.isSome_eq_false_iff, Option.isNone_iff_eq_none] at same
      rw [same, Option.map_none]
  | some id =>
      obtain ⟨number, found⟩ := Option.isSome_iff_exists.1 same
      obtain ⟨inside, named, accepts'⟩ := accepted id rfl
      obtain ⟨inside', named', accepts''⟩ := accepted' number found
      obtain ⟨other, within, stays, rfl⟩ := collapsed.exists_rank inside'
      rw [(collapsed.node other within stays).name] at named'
      have named' := (δ.apply_eq_iff (δ.keeps name plain)).1 named'
      rw [accepts other within stays] at accepts''
      rw [found, single id inside other within named named' accepts' accepts'', Option.map_some]

end Found

end Ways

end Collapsed

/-! Where all accepted scopes are below no frame that goes, those that are below one can be left out
of every level, and what is left stands level by level in the same order. -/

theorem stays_of_exposed (exposed : tree.exposed δ id = true) : tree.stays δ id = true := by
  obtain ⟨around, ancestry⟩ := exists_ancestry tree id
  rw [ScopeTree.exposed, ancestry, List.all_cons, Bool.and_eq_true] at exposed
  exact exposed.1

theorem exposed_of_parent (link : (tree.node id).parent = some around) (below : around < id) :
    tree.exposed δ id = (tree.stays δ id && tree.exposed δ around) := by
  rw [exposed, ancestry_of_parent link below, List.all_cons, exposed]

def shown (δ : Dissolving) (tree : ScopeTree) (number : ScopeId) : Bool :=
  decide (∃ id < tree.size, tree.exposed δ id = true ∧ tree.rank δ id = number)

theorem shown_rank (inside : id < tree.size) (stays : tree.stays δ id = true) :
    tree.shown δ (tree.rank δ id) = tree.exposed δ id := by
  rw [Bool.eq_iff_iff, shown, decide_eq_true_iff]
  refine ⟨?_, fun exposed => ⟨id, inside, exposed, rfl⟩⟩
  rintro ⟨other, -, exposed, same⟩
  exact (rank_inj (stays_of_exposed exposed) stays).1 same ▸ exposed

theorem flatMap_filter_of_nil {α β : Type} {keep : α → Bool} {f : α → List β} {list : List α}
    (none : ∀ item ∈ list, keep item = false → f item = []) :
    (list.filter keep).flatMap f = list.flatMap f := by
  induction list with
  | nil => rfl
  | cons item rest ih =>
      have later := ih fun other member => none other (List.mem_cons_of_mem _ member)
      cases kept : keep item with
      | true => rw [List.filter_cons_of_pos kept, List.flatMap_cons, List.flatMap_cons, later]
      | false =>
          rw [List.filter_cons_of_neg (by simp [kept]), List.flatMap_cons,
            none item (List.mem_cons_self ..) kept, List.nil_append, later]

namespace Collapsed

section Levels

variable (collapsed : Collapsed δ a b)
include collapsed

theorem children_of_exposed (exposed : a.exposed δ around = true) :
    (b.node (a.rank δ around)).children.filter (a.shown δ) =
      ((a.node around).children.filter (a.exposed δ)).map (a.rank δ) := by
  have inner : ∀ id ∈ (a.node around).children.filter (a.exposed δ),
      a.stays δ id = true := fun id member => stays_of_exposed (List.mem_filter.1 member).2
  refine List.Pairwise.eq_of_mem_iff ((collapsed.after.ascending _).filter _) ?_ fun number => ?_
  · rw [List.pairwise_map]
    refine ((collapsed.before.ascending around).filter _).imp_of_mem fun here there lower => ?_
    exact (rank_lt_iff (inner _ here) (inner _ there)).2 lower
  · simp only [List.mem_filter, List.mem_map]
    constructor
    · rintro ⟨child, shown⟩
      obtain ⟨id, inside, bare, rfl⟩ := of_decide_eq_true shown
      have stays := stays_of_exposed bare
      obtain ⟨outer, link, same⟩ := (collapsed.mem_children inside stays).1 child
      rw [exposed_of_parent link (collapsed.before.parent_lt link).1, stays, Bool.true_and] at bare
      obtain rfl := (rank_inj (stays_of_exposed bare) (stays_of_exposed exposed)).1 same
      refine ⟨id, ⟨(collapsed.before.children _ _).2 ⟨inside, link⟩, ?_⟩, rfl⟩
      rw [exposed_of_parent link (collapsed.before.parent_lt link).1, stays, bare]
      rfl
    · rintro ⟨id, ⟨child, bare⟩, rfl⟩
      obtain ⟨inside, link⟩ := (collapsed.before.children _ _).1 child
      have stays := stays_of_exposed bare
      exact ⟨(collapsed.mem_children inside stays).2 ⟨around, link, rfl⟩,
        (shown_rank inside stays).trans bare⟩

theorem children_of_not_exposed (covered : a.exposed δ around = false) :
    (a.node around).children.filter (a.exposed δ) = [] := by
  refine List.filter_eq_nil_iff.2 fun id member => ?_
  obtain ⟨-, link⟩ := (collapsed.before.children _ _).1 member
  rw [exposed_of_parent link (collapsed.before.parent_lt link).1, covered]
  simp

theorem children_of_not_shown (hidden : a.shown δ number = false) :
    (b.node number).children.filter (a.shown δ) = [] := by
  refine List.filter_eq_nil_iff.2 fun child member shown => ?_
  obtain ⟨id, inside, bare, rfl⟩ := of_decide_eq_true shown
  have stays := stays_of_exposed bare
  obtain ⟨-, link⟩ := (collapsed.after.children _ _).1 member
  rw [(collapsed.node id inside stays).parent] at link
  obtain ⟨outer, outward, rfl⟩ := Option.map_eq_some_iff.1 link
  have below := (collapsed.before.parent_lt outward).1
  rw [exposed_of_parent outward below, Bool.and_eq_true] at bare
  rw [shown_rank (Nat.lt_trans below inside) (stays_of_exposed bare.2), bare.2] at hidden
  cases hidden

theorem level_below {level level' : List ScopeId}
    (same : level'.filter (a.shown δ) = (level.filter (a.exposed δ)).map (a.rank δ)) :
    (level'.flatMap fun id => (b.node id).children).filter (a.shown δ) =
      ((level.flatMap fun id => (a.node id).children).filter (a.exposed δ)).map (a.rank δ) := by
  rw [List.filter_flatMap, List.filter_flatMap,
    ← flatMap_filter_of_nil fun _ _ hidden => collapsed.children_of_not_shown hidden,
    ← flatMap_filter_of_nil fun _ _ covered => collapsed.children_of_not_exposed covered,
    same, List.flatMap_map, List.map_flatMap]
  exact List.flatMap_congr fun id member =>
    collapsed.children_of_exposed (List.mem_filter.1 member).2

variable (bare : ∀ id < a.size, accept id = true → a.exposed δ id = true)
  (accepts : ∀ id < a.size, a.stays δ id = true → accept' (a.rank δ id) = accept id)
include bare accepts

theorem find?_level {level level' : List ScopeId} (inside : ∀ id ∈ level, id < a.size)
    (inside' : ∀ number ∈ level', number < b.size)
    (same : level'.filter (a.shown δ) = (level.filter (a.exposed δ)).map (a.rank δ)) :
    level'.find? accept' = (level.find? accept).map (a.rank δ) := by
  have left : (level'.filter (a.shown δ)).find? accept' = level'.find? accept' := by
    rw [List.find?_filter]
    refine List.find?_congr fun number member => ?_
    obtain ⟨id, within, stays, rfl⟩ := collapsed.exists_rank (inside' number member)
    rw [accepts id within stays, shown_rank within stays]
    cases accepted : accept id with
    | true => simp [bare id within accepted]
    | false => simp
  have right : (level.filter (a.exposed δ)).find? accept = level.find? accept := by
    rw [List.find?_filter]
    refine List.find?_congr fun id member => ?_
    cases accepted : accept id with
    | true => simp [bare id (inside id member) accepted]
    | false => simp
  rw [← left, same, List.find?_map, ← right]
  congr 1
  refine List.find?_congr fun id member => ?_
  obtain ⟨member, exposed⟩ := List.mem_filter.1 member
  exact accepts id (inside id member) (stays_of_exposed exposed)

theorem searchLevels_of_exposed (levels : Nat) {level level' : List ScopeId}
    (same : level'.filter (a.shown δ) = (level.filter (a.exposed δ)).map (a.rank δ)) :
    b.searchLevels accept' levels level' =
      (a.searchLevels accept levels level).map (a.rank δ) := by
  induction levels generalizing level level' with
  | zero => rfl
  | succ levels ih =>
      have inside : ∀ id ∈ level.flatMap fun id => (a.node id).children, id < a.size := by
        intro id member
        obtain ⟨around, -, child⟩ := List.mem_flatMap.1 member
        exact (collapsed.before.child_lt child).2
      have inside' : ∀ id ∈ level'.flatMap fun id => (b.node id).children, id < b.size := by
        intro id member
        obtain ⟨around, -, child⟩ := List.mem_flatMap.1 member
        exact (collapsed.after.child_lt child).2
      have below := collapsed.level_below same
      rw [searchLevels_succ, searchLevels_succ,
        collapsed.find?_level bare accepts inside inside' below, ih, Option.map_or]
      rw [List.filter_comm, below, List.filter_comm, List.filter_map]
      congr 1
      refine List.filter_congr fun id member => ?_
      obtain ⟨member, exposed⟩ := List.mem_filter.1 member
      exact congrArg FrameKind.isTransparent
        (collapsed.node id (inside id member) (stays_of_exposed exposed)).frame

end Levels

/-! What is found. -/

section Searches

variable (collapsed : Collapsed δ a b) (clear : a.Clear δ accept name) (plain : '#' ∉ name.toList)
  (accepts : ∀ id < a.size, a.stays δ id = true → accept' (a.rank δ id) = accept id)

include collapsed plain accepts in
theorem accepts_named (inside : id < a.size) (stays : a.stays δ id = true) :
    ((b.node (a.rank δ id)).name = name && accept' (a.rank δ id)) =
      ((a.node id).name = name && accept id) := by
  rw [(collapsed.node id inside stays).name, accepts id inside stays]
  congr 1
  exact decide_eq_decide.2 (δ.apply_eq_iff (δ.keeps name plain))

include collapsed plain accepts in
/-- Where the scopes of the name are exposed, the levels below any scopes find the same. -/
theorem levels_of_exposed (bare : ∀ id < a.size, (a.node id).name = name → accept id = true →
      a.exposed δ id = true) {level level' : List ScopeId}
    (same : level'.filter (a.shown δ) = (level.filter (a.exposed δ)).map (a.rank δ)) :
    b.searchLevels (fun id => (b.node id).name = name && accept' id) b.size level' =
      (a.searchLevels (fun id => (a.node id).name = name && accept id) a.size level).map
        (a.rank δ) := by
  have fewer : b.size ≤ a.size := by
    rw [collapsed.size]
    exact (List.length_filter_le ..).trans (List.length_range ..).le
  have enough : ∀ accept, b.searchLevels accept b.size level' =
      b.searchLevels accept a.size level' := fun _ =>
    searchLevels_enough collapsed.after (fun _ _ => Nat.zero_le _) fewer (Nat.le_refl _)
  rw [enough]
  refine collapsed.searchLevels_of_exposed (fun id inside both => ?_)
    (fun id inside stays => collapsed.accepts_named plain accepts inside stays) a.size same
  obtain ⟨named, accepted⟩ := Bool.and_eq_true_iff.1 both
  exact bare id inside (of_decide_eq_true named) accepted

include collapsed clear plain accepts

theorem findBelow? (inside : start < a.size) (stays : a.stays δ start = true) :
    b.findBelow? accept' (a.rank δ start) name =
      (a.findBelow? accept start name).map (a.rank δ) := by
  rcases clear with bare | single
  · refine collapsed.levels_of_exposed plain accepts bare ?_
    rw [List.filter_singleton, List.filter_singleton, shown_rank inside stays]
    cases a.exposed δ start <;> rfl
  · refine collapsed.eq_map_rank_of_single plain accepts single ?_
      (fun _ => findBelow?_eq_some collapsed.before) fun _ => findBelow?_eq_some collapsed.after
    rw [Bool.eq_iff_iff]
    exact ⟨collapsed.findBelow?_found_of_rank plain accepts stays,
      collapsed.findBelow?_found plain accepts⟩

theorem findUpward? (inside : start < a.size) :
    b.findUpward? accept' (a.rank δ start) name =
      (a.findUpward? accept start name).map (a.rank δ) := by
  have whole := clear
  rcases clear with bare | single
  · -- A scope that goes finds nothing, since it is not exposed, so leaving it out changes nothing.
    have nothing : ∀ id ∈ a.ancestry start, a.stays δ id = false →
        a.findBelow? accept id name = none := by
      intro id member gone
      have covered : a.exposed δ id = false := by
        rw [Bool.eq_false_iff]
        exact fun exposed => absurd (stays_of_exposed exposed) (by simp [gone])
      have hidden : List.filter (a.shown δ) [] = ([id].filter (a.exposed δ)).map (a.rank δ) := by
        rw [List.filter_singleton, covered]
        rfl
      have empty := collapsed.levels_of_exposed plain accepts bare hidden
      rw [searchLevels_nil, eq_comm, Option.map_eq_none_iff] at empty
      exact empty
    rw [ScopeTree.findUpward?, ScopeTree.findUpward?, collapsed.ancestry inside]
    have among : ∀ id ∈ a.ancestry start, id < a.size := fun id member =>
      Nat.lt_of_le_of_lt (le_of_mem_ancestry member) inside
    generalize a.ancestry start = scopes at nothing among
    induction scopes with
    | nil => rfl
    | cons id rest ih =>
        have later := ih (fun id member => nothing id (List.mem_cons_of_mem _ member))
          fun id member => among id (List.mem_cons_of_mem _ member)
        have here := among id (List.mem_cons_self ..)
        cases stays : a.stays δ id with
        | false =>
            rw [List.filter_cons_of_neg (by simp [stays]), later, List.findSome?_cons,
              nothing id (List.mem_cons_self ..) stays]
        | true =>
            rw [List.filter_cons_of_pos stays, List.map_cons, List.findSome?_cons,
              List.findSome?_cons, collapsed.findBelow? whole plain accepts here stays, later]
            cases a.findBelow? accept id name <;> rfl
  · exact collapsed.eq_map_rank_of_single plain accepts single
      (collapsed.isSome_findUpward? plain accepts inside)
      (fun _ => findUpward?_eq_some collapsed.before) fun _ => findUpward?_eq_some collapsed.after

end Searches

end Collapsed

end Archetype.ScopeTree
