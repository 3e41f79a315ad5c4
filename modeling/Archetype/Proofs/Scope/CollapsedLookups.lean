import Archetype.Proofs.Expression.Agreement
import Archetype.Proofs.Scope.CollapsedSearch
import Archetype.Proofs.Scope.Renamed
import Archetype.Proofs.Scope.Segments

/-!
What a run looks up where frames dissolve. If every name that it uses is clear of the frames that
go, all look-ups lead to scopes that stand for one another, inputs have the same paths, and values
are supplied under the same keys.
-/

namespace Archetype

structure NameUses where
  /-- The names in the paths of conditions and templates. -/
  lookedUp : List String
  /-- The names of inputs, under which presets are searched. -/
  asked : List String
  /-- The names of variables. -/
  declared : List String
  /-- The keys of external values and defaults. -/
  supplied : List String

structure ScopePath.Downward (path : String) : Prop where
  leads : segments path ≠ []
  down : .parent ∉ segments path

instance (path : String) : Decidable (ScopePath.Downward path) :=
  decidable_of_iff (ScopePath.segments path ≠ [] ∧ .parent ∉ ScopePath.segments path)
    ⟨fun ⟨leads, down⟩ => ⟨leads, down⟩, fun ⟨leads, down⟩ => ⟨leads, down⟩⟩

theorem ScopeNode.SameContent.value?_eq {node twin : ScopeNode} (same : node.SameContent twin) :
    twin.value? = node.value? := by
  simp only [ScopeNode.value?, ScopeNode.effective?, same.inEffect, same.variants]

namespace ScopeTree

def stayPath (δ : Dissolving) (tree : ScopeTree) (id : ScopeId) : String :=
  ".".intercalate (tree.namesTo (fun around => around ≠ root && tree.stays δ around) id)

/-- The frames of a tree can dissolve without a trace in what a run goes by. -/
structure Dissolves (δ : Dissolving) (uses : NameUses) (tree : ScopeTree) : Prop where
  unmerged : tree.Unmerged δ
  lookedUp : ∀ name ∈ uses.lookedUp, tree.Clear δ any name
  asked : ∀ name ∈ uses.asked, tree.Clear δ (fun id => (tree.node id).hasPreset) name
  /-- No scope directly below a frame that goes has the name of a variable. -/
  declared : ∀ name ∈ uses.declared, ∀ id < tree.size, (tree.node id).name = name →
    (tree.node id).parent.all (tree.stays δ) = true
  /-- Without the frames that go, the path of an input below one leads to no value but those that
  its path by inputs leads to. -/
  supplied : ∀ id < tree.size, (tree.node id).visited = true → tree.Enclosed id →
    tree.exposed δ id = false → tree.stayPath δ id ∈ uses.supplied →
      tree.stayPath δ id = tree.inputPath id

variable {δ : Dissolving} {uses : NameUses} {tree later a b : ScopeTree} {id start : ScopeId}
  {name : String} {accept : ScopeId → Bool}

set_option synthInstance.maxSize 400 in
instance : Decidable (tree.Unmerged δ) :=
  inferInstanceAs (Decidable (∀ id < tree.size, ∀ other < tree.size, _))

set_option synthInstance.maxSize 400 in
instance : Decidable (tree.Clear δ accept name) :=
  inferInstanceAs (Decidable ((∀ id < tree.size, _) ∨ ∀ id < tree.size, ∀ other < tree.size, _))

instance : Decidable (tree.Enclosed id) :=
  inferInstanceAs (Decidable (∀ around ∈ tree.ancestry id, _))

set_option synthInstance.maxSize 400 in
instance : Decidable (tree.Dissolves δ uses) :=
  decidable_of_iff (tree.Unmerged δ ∧ (∀ name ∈ uses.lookedUp, tree.Clear δ any name) ∧
      (∀ name ∈ uses.asked, tree.Clear δ (fun id => (tree.node id).hasPreset) name) ∧
      (∀ name ∈ uses.declared, ∀ id < tree.size, (tree.node id).name = name →
        (tree.node id).parent.all (tree.stays δ) = true) ∧
      ∀ id < tree.size, (tree.node id).visited = true → tree.Enclosed id →
        tree.exposed δ id = false → tree.stayPath δ id ∈ uses.supplied →
          tree.stayPath δ id = tree.inputPath id)
    ⟨fun ⟨unmerged, lookedUp, asked, declared, supplied⟩ =>
      ⟨unmerged, lookedUp, asked, declared, supplied⟩,
      fun ⟨unmerged, lookedUp, asked, declared, supplied⟩ =>
        ⟨unmerged, lookedUp, asked, declared, supplied⟩⟩

/-! What holds of a later tree held before. -/

namespace Grows

variable (grows : tree.Grows later)
include grows

theorem exposed (inside : id < tree.size) : later.exposed δ id = tree.exposed δ id := by
  rw [ScopeTree.exposed, ancestry_of_grows grows inside, ScopeTree.exposed]
  refine Bool.eq_iff_iff.2 ?_
  simp only [List.all_eq_true]
  refine forall₂_congr fun around member => ?_
  rw [grows.stays (Nat.lt_of_le_of_lt (le_of_mem_ancestry member) inside)]

theorem stayPath (inside : id < tree.size) : later.stayPath δ id = tree.stayPath δ id := by
  have among : ∀ around ∈ tree.ancestry id, around < tree.size := fun around member =>
    Nat.lt_of_le_of_lt (le_of_mem_ancestry member) inside
  simp only [ScopeTree.stayPath, namesTo, ancestry_of_grows grows inside]
  congr 1
  rw [List.filter_congr fun around member => by
    rw [grows.stays (among around (List.mem_reverse.1 member))]]
  exact List.map_congr_left fun around member =>
    (grows.node around (among around (List.mem_reverse.1 (List.mem_filter.1 member).1))).name

theorem hasPreset (inside : id < tree.size) (preset : (tree.node id).hasPreset = true) :
    (later.node id).hasPreset = true := by
  obtain ⟨variant, member, origin⟩ := List.any_eq_true.1 preset
  exact List.any_eq_true.2 ⟨variant, (grows.node id inside).variants.subset member, origin⟩

end Grows

theorem Clear.of_grows {wider : ScopeId → Bool} (clear : later.Clear δ wider name)
    (grows : tree.Grows later) (implies : ∀ id < tree.size, accept id = true → wider id = true) :
    tree.Clear δ accept name := by
  have inside : ∀ {id}, id < tree.size → id < later.size := fun bounded =>
    Nat.lt_of_lt_of_le bounded grows.size
  have named : ∀ {id}, id < tree.size → (tree.node id).name = name →
      (later.node id).name = name := fun bounded named =>
    (grows.node _ bounded).name.trans named
  refine clear.imp (fun bare id bounded same accepts => ?_)
    fun single id bounded other bounded' same same' accepts accepts' => ?_
  · rw [← grows.exposed bounded]
    exact bare id (inside bounded) (named bounded same) (implies id bounded accepts)
  · exact single id (inside bounded) other (inside bounded') (named bounded same)
      (named bounded' same') (implies id bounded accepts) (implies other bounded' accepts')

/-- An input that is visited later has no other path without the frames that its values go by. -/
theorem Dissolves.supplied_of_grows (dissolves : later.Dissolves δ uses) (grows : tree.Grows later)
    (inside : id < tree.size) (visited : (later.node id).visited = true)
    (enclosed : tree.Enclosed id) (covered : tree.exposed δ id = false)
    (key : tree.stayPath δ id ∈ uses.supplied) : tree.stayPath δ id = tree.inputPath id := by
  obtain ⟨enclosed', names⟩ := enclosed.of_grows grows inside
  rw [inputPath_eq, ← names, ← inputPath_eq, ← grows.stayPath inside]
  refine dissolves.supplied id (Nat.lt_of_lt_of_le inside grows.size) visited enclosed' ?_ ?_
  · rwa [grows.exposed inside]
  · rwa [grows.stayPath inside]

theorem Dissolves.of_grows (dissolves : later.Dissolves δ uses) (grows : tree.Grows later)
    (wf : tree.WellFormed) : tree.Dissolves δ uses where
  unmerged := dissolves.unmerged.of_grows grows wf
  lookedUp name used := (dissolves.lookedUp name used).of_grows grows fun _ _ _ => rfl
  asked name used := (dissolves.asked name used).of_grows grows fun _ => grows.hasPreset
  declared name used id inside named := by
    have later := dissolves.declared name used id (Nat.lt_of_lt_of_le inside grows.size)
      ((grows.node id inside).name.trans named)
    rw [(grows.node id inside).parent] at later
    cases link : (tree.node id).parent with
    | none => rfl
    | some outer =>
        rw [link] at later
        rw [Option.all_some] at later ⊢
        rwa [← grows.stays (Nat.lt_trans (wf.parent_lt link).1 inside)]
  supplied id inside visited enclosed :=
    dissolves.supplied_of_grows grows inside ((grows.node id inside).visited visited) enclosed

theorem Dissolves.of_gone {δ' : Dissolving} (dissolves : tree.Dissolves δ uses)
    (same : δ'.gone = δ.gone) : tree.Dissolves δ' uses := by
  obtain ⟨ρ, gone, marked⟩ := δ
  obtain ⟨ρ', gone', marked'⟩ := δ'
  obtain rfl : gone' = gone := same
  exact ⟨dissolves.unmerged, dissolves.lookedUp, dissolves.asked, dissolves.declared,
    dissolves.supplied⟩

namespace Collapsed

section Following

variable (collapsed : Collapsed δ a b) (dissolves : a.Dissolves δ uses)

include collapsed dissolves

theorem follow? {segments : List ScopePath.Segment} (down : .parent ∉ segments)
    (plain : ∀ name, .name name ∈ segments → '#' ∉ name.toList ∧ name ∈ uses.lookedUp)
    {anchored : Bool} (inside : start < a.size)
    (from_here : anchored = true ∨ segments = [] → a.stays δ start = true) :
    b.follow? anchored (a.rank δ start) segments =
        (a.follow? anchored start segments).map (a.rank δ) ∧
      ∀ id, a.follow? anchored start segments = some id →
        id < a.size ∧ a.stays δ id = true := by
  induction segments generalizing anchored start with
  | nil =>
      refine ⟨rfl, fun id same => ?_⟩
      cases same
      exact ⟨inside, from_here (.inr rfl)⟩
  | cons segment rest ih =>
      have later : ∀ {id : ScopeId}, id < a.size → a.stays δ id = true →
          b.follow? true (a.rank δ id) rest = (a.follow? true id rest).map (a.rank δ) ∧
            ∀ last, a.follow? true id rest = some last →
              last < a.size ∧ a.stays δ last = true := fun inside stays =>
        ih (fun member => down (List.mem_cons_of_mem _ member))
          (fun name member => plain name (List.mem_cons_of_mem _ member)) inside fun _ => stays
      cases segment with
      | root =>
          have inside : root < a.size := collapsed.before.nonempty
          have further := later inside collapsed.top
          rwa [rank_root] at further
      | parent => exact absurd (List.mem_cons_self ..) down
      | name name =>
          obtain ⟨unmarked, used⟩ := plain name (List.mem_cons_self ..)
          have clear := dissolves.lookedUp name used
          have found : b.search anchored (a.rank δ start) name =
              (a.search anchored start name).map (a.rank δ) := by
            unfold search
            split
            · next anchors =>
                exact collapsed.findBelow? clear unmarked (fun _ _ _ => rfl) inside
                  (from_here (.inl anchors))
            · exact collapsed.findUpward? clear unmarked (fun _ _ _ => rfl) inside
          rw [follow?_name, follow?_name, found]
          cases here : a.search anchored start name with
          | none => exact ⟨rfl, fun id same => by cases same⟩
          | some id =>
              have named : (a.node id).name = name := by
                unfold search at here
                split at here
                · exact (findBelow?_eq_some collapsed.before here).2.1
                · exact (findUpward?_eq_some collapsed.before here).2.1
              have stays : a.stays δ id = true := by
                rw [ScopeTree.stays, named, δ.stays unmarked]
                rfl
              exact later (search_lt collapsed.before here) stays

variable {path : String} (downward : ScopePath.Downward path) (plain : '#' ∉ path.toList)
  (used : ∀ name, .name name ∈ ScopePath.segments path → name ∈ uses.lookedUp)
include downward plain used

theorem resolve? : b.resolve? path = (a.resolve? path).map (a.rank δ) ∧
    ∀ id, a.resolve? path = some id → id < a.size ∧ a.stays δ id = true := by
  rw [ScopeTree.resolve?, ScopeTree.resolveFrom?, collapsed.current]
  refine collapsed.follow? dissolves downward.down (fun name member => ⟨fun hash => ?_,
    used name member⟩) collapsed.before.current_lt ?_
  · exact plain (ScopePath.subset_of_name_mem_segments member hash)
  · rintro (anchored | empty)
    · cases anchored
    · exact absurd empty downward.leads

/-- A path stands for the same value in both trees, or in none for any. -/
theorem lookup : Variables.AgreeAt b.lookup a.lookup path := by
  obtain ⟨same, lands⟩ := collapsed.resolve? dissolves downward plain used
  simp only [Variables.AgreeAt, ScopeTree.lookup, same]
  cases found : a.resolve? path with
  | none => rfl
  | some id =>
      obtain ⟨inside, stays⟩ := lands id found
      have stands := collapsed.node id inside stays
      simp only [Option.map_some, stands.value?_eq, stands.skipped]
      cases (a.node id).value? with
      | some v => rfl
      | none => cases (a.node id).skipped <;> rfl

end Following

section Nodes

variable (collapsed : Collapsed δ a b)
include collapsed

/-- A preset is found for an input in both trees or in none. -/
theorem findPreset? (dissolves : a.Dissolves δ uses) (plain : '#' ∉ name.toList)
    (used : name ∈ uses.asked) (inside : id < a.size) (stays : a.stays δ id = true) :
    b.findPreset? (a.rank δ id) name = (a.findPreset? id name).map (a.rank δ) := by
  rw [ScopeTree.findPreset?, ScopeTree.findPreset?, (collapsed.node id inside stays).parent]
  cases link : (a.node id).parent with
  | none => rfl
  | some around =>
      refine collapsed.findUpward? ((dissolves.asked name used).of_imp fun other accepts =>
        (Bool.and_eq_true_iff.1 accepts).2) plain (fun other inside' stays' => ?_)
        (Nat.lt_trans (collapsed.before.parent_lt link).1 inside)
      have stands := collapsed.node other inside' stays'
      simp only [ScopeNode.hasPreset, stands.variants]
      congr 1
      exact decide_eq_decide.2 (not_congr (rank_inj stays' stays))

theorem child? (dissolves : a.Dissolves δ uses) (plain : '#' ∉ name.toList)
    (used : name ∈ uses.declared) (stays : a.stays δ id = true) :
    b.child? (a.rank δ id) name = (a.child? id name).map (a.rank δ) := by
  cases found : a.child? id name with
  | some child =>
      have found' := collapsed.child?_of_some (δ.stays plain) found
      rwa [δ.keeps name plain] at found'
  | none =>
      rw [Option.map_none, Option.eq_none_iff_forall_ne_some]
      intro number found'
      rw [← δ.keeps name plain] at found'
      obtain ⟨child, inside, -, named, -, outer, link, held⟩ := collapsed.exists_child found'
      have outside := dissolves.declared name used child inside named
      rw [link, Option.all_some] at outside
      rw [holder_of_stays outside, holder_of_stays stays] at held
      have there := (collapsed.before.indexed id name child).2
        ⟨(collapsed.before.children _ _).2 ⟨inside, held ▸ link⟩, named⟩
      rw [found] at there
      cases there

theorem namesTo {keep keep' : ScopeId → Bool} (inside : id < a.size)
    (kept : ∀ around < a.size, (keep' (a.rank δ around) && a.stays δ around) = keep around) :
    b.namesTo keep' (a.rank δ id) = (a.namesTo keep id).map δ.apply := by
  have among : ∀ around ∈ (a.ancestry id).reverse, around < a.size := fun around member =>
    Nat.lt_of_le_of_lt (le_of_mem_ancestry (List.mem_reverse.1 member)) inside
  unfold ScopeTree.namesTo
  rw [collapsed.ancestry inside, ← List.map_reverse, ← List.filter_reverse, List.filter_map,
    List.filter_filter]
  simp only [Function.comp_apply]
  rw [List.filter_congr fun around member => kept around (among around member), List.map_map,
    List.map_map]
  refine List.map_congr_left fun around member => ?_
  obtain ⟨member, keeps⟩ := List.mem_filter.1 member
  rw [← kept around (among around member), Bool.and_eq_true] at keeps
  exact (collapsed.node around (among around member) keeps.2).name

theorem stays_of_frame (frame : (a.node id).frame ≠ .invocation) : a.stays δ id = true := by
  by_contra gone
  exact frame (collapsed.frame_of_gone (Bool.eq_false_iff.2 gone))

theorem inputPath (inside : id < a.size) : b.inputPath (a.rank δ id) = a.inputPath id := by
  rw [ScopeTree.inputPath, collapsed.namesTo inside fun around within => ?_, ScopeTree.inputPath]
  · congr 1
    refine (List.map_congr_left fun name member => ?_).trans (List.map_id _)
    obtain ⟨around, among, rfl⟩ := List.mem_map.1 member
    have input := of_decide_eq_true (List.mem_filter.1 among).2
    refine δ.keeps _ fun hash => ?_
    rw [collapsed.marked around hash] at input
    cases input
  · by_cases input : (a.node around).frame = .input
    · have block : (a.node around).frame ≠ .invocation := by
        rw [input]
        exact FrameKind.noConfusion
      have stays := collapsed.stays_of_frame block
      rw [(collapsed.node around within stays).frame, stays, Bool.and_true]
    · cases stays : a.stays δ around with
      | true => rw [(collapsed.node around within stays).frame, Bool.and_true]
      | false => simp [input]

theorem path (inside : id < a.size) : b.path (a.rank δ id) = ".".intercalate
    ((a.namesTo (fun around => around ≠ root && a.stays δ around) id).map δ.apply) := by
  rw [ScopeTree.path, collapsed.namesTo inside fun around _ => ?_]
  cases stays : a.stays δ around with
  | false => simp
  | true =>
      have apart := rank_inj stays collapsed.top
      rw [rank_root] at apart
      simp only [Bool.and_true]
      exact decide_eq_decide.2 (not_congr apart)

theorem find? {table : ValueTable} (plain : ∀ entry ∈ table, '#' ∉ entry.1.toList)
    (keys : ∀ entry ∈ table, entry.1 ∈ uses.supplied) (inside : id < a.size)
    (supplied : a.exposed δ id = false → a.stayPath δ id ∈ uses.supplied →
      a.stayPath δ id = a.inputPath id) :
    table.find? (b.inputPath (a.rank δ id)) (b.path (a.rank δ id)) =
      table.find? (a.inputPath id) (a.path id) := by
  have stays : table.lookup (b.path (a.rank δ id)) = table.lookup (a.stayPath δ id) := by
    rw [collapsed.path inside]
    exact Renamed.lookup_intercalate δ.toRenaming plain _
  rw [ValueTable.find?, ValueTable.find?, collapsed.inputPath inside, stays]
  cases covered : a.exposed δ id with
  | true =>
      have all := List.all_eq_true.1 covered
      have same : a.stayPath δ id = a.path id := by
        unfold stayPath ScopeTree.path ScopeTree.namesTo
        rw [List.filter_congr fun around member => by rw [all around (List.mem_reverse.1 member),
          Bool.and_true]]
      rw [same]
  | false =>
      obtain ⟨around, member, gone⟩ := List.all_eq_false.1 covered
      have gone : a.stays δ around = false := by simpa using gone
      have hash : '#' ∈ (a.path id).toList := by
        refine (Renamed.marked_intercalate _).2 ⟨(a.node around).name, ?_,
          δ.marked _ (by simpa [ScopeTree.stays] using gone)⟩
        refine List.mem_map_of_mem (List.mem_filter.2 ⟨List.mem_reverse.2 member, ?_⟩)
        rw [decide_eq_true_iff]
        rintro rfl
        exact absurd collapsed.top (by simp [gone])
      rw [Renamed.lookup_of_marked plain hash]
      cases found : table.lookup (a.stayPath δ id) with
      | none => rfl
      | some value =>
          -- A key of the table that is the path without the frames is the path by inputs.
          obtain ⟨before, after, split, -⟩ := List.lookup_eq_some_iff.1 found
          have key := keys (a.stayPath δ id, value) (by rw [split]; simp)
          rw [supplied covered key] at found
          rw [found]
          rfl

/-! What a run ends with. -/

theorem unresolved : b.unresolved = a.unresolved.map (a.rank δ) := by
  rw [ScopeTree.unresolved, collapsed.size, ← map_rank_staying, List.filter_map, staying,
    List.filter_filter, ScopeTree.unresolved]
  congr 1
  refine List.filter_congr fun id member => ?_
  have inside := List.mem_range.1 member
  cases stays : a.stays δ id with
  | false => simp [collapsed.frame_of_gone stays]
  | true =>
      have stands := collapsed.node id inside stays
      simp only [Function.comp_apply, stands.frame, stands.visited, stands.skipped,
        ScopeNode.isBound, stands.inEffect, Bool.and_true]

theorem requireResolved : b.requireResolved.toOption = a.requireResolved.toOption := by
  rw [ScopeTree.requireResolved, ScopeTree.requireResolved, collapsed.unresolved]
  cases a.unresolved <;> rfl

end Nodes

end Collapsed

end ScopeTree

end Archetype
