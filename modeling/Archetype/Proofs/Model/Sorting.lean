import Archetype.Proofs.Model.Keys
import Mathlib.Data.List.Forall2

/-!
Sorting a model puts every collection in it in order, at every level and through lists and maps
alike, and changes nothing else: entries of one order keep their sequence, what a key or a path
finds is found again, and a sorted model stays as it is.
-/

namespace Archetype

/-! The stable sort of one list. -/

/-- The second list is the stable sort of the first: it ascends, and the items of each order are
in the sequence they were in. -/
structure StableSort (order : α → Int64) (before after : List α) : Prop where
  ascending : after.Pairwise fun a b => order a ≤ order b
  stable : ∀ n, after.filter (order · = n) = before.filter (order · = n)

section

variable (order : α → Int64)

theorem trans_order (a b c : α) (first : decide (order a ≤ order b) = true)
    (second : decide (order b ≤ order c) = true) : decide (order a ≤ order c) = true :=
  decide_eq_true (Int64.le_trans (of_decide_eq_true first) (of_decide_eq_true second))

theorem total_order (a b : α) :
    (decide (order a ≤ order b) || decide (order b ≤ order a)) = true := by
  simpa using Int64.le_total (order a) (order b)

theorem stableSort_mergeSort (items : List α) :
    StableSort order items (items.mergeSort fun a b => decide (order a ≤ order b)) where
  ascending :=
    (List.pairwise_mergeSort (trans_order order) (total_order order) items).imp of_decide_eq_true
  stable n := by
    -- The items of one order ascend as they stand, so all of them stay in their sequence.
    have level : (items.filter (order · = n)).Pairwise
        fun a b => decide (order a ≤ order b) = true := by
      refine List.pairwise_of_forall_mem_list fun a first b second => ?_
      have first := of_decide_eq_true (List.mem_filter.1 first).2
      have second := of_decide_eq_true (List.mem_filter.1 second).2
      exact decide_eq_true (first.trans second.symm ▸ Int64.le_refl _)
    have inside := List.sublist_mergeSort (trans_order order) (total_order order) level
      List.filter_sublist
    have kept := inside.filter (order · = n)
    simp only [List.filter_filter, Bool.and_self] at kept
    exact (kept.eq_of_length ((List.mergeSort_perm items _).filter _).length_eq.symm).symm

theorem mergeSort_mergeSort (items : List α) :
    (items.mergeSort fun a b => decide (order a ≤ order b)).mergeSort
        (fun a b => decide (order a ≤ order b)) =
      items.mergeSort fun a b => decide (order a ≤ order b) :=
  List.mergeSort_of_pairwise
    (List.pairwise_mergeSort (trans_order order) (total_order order) items)

end

theorem sortOrdered_sortOrdered (items : List (Ordered α)) :
    sortOrdered (sortOrdered items) = sortOrdered items := mergeSort_mergeSort Ordered.order items

/-! Sorting a sorted model. -/

theorem Model.sortLists_eq (lists : List (Entry ModelList)) :
    sortLists lists = lists.map fun entry =>
      { entry with value := sortOrdered (Fragment.sortItems entry.value) } := by
  induction lists with
  | nil => rfl
  | cons entry rest ih => rw [sortLists, ih, List.map_cons]

theorem Model.sortMaps_eq (maps : List (Entry Model)) :
    sortMaps maps = maps.map fun entry => { entry with value := entry.value.sort } := by
  induction maps with
  | nil => rfl
  | cons entry rest ih => rw [sortMaps, ih, List.map_cons]

theorem Fragment.sortItems_eq (items : ModelList) :
    sortItems items = items.map fun item => { item with value := item.value.sort } := by
  induction items with
  | nil => rfl
  | cons item rest ih => rw [sortItems, ih, List.map_cons]

/-! Sorting inside and sorting by order do not get in each other's way. -/

theorem Fragment.sortItems_sortOrdered (items : ModelList) :
    sortItems (sortOrdered items) = sortOrdered (sortItems items) := by
  rw [sortItems_eq, sortItems_eq]
  exact List.map_mergeSort fun _ _ _ _ => rfl

theorem Model.sortLists_mergeSort (lists : List (Entry ModelList)) :
    sortLists (lists.mergeSort fun a b => decide (a.order ≤ b.order)) =
      (sortLists lists).mergeSort fun a b => decide (a.order ≤ b.order) := by
  rw [sortLists_eq, sortLists_eq]
  exact List.map_mergeSort fun _ _ _ _ => rfl

theorem Model.sortMaps_mergeSort (maps : List (Entry Model)) :
    sortMaps (maps.mergeSort fun a b => decide (a.order ≤ b.order)) =
      (sortMaps maps).mergeSort fun a b => decide (a.order ≤ b.order) := by
  rw [sortMaps_eq, sortMaps_eq]
  exact List.map_mergeSort fun _ _ _ _ => rfl

mutual
theorem Model.sort_sort : ∀ model : Model, model.sort.sort = model.sort
  | ⟨values, ⟨lists, _⟩, ⟨maps, _⟩⟩ => by
      simp only [Model.sort, MergeMap.sort, MergeMap.ofEntries, Model.sortLists_mergeSort,
        Model.sortMaps_mergeSort, Model.sortLists_sortLists lists, Model.sortMaps_sortMaps maps,
        mergeSort_mergeSort]

theorem Model.sortLists_sortLists : ∀ lists : List (Entry ModelList),
    Model.sortLists (Model.sortLists lists) = Model.sortLists lists
  | [] => rfl
  | ⟨key, order, items⟩ :: rest => by
      rw [Model.sortLists, Model.sortLists, Fragment.sortItems_sortOrdered,
        Fragment.sortItems_sortItems items, sortOrdered_sortOrdered,
        Model.sortLists_sortLists rest]

theorem Model.sortMaps_sortMaps : ∀ maps : List (Entry Model),
    Model.sortMaps (Model.sortMaps maps) = Model.sortMaps maps
  | [] => rfl
  | ⟨key, order, nested⟩ :: rest => by
      rw [Model.sortMaps, Model.sortMaps, Model.sort_sort nested, Model.sortMaps_sortMaps rest]

theorem Fragment.sort_sort : ∀ fragment : Fragment, fragment.sort.sort = fragment.sort
  | .value _ => rfl
  | .list items => by
      rw [Fragment.sort, Fragment.sort, Fragment.sortItems_sortOrdered,
        Fragment.sortItems_sortItems items, sortOrdered_sortOrdered]
  | .map m => congrArg Fragment.map (Model.sort_sort m)

theorem Fragment.sortItems_sortItems : ∀ items : ModelList,
    Fragment.sortItems (Fragment.sortItems items) = Fragment.sortItems items
  | [] => rfl
  | ⟨order, fragment⟩ :: rest => by
      rw [Fragment.sortItems, Fragment.sortItems, Fragment.sort_sort fragment,
        Fragment.sortItems_sortItems rest]
end

/-! What a sorted map finds. -/

namespace MergeMap

variable {map : MergeMap α}

def mapValues (f : α → β) (map : MergeMap α) : MergeMap β :=
  ofEntries (map.entries.map fun entry => ⟨entry.key, entry.order, f entry.value⟩)

theorem Indexed.mapValues (indexed : map.Indexed) (f : α → β) : (map.mapValues f).Indexed := by
  refine .ofEntries ?_
  rw [List.map_map]
  exact indexed.distinct

theorem entry?_mapValues (indexed : map.Indexed) (f : α → β) (key : String) :
    entry? (map.mapValues f) key =
      (map.entry? key).map fun entry => ⟨entry.key, entry.order, f entry.value⟩ := by
  ext entry
  rw [(indexed.mapValues f).entry?_eq_some, Option.map_eq_some_iff]
  simp only [indexed.entry?_eq_some, MergeMap.mapValues, ofEntries, List.mem_map]
  constructor
  · rintro ⟨⟨old, member, rfl⟩, named⟩
    exact ⟨old, ⟨member, named⟩, rfl⟩
  · rintro ⟨old, ⟨member, named⟩, rfl⟩
    exact ⟨⟨old, member, rfl⟩, named⟩

theorem entry?_sort (indexed : map.Indexed) (key : String) : map.sort.entry? key = map.entry? key :=
  indexed.entry?_congr indexed.sort (fun _ => mem_sort) key

theorem get?_sort (indexed : map.Indexed) (key : String) : map.sort.get? key = map.get? key := by
  rw [get?, get?, entry?_sort indexed]

theorem order?_sort (indexed : map.Indexed) (key : String) :
    map.sort.order? key = map.order? key := by
  rw [order?, order?, entry?_sort indexed]

theorem get?_mapValues (indexed : map.Indexed) (f : α → β) (key : String) :
    (map.mapValues f).get? key = (map.get? key).map f := by
  rw [get?, get?, entry?_mapValues indexed, Option.map_map, Option.map_map]
  rfl

theorem order?_mapValues (indexed : map.Indexed) (f : α → β) (key : String) :
    (map.mapValues f).order? key = map.order? key := by
  rw [order?, order?, entry?_mapValues indexed, Option.map_map]
  rfl

end MergeMap

/-! What a sorted model finds. -/

namespace Model

variable {model : Model}

theorem values_sort (model : Model) : model.sort.values = model.values.sort := by
  obtain ⟨values, ⟨lists, index⟩, ⟨maps, index'⟩⟩ := model
  rfl

theorem lists_sort (model : Model) : model.sort.lists =
    (model.lists.mapValues fun items => sortOrdered (Fragment.sortItems items)).sort := by
  obtain ⟨values, ⟨lists, index⟩, ⟨maps, index'⟩⟩ := model
  rw [sort, sortLists_eq]
  rfl

theorem maps_sort (model : Model) : model.sort.maps = (model.maps.mapValues sort).sort := by
  obtain ⟨values, ⟨lists, index⟩, ⟨maps, index'⟩⟩ := model
  rw [sort, sortMaps_eq]
  rfl

theorem get?_values_sort (apart : model.KeysApart) (key : String) :
    model.sort.values.get? key = model.values.get? key := by
  rw [values_sort, MergeMap.get?_sort apart.values]

theorem get?_maps_sort (apart : model.KeysApart) (key : String) :
    model.sort.maps.get? key = (model.maps.get? key).map sort := by
  rw [maps_sort, MergeMap.get?_sort (apart.maps.mapValues sort),
    MergeMap.get?_mapValues apart.maps]

theorem Keyed.descend? (keyed : model.Keyed) {way : List String} {nested : Model}
    (found : model.descend? way = some nested) : nested.Keyed := by
  induction way generalizing model with
  | nil =>
      cases found
      exact keyed
  | cons key rest ih =>
      obtain ⟨next, here, found⟩ := Option.bind_eq_some_iff.1 found
      exact ih (keyed.below here) found

theorem descend?_sort (keyed : model.Keyed) (way : List String) :
    model.sort.descend? way = (model.descend? way).map sort := by
  induction way generalizing model with
  | nil => rfl
  | cons key rest ih =>
      rw [Model.descend?, Model.descend?, get?_maps_sort (keyed_iff.1 keyed).1]
      cases found : model.maps.get? key with
      | none => rfl
      | some nested => exact ih (keyed.below found)

theorem lookup?_sort (keyed : model.Keyed) (path : String) :
    model.sort.lookup? path = model.lookup? path := by
  unfold lookup?
  rw [get?_values_sort (keyed_iff.1 keyed).1]
  split
  · rfl
  · split
    · rfl
    · next way key cut =>
      rw [descend?_sort keyed]
      cases found : model.descend? ((Text.fields '.' way).map .ofList) with
      | none => rfl
      | some nested => exact get?_values_sort (keyed_iff.1 (keyed.descend? found)).1 _

/-- Every key of the second model has the order and the value that it has in the first, and every
path leads to the same value. -/
structure FindsAs (before after : Model) : Prop where
  valueOrder : ∀ key, after.values.order? key = before.values.order? key
  listOrder : ∀ key, after.lists.order? key = before.lists.order? key
  mapOrder : ∀ key, after.maps.order? key = before.maps.order? key
  value : ∀ key, after.values.get? key = before.values.get? key
  path : ∀ path, after.lookup? path = before.lookup? path

theorem Keyed.findsAs_sort (keyed : model.Keyed) : model.FindsAs model.sort := by
  obtain ⟨apart, -, -⟩ := keyed_iff.1 keyed
  refine ⟨fun key => ?_, fun key => ?_, fun key => ?_, get?_values_sort apart, lookup?_sort keyed⟩
  · rw [values_sort, MergeMap.order?_sort apart.values]
  · rw [lists_sort, MergeMap.order?_sort (apart.lists.mapValues _),
      MergeMap.order?_mapValues apart.lists]
  · rw [maps_sort, MergeMap.order?_sort (apart.maps.mapValues _),
      MergeMap.order?_mapValues apart.maps]

end Model

/-! The specification, level by level. -/

inductive Entry.Alike (R : α → α → Prop) : Entry α → Entry α → Prop
  | intro (key : String) (order : Int64) (related : R v w) :
      Entry.Alike R ⟨key, order, v⟩ ⟨key, order, w⟩

inductive Ordered.Alike (R : α → α → Prop) : Ordered α → Ordered α → Prop
  | intro (order : Int64) (related : R v w) : Ordered.Alike R ⟨order, v⟩ ⟨order, w⟩

mutual
/-- Each collection of the second model is the stable sort of that of the first, whose lists and
maps are sorted inside; keys and paths find what they found. -/
inductive Model.SortsTo : Model → Model → Prop
  | intro {before after : Model} {lists : List (Entry ModelList)} {maps : List (Entry Model)}
      (sortsValues : StableSort Entry.order before.values.entries after.values.entries)
      (inLists : List.Forall₂ (Entry.Alike ModelList.SortsTo) before.lists.entries lists)
      (sortsLists : StableSort Entry.order lists after.lists.entries)
      (inMaps : List.Forall₂ (Entry.Alike Model.SortsTo) before.maps.entries maps)
      (sortsMaps : StableSort Entry.order maps after.maps.entries)
      (finds : before.FindsAs after) : Model.SortsTo before after

inductive ModelList.SortsTo : ModelList → ModelList → Prop
  | intro {before after items : ModelList}
      (inItems : List.Forall₂ (Ordered.Alike Fragment.SortsTo) before items)
      (sortsItems : StableSort Ordered.order items after) : ModelList.SortsTo before after

inductive Fragment.SortsTo : Fragment → Fragment → Prop
  | value (v : Value) : Fragment.SortsTo (.value v) (.value v)
  | list (sorts : ModelList.SortsTo before after) : Fragment.SortsTo (.list before) (.list after)
  | map (sorts : Model.SortsTo before after) : Fragment.SortsTo (.map before) (.map after)
end

mutual
theorem Model.Keyed.sortsTo : ∀ {model : Model}, model.Keyed → model.SortsTo model.sort
  | ⟨_, ⟨_, _⟩, ⟨_, _⟩⟩, keyed => by
      obtain ⟨-, inLists, inMaps⟩ := Model.keyed_iff.1 keyed
      exact .intro (stableSort_mergeSort _ _) (Model.sortsTo_sortLists inLists)
        (stableSort_mergeSort _ _) (Model.sortsTo_sortMaps inMaps) (stableSort_mergeSort _ _)
        keyed.findsAs_sort

theorem Model.sortsTo_sortLists : ∀ {lists : List (Entry ModelList)},
    (∀ entry ∈ lists, ModelList.Keyed entry.value) →
      List.Forall₂ (Entry.Alike ModelList.SortsTo) lists (Model.sortLists lists)
  | [], _ => .nil
  | ⟨key, order, _⟩ :: _, keyed => by
      obtain ⟨here, later⟩ := List.forall_mem_cons.1 keyed
      refine .cons (.intro key order ?_) (Model.sortsTo_sortLists later)
      exact .intro (Fragment.sortsTo_sortItems here) (stableSort_mergeSort _ _)

theorem Model.sortsTo_sortMaps : ∀ {maps : List (Entry Model)},
    (∀ entry ∈ maps, entry.value.Keyed) →
      List.Forall₂ (Entry.Alike Model.SortsTo) maps (Model.sortMaps maps)
  | [], _ => .nil
  | ⟨key, order, _⟩ :: _, keyed => by
      obtain ⟨here, later⟩ := List.forall_mem_cons.1 keyed
      exact .cons (.intro key order (Model.Keyed.sortsTo here)) (Model.sortsTo_sortMaps later)

theorem Fragment.Keyed.sortsTo : ∀ {fragment : Fragment}, fragment.Keyed →
    fragment.SortsTo fragment.sort
  | .value v, _ => .value v
  | .list _, keyed => .list (.intro (Fragment.sortsTo_sortItems keyed) (stableSort_mergeSort _ _))
  | .map _, keyed => .map (Model.Keyed.sortsTo keyed)

theorem Fragment.sortsTo_sortItems : ∀ {items : ModelList}, ModelList.Keyed items →
    List.Forall₂ (Ordered.Alike Fragment.SortsTo) items (Fragment.sortItems items)
  | [], _ => .nil
  | ⟨order, _⟩ :: _, keyed => by
      obtain ⟨here, later⟩ := List.forall_mem_append.1 keyed
      exact .cons (.intro order (Fragment.Keyed.sortsTo here)) (Fragment.sortsTo_sortItems later)
end

/-- Sorting a model that the operations build leaves each collection, of every map and every list
at any depth, as the stable sort of what it was, with the same keys, orders and values up to sorting
below. Sorting again changes nothing, and each key has the order and the value that it had and each
path finds what it found, in the model as in every map in it. -/
theorem sorting_orders_every_level {model : Model} (built : model.Built) :
    model.SortsTo model.sort ∧ model.sort.sort = model.sort ∧ model.FindsAs model.sort :=
  ⟨built.keyed.sortsTo, model.sort_sort, built.keyed.findsAs_sort⟩

def fallingModel : Model :=
  let inner := (Model.empty.insertValue "b" 2 (.int 1)).insertValue "a" 1 (.int 2)
  let items := [] ++ [⟨2, .value (.int 3)⟩] ++ [⟨1, .value (.int 4)⟩]
  let listed := [] ++ [⟨5, .map inner⟩] ++ [⟨3, .list items⟩]
  ((Model.empty.mergeMap "m" 9 inner).mergeMap "k" 4 .empty).mergeList "l" 7 listed

theorem sorting_orders_every_level_of_falling : fallingModel.Built ∧
    fallingModel.SortsTo fallingModel.sort ∧ fallingModel.sort.sort = fallingModel.sort ∧
    fallingModel.maps.keys = ["m", "k"] ∧ fallingModel.sort.maps.keys = ["k", "m"] ∧
    fallingModel.sort.maps.order? "m" = some 9 ∧
    fallingModel.sort.lookup? "m.b" = some (.int 1) := by
  have inner := (Model.Built.empty.insertValue "b" 2 (.int 1)).insertValue "a" 1 (.int 2)
  have items := (ModelList.Built.empty.push 2 (.value (.int 3))).push 1 (.value (.int 4))
  have listed := (ModelList.Built.empty.push 5 (.map inner)).push 3 (.list items)
  have built : fallingModel.Built :=
    ((Model.Built.empty.mergeMap "m" 9 inner).mergeMap "k" 4 .empty).mergeList "l" 7 listed
  obtain ⟨sorts, again, finds⟩ := sorting_orders_every_level built
  have sorted : fallingModel.sort.maps.keys = ["k", "m"] := by
    change (List.mergeSort [Entry.mk "m" 9 _, Entry.mk "k" 4 _] fun a b =>
      decide (a.order ≤ b.order)).map (·.key) = _
    simp [List.mergeSort]
  refine ⟨built, sorts, again, by decide +kernel, sorted, ?_, ?_⟩
  · exact (finds.mapOrder "m").trans (by decide +kernel)
  · exact (finds.path "m.b").trans (by decide +kernel)

end Archetype
