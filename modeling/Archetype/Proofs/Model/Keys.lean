import Archetype.Model.Json
import Archetype.Model.Merge
import Archetype.Model.Sort
import Archetype.Proofs.Model.Index

/-!
A key of a model lives in one place: it is in one of the three collections only, and once, in the
model itself and in every map nested in it, however the model was put together. So no object of its
JSON names a member twice.
-/

namespace Archetype

mutual
/-- The model and all maps that are nested in it, through lists and maps. -/
def Model.allMaps : Model → List Model
  | ⟨values, ⟨lists, index⟩, ⟨maps, index'⟩⟩ =>
      ⟨values, ⟨lists, index⟩, ⟨maps, index'⟩⟩ :: (Model.mapsInLists lists ++ Model.mapsInMaps maps)

def Model.mapsInLists : List (Entry (List (Ordered Fragment))) → List Model
  | [] => []
  | ⟨_, _, items⟩ :: rest => Fragment.mapsInItems items ++ Model.mapsInLists rest

def Model.mapsInMaps : List (Entry Model) → List Model
  | [] => []
  | ⟨_, _, nested⟩ :: rest => nested.allMaps ++ Model.mapsInMaps rest

def Fragment.allMaps : Fragment → List Model
  | .value _ => []
  | .list items => Fragment.mapsInItems items
  | .map m => m.allMaps

def Fragment.mapsInItems : List (Ordered Fragment) → List Model
  | [] => []
  | ⟨_, fragment⟩ :: rest => fragment.allMaps ++ Fragment.mapsInItems rest
end

mutual
/-- The members of every object in a JSON document, at any depth. -/
def Json.objects : Json → List (List (String × Json))
  | .array items => Json.objectsInItems items
  | .object members => members :: Json.objectsInMembers members
  | _ => []

def Json.objectsInItems : List Json → List (List (String × Json))
  | [] => []
  | item :: rest => item.objects ++ Json.objectsInItems rest

def Json.objectsInMembers : List (String × Json) → List (List (String × Json))
  | [] => []
  | (_, json) :: rest => json.objects ++ Json.objectsInMembers rest
end

mutual
/-- The models that the operations build from empty maps and lists. -/
inductive Model.Built : Model → Prop
  | empty : Model.Built .empty
  | insertValue (built : Model.Built model) (key : String) (order : Int64) (v : Value) :
      Model.Built (model.insertValue key order v)
  | mergeList (built : Model.Built model) (key : String) (order : Int64)
      (list : ModelList.Built items) : Model.Built (model.mergeList key order items)
  | mergeMap (built : Model.Built model) (key : String) (order : Int64)
      (map : Model.Built nested) : Model.Built (model.mergeMap key order nested)
  | merge (built : Model.Built model) (more : Model.Built other) : Model.Built (model.merge other)
  | sort (built : Model.Built model) : Model.Built model.sort

inductive ModelList.Built : ModelList → Prop
  | empty : ModelList.Built []
  | push (list : ModelList.Built items) (order : Int64) (part : Fragment.Built fragment) :
      ModelList.Built (items ++ [⟨order, fragment⟩])
  | merge (list : ModelList.Built items) (more : ModelList.Built others) :
      ModelList.Built (items ++ others)

inductive Fragment.Built : Fragment → Prop
  | value (v : Value) : Fragment.Built (.value v)
  | list (list : ModelList.Built items) : Fragment.Built (.list items)
  | map (map : Model.Built model) : Fragment.Built (.map model)
end

/-- No key is in two collections of the model or twice in one, and each collection finds its own. -/
structure Model.KeysApart (model : Model) : Prop where
  distinct : model.keys.Nodup
  values : model.values.Indexed
  lists : model.lists.Indexed
  maps : model.maps.Indexed

def Model.Keyed (model : Model) : Prop := ∀ nested ∈ model.allMaps, nested.KeysApart

def ModelList.Keyed (items : ModelList) : Prop :=
  ∀ nested ∈ Fragment.mapsInItems items, nested.KeysApart

def Fragment.Keyed (fragment : Fragment) : Prop := ∀ nested ∈ fragment.allMaps, nested.KeysApart

/-! What is nested in models and lists. -/

theorem Model.mem_mapsInLists {nested : Model} {lists : List (Entry ModelList)} :
    nested ∈ Model.mapsInLists lists ↔
      ∃ entry ∈ lists, nested ∈ Fragment.mapsInItems entry.value := by
  induction lists with
  | nil => simp [mapsInLists]
  | cons entry rest ih => simp [mapsInLists, ih]

theorem Model.mem_mapsInMaps {nested : Model} {maps : List (Entry Model)} :
    nested ∈ Model.mapsInMaps maps ↔ ∃ entry ∈ maps, nested ∈ entry.value.allMaps := by
  induction maps with
  | nil => simp [mapsInMaps]
  | cons entry rest ih => simp [mapsInMaps, ih]

theorem Fragment.mapsInItems_append (items more : ModelList) :
    mapsInItems (items ++ more) = mapsInItems items ++ mapsInItems more := by
  induction items with
  | nil => rfl
  | cons item rest ih => simp [mapsInItems, ih]

theorem Model.keyed_iff {model : Model} : model.Keyed ↔ model.KeysApart ∧
    (∀ entry ∈ model.lists.entries, ModelList.Keyed entry.value) ∧
      ∀ entry ∈ model.maps.entries, entry.value.Keyed := by
  obtain ⟨values, ⟨lists, index⟩, ⟨maps, index'⟩⟩ := model
  have inside : ∀ {p : Model → Prop}, (∀ nested ∈ Model.mapsInLists lists, p nested) ↔
      ∀ entry ∈ lists, ∀ nested ∈ Fragment.mapsInItems entry.value, p nested := by
    intro p
    simp only [mem_mapsInLists]
    constructor
    · intro all entry member nested there
      exact all nested ⟨entry, member, there⟩
    · intro all nested there
      obtain ⟨entry, member, there⟩ := there
      exact all entry member nested there
  have below : ∀ {p : Model → Prop}, (∀ nested ∈ Model.mapsInMaps maps, p nested) ↔
      ∀ entry ∈ maps, ∀ nested ∈ entry.value.allMaps, p nested := by
    intro p
    simp only [mem_mapsInMaps]
    constructor
    · intro all entry member nested there
      exact all nested ⟨entry, member, there⟩
    · intro all nested there
      obtain ⟨entry, member, there⟩ := there
      exact all entry member nested there
  rw [Keyed, allMaps, List.forall_mem_cons, List.forall_mem_append, inside, below]
  rfl

theorem Model.Keyed.below {model nested : Model} (keyed : model.Keyed) {key : String}
    (found : model.maps.get? key = some nested) : nested.Keyed := by
  obtain ⟨apart, -, inMaps⟩ := keyed_iff.1 keyed
  obtain ⟨entry, member, -, rfl⟩ := apart.maps.get?_eq_some.1 found
  exact inMaps entry member

theorem ModelList.keyed_append {items more : ModelList} (first : ModelList.Keyed items)
    (second : ModelList.Keyed more) : ModelList.Keyed (items ++ more) := by
  rw [ModelList.Keyed, Fragment.mapsInItems_append]
  exact List.forall_mem_append.2 ⟨first, second⟩

/-! Keys of a model, counted: at most one of each. -/

namespace Model

variable {model : Model}

theorem count_keys (model : Model) (key : String) : model.keys.count key =
    model.values.keys.count key + model.lists.keys.count key + model.maps.keys.count key := by
  rw [keys, List.count_append, List.count_append]

/-- Keys stay apart when one of them is put into one collection and taken out of the others. -/
theorem KeysApart.placed (apart : model.KeysApart) {placed : Model} (key : String)
    (values : placed.values.Indexed) (lists : placed.lists.Indexed) (maps : placed.maps.Indexed)
    (counts : ∀ other, placed.keys.count other =
      if other = key then 1 else model.keys.count other) : placed.KeysApart where
  distinct := by
    refine List.nodup_iff_count_le_one.2 fun other => ?_
    rw [counts]
    split
    · exact Nat.le_refl 1
    · exact List.nodup_iff_count_le_one.1 apart.distinct other
  values := values
  lists := lists
  maps := maps

theorem keyed_empty : Model.empty.Keyed := by
  refine keyed_iff.2 ⟨⟨.nil, .empty, .empty, .empty⟩, ?_, ?_⟩
  · intro entry member
    cases member
  · intro entry member
    cases member

theorem Keyed.insertValue (keyed : model.Keyed) (key : String) (order : Int64) (v : Value) :
    (model.insertValue key order v).Keyed := by
  obtain ⟨apart, lists, maps⟩ := keyed_iff.1 keyed
  refine keyed_iff.2 ⟨?_, MergeMap.forall_erase lists, MergeMap.forall_erase maps⟩
  refine apart.placed key (apart.values.insert key order v) (apart.lists.erase key)
    (apart.maps.erase key) fun other => ?_
  rw [count_keys, count_keys, Model.insertValue, Model.values, Model.lists, Model.maps,
    MergeMap.count_insert apart.values, MergeMap.count_erase apart.lists,
    MergeMap.count_erase apart.maps]
  split <;> rfl

theorem Keyed.mergeList (keyed : model.Keyed) (key : String) (order : Int64) {items : ModelList}
    (new : ModelList.Keyed items) : (model.mergeList key order items).Keyed := by
  obtain ⟨apart, lists, maps⟩ := keyed_iff.1 keyed
  refine keyed_iff.2 ⟨?_, ?_, MergeMap.forall_erase maps⟩
  · refine apart.placed key (apart.values.erase key)
      (apart.lists.place key order items (· ++ items)) (apart.maps.erase key) fun other => ?_
    rw [count_keys, count_keys, Model.mergeList, Model.values, Model.lists, Model.maps,
      MergeMap.count_erase apart.values, MergeMap.count_place apart.lists,
      MergeMap.count_erase apart.maps]
    split <;> rfl
  · exact MergeMap.forall_place lists new fun old keyed => ModelList.keyed_append keyed new

theorem Keyed.placeMap (keyed : model.Keyed) (key : String) (order : Int64) {fresh : Model}
    {grow : Model → Model} (new : fresh.Keyed)
    (step : ∀ old : Model, old.Keyed → (grow old).Keyed) :
    (model.placeMap key order fresh grow).Keyed := by
  obtain ⟨apart, lists, maps⟩ := keyed_iff.1 keyed
  refine keyed_iff.2 ⟨?_, MergeMap.forall_erase lists, ?_⟩
  · refine apart.placed key (apart.values.erase key) (apart.lists.erase key)
      (apart.maps.place key order fresh grow) fun other => ?_
    rw [count_keys, count_keys, Model.placeMap, Model.values, Model.lists, Model.maps,
      MergeMap.count_erase apart.values, MergeMap.count_erase apart.lists,
      MergeMap.count_place apart.maps]
    split <;> rfl
  · exact MergeMap.forall_place maps new step

theorem Keyed.mergeLeaves (keyed : model.Keyed) (values : List (Entry Value))
    {lists : List (Entry ModelList)} (new : ∀ entry ∈ lists, ModelList.Keyed entry.value) :
    (model.mergeLeaves values lists).Keyed := by
  unfold Model.mergeLeaves
  have leaves : (values.foldl (fun model entry =>
      model.insertValue entry.key entry.order entry.value) model).Keyed := by
    induction values generalizing model with
    | nil => exact keyed
    | cons entry rest ih => exact ih (keyed.insertValue entry.key entry.order entry.value)
  generalize values.foldl (fun model entry =>
    model.insertValue entry.key entry.order entry.value) model = start at leaves
  induction lists generalizing start with
  | nil => exact leaves
  | cons entry rest ih =>
      obtain ⟨here, later⟩ := List.forall_mem_cons.1 new
      exact ih later _ (leaves.mergeList entry.key entry.order here)

mutual
theorem Keyed.merge : ∀ {model other : Model}, model.Keyed → other.Keyed → (model.merge other).Keyed
  | model, ⟨values, lists, ⟨maps, index⟩⟩, keyed, more => by
      obtain ⟨-, inLists, inMaps⟩ := keyed_iff.1 more
      exact Keyed.mergeMaps (keyed.mergeLeaves values.entries inLists) inMaps

theorem Keyed.mergeMaps : ∀ {model : Model} {maps : List (Entry Model)}, model.Keyed →
    (∀ entry ∈ maps, entry.value.Keyed) → (model.mergeMaps maps).Keyed
  | model, [], keyed, _ => keyed
  | model, ⟨key, order, nested⟩ :: rest, keyed, more => by
      obtain ⟨here, later⟩ := List.forall_mem_cons.1 more
      have grown : (model.placeMap key order nested fun old => old.merge nested).Keyed :=
        keyed.placeMap key order here fun old keyed => Keyed.merge keyed here
      rw [Model.mergeMaps]
      exact Keyed.mergeMaps grown later
end

end Model

/-! Sorting. -/

theorem Model.keys_sortLists (lists : List (Entry ModelList)) :
    (sortLists lists).map (·.key) = lists.map (·.key) := by
  induction lists with
  | nil => rfl
  | cons entry rest ih => simp [sortLists, ih]

theorem Model.keys_sortMaps (maps : List (Entry Model)) :
    (sortMaps maps).map (·.key) = maps.map (·.key) := by
  induction maps with
  | nil => rfl
  | cons entry rest ih => simp [sortMaps, ih]

theorem ModelList.keyed_iff {items : ModelList} :
    ModelList.Keyed items ↔ ∀ item ∈ items, item.value.Keyed := by
  induction items with
  | nil => simp [Keyed, Fragment.mapsInItems]
  | cons item rest ih =>
      rw [List.forall_mem_cons, ← ih, Keyed, Fragment.mapsInItems, List.forall_mem_append]
      rfl

theorem ModelList.Keyed.sortOrdered {items : ModelList} (keyed : ModelList.Keyed items) :
    ModelList.Keyed (sortOrdered items) := by
  rw [ModelList.keyed_iff] at keyed ⊢
  intro item member
  exact keyed item (List.mem_mergeSort.1 member)

theorem Model.KeysApart.sort {model : Model} (apart : model.KeysApart) : model.sort.KeysApart := by
  obtain ⟨values, ⟨lists, index⟩, ⟨maps, index'⟩⟩ := model
  have listed : (MergeMap.ofEntries (sortLists lists)).keys = lists.map (·.key) :=
    keys_sortLists lists
  have mapped : (MergeMap.ofEntries (sortMaps maps)).keys = maps.map (·.key) := keys_sortMaps maps
  refine ⟨?_, apart.values.sort, .sort (.ofEntries ?_), .sort (.ofEntries ?_)⟩
  · have perm : (Model.sort ⟨values, ⟨lists, index⟩, ⟨maps, index'⟩⟩).keys.Perm
        (Model.keys ⟨values, ⟨lists, index⟩, ⟨maps, index'⟩⟩) := by
      unfold Model.sort Model.keys
      refine ((MergeMap.keys_sort_perm values).append ?_).append ?_
      · exact (MergeMap.keys_sort_perm _).trans (.of_eq listed)
      · exact (MergeMap.keys_sort_perm _).trans (.of_eq mapped)
    exact perm.nodup_iff.2 apart.distinct
  · rw [keys_sortLists]
    exact apart.lists.distinct
  · rw [keys_sortMaps]
    exact apart.maps.distinct

mutual
theorem Model.Keyed.sort : ∀ {model : Model}, model.Keyed → model.sort.Keyed
  | ⟨values, ⟨lists, index⟩, ⟨maps, index'⟩⟩, keyed => by
      obtain ⟨apart, inLists, inMaps⟩ := Model.keyed_iff.1 keyed
      refine Model.keyed_iff.2 ⟨apart.sort, fun entry member => ?_, fun entry member => ?_⟩
      · exact ModelList.keyed_sortLists inLists entry (MergeMap.mem_sort.1 member)
      · exact Model.keyed_sortMaps inMaps entry (MergeMap.mem_sort.1 member)

theorem ModelList.keyed_sortLists : ∀ {lists : List (Entry ModelList)},
    (∀ entry ∈ lists, ModelList.Keyed entry.value) →
      ∀ entry ∈ Model.sortLists lists, ModelList.Keyed entry.value
  | [], _, _, member => by cases member
  | ⟨key, order, items⟩ :: rest, keyed, entry, member => by
      obtain ⟨here, later⟩ := List.forall_mem_cons.1 keyed
      rcases List.mem_cons.1 member with rfl | member
      · exact (ModelList.keyed_sortItems here).sortOrdered
      · exact ModelList.keyed_sortLists later entry member

theorem Model.keyed_sortMaps : ∀ {maps : List (Entry Model)},
    (∀ entry ∈ maps, entry.value.Keyed) → ∀ entry ∈ Model.sortMaps maps, entry.value.Keyed
  | [], _, _, member => by cases member
  | ⟨key, order, nested⟩ :: rest, keyed, entry, member => by
      obtain ⟨here, later⟩ := List.forall_mem_cons.1 keyed
      rcases List.mem_cons.1 member with rfl | member
      · exact Model.Keyed.sort here
      · exact Model.keyed_sortMaps later entry member

theorem Fragment.Keyed.sort : ∀ {fragment : Fragment}, fragment.Keyed → fragment.sort.Keyed
  | .value _, keyed => keyed
  | .list _, keyed => (ModelList.keyed_sortItems keyed).sortOrdered
  | .map _, keyed => Model.Keyed.sort keyed

theorem ModelList.keyed_sortItems : ∀ {items : ModelList}, ModelList.Keyed items →
    ModelList.Keyed (Fragment.sortItems items)
  | [], keyed => keyed
  | ⟨order, fragment⟩ :: rest, keyed => by
      obtain ⟨here, later⟩ := List.forall_mem_append.1 keyed
      exact List.forall_mem_append.2 ⟨Fragment.Keyed.sort here, ModelList.keyed_sortItems later⟩
end

/-! Whatever is built keeps its keys apart. -/

mutual
theorem Model.Built.keyed : ∀ {model : Model}, model.Built → model.Keyed
  | _, .empty => Model.keyed_empty
  | _, .insertValue built key order v => built.keyed.insertValue key order v
  | _, .mergeList built key order list => built.keyed.mergeList key order list.keyed
  | _, .mergeMap built key order map =>
      built.keyed.placeMap key order map.keyed fun _ keyed => keyed.merge map.keyed
  | _, .merge built more => built.keyed.merge more.keyed
  | _, .sort built => built.keyed.sort

theorem ModelList.Built.keyed : ∀ {items : ModelList}, ModelList.Built items →
    ModelList.Keyed items
  | _, .empty => List.forall_mem_nil _
  | _, .push list _ part => by
      refine ModelList.keyed_append list.keyed ?_
      rw [ModelList.keyed_iff, List.forall_mem_singleton]
      exact part.keyed
  | _, .merge list more => ModelList.keyed_append list.keyed more.keyed

theorem Fragment.Built.keyed : ∀ {fragment : Fragment}, fragment.Built → fragment.Keyed
  | _, .value _ => List.forall_mem_nil _
  | _, .list list => list.keyed
  | _, .map map => map.keyed
end

/-! The JSON of a model. -/

theorem Json.objectsInMembers_append (members more : List (String × Json)) :
    objectsInMembers (members ++ more) = objectsInMembers members ++ objectsInMembers more := by
  induction members with
  | nil => rfl
  | cons member rest ih => simp [objectsInMembers, ih]

theorem Value.objects_toJson (v : Value) : v.toJson.objects = [] := by
  cases v with
  | list items =>
      rw [toJson, Json.objects]
      induction items with
      | nil => rfl
      | cons item rest ih => simpa [Json.objectsInItems, Json.objects] using ih
  | _ => rfl

theorem Value.objectsInMembers_toJson (values : List (Entry Value)) :
    Json.objectsInMembers (values.map fun entry => (entry.key, entry.value.toJson)) = [] := by
  induction values with
  | nil => rfl
  | cons entry rest ih => simp [Json.objectsInMembers, Value.objects_toJson, ih]

theorem Model.names_listMembers (lists : List (Entry ModelList)) :
    (listMembers lists).map Prod.fst = lists.map (·.key) := by
  induction lists with
  | nil => rfl
  | cons entry rest ih => simp [listMembers, ih]

theorem Model.names_mapMembers (maps : List (Entry Model)) :
    (mapMembers maps).map Prod.fst = maps.map (·.key) := by
  induction maps with
  | nil => rfl
  | cons entry rest ih => simp [mapMembers, ih]

def Json.namesOf (members : List (String × Json)) : List String := members.map Prod.fst

mutual
/-- The objects of a model's JSON are its maps, in order, each with the keys of the map. -/
theorem Model.names_toJson : ∀ model : Model,
    model.toJson.objects.map Json.namesOf = model.allMaps.map Model.keys
  | ⟨values, ⟨lists, index⟩, ⟨maps, index'⟩⟩ => by
      rw [Model.toJson, Json.objects, Model.allMaps, List.map_cons, List.map_cons,
        Json.objectsInMembers_append, Json.objectsInMembers_append,
        Value.objectsInMembers_toJson, List.nil_append, List.map_append, List.map_append,
        Model.names_inLists, Model.names_inMaps]
      refine congrArg (· :: _) ?_
      rw [Json.namesOf, List.map_append, List.map_append, Model.names_listMembers,
        Model.names_mapMembers,
        List.map_map]
      rfl

theorem Model.names_inLists : ∀ lists : List (Entry ModelList),
    (Json.objectsInMembers (Model.listMembers lists)).map Json.namesOf =
      (Model.mapsInLists lists).map Model.keys
  | [] => rfl
  | ⟨key, order, items⟩ :: rest => by
      rw [Model.listMembers, Json.objectsInMembers, Model.mapsInLists, List.map_append,
        List.map_append, Json.objects, Fragment.names_inItems, Model.names_inLists]

theorem Model.names_inMaps : ∀ maps : List (Entry Model),
    (Json.objectsInMembers (Model.mapMembers maps)).map Json.namesOf =
      (Model.mapsInMaps maps).map Model.keys
  | [] => rfl
  | ⟨key, order, nested⟩ :: rest => by
      rw [Model.mapMembers, Json.objectsInMembers, Model.mapsInMaps, List.map_append,
        List.map_append, Model.names_toJson, Model.names_inMaps]

theorem Fragment.names_toJson : ∀ fragment : Fragment,
    fragment.toJson.objects.map Json.namesOf = fragment.allMaps.map Model.keys
  | .value v => by
      rw [Fragment.toJson, Value.objects_toJson]
      rfl
  | .list items => by
      rw [Fragment.toJson, Json.objects, Fragment.allMaps]
      exact Fragment.names_inItems items
  | .map m => by
      rw [Fragment.toJson, Fragment.allMaps]
      exact Model.names_toJson m

theorem Fragment.names_inItems : ∀ items : ModelList,
    (Json.objectsInItems (Fragment.items items)).map Json.namesOf =
      (Fragment.mapsInItems items).map Model.keys
  | [] => rfl
  | ⟨order, fragment⟩ :: rest => by
      rw [Fragment.items, Json.objectsInItems, Fragment.mapsInItems, List.map_append,
        List.map_append, Fragment.names_toJson, Fragment.names_inItems]
end

/-- In a model that the operations build, and in every map nested in it, each key is in one
collection and once; so no object of its JSON, at any depth, has two members of one name. -/
theorem keys_in_one_place {model : Model} (built : model.Built) :
    (∀ nested ∈ model.allMaps, nested.KeysApart) ∧
      ∀ members ∈ model.toJson.objects, (Json.namesOf members).Nodup := by
  refine ⟨built.keyed, ?_⟩
  intro members member
  have named : Json.namesOf members ∈ model.allMaps.map Model.keys := by
    rw [← Model.names_toJson]
    exact List.mem_map_of_mem member
  obtain ⟨nested, inside, same⟩ := List.mem_map.1 named
  rw [← same]
  exact (built.keyed nested inside).distinct

/-- A value and a list of maps, and two fragments that put a map and a value in their place. -/
def replacedModel : Model :=
  let listed := (Model.empty.insertValue "a" 1 (.string "x")).mergeList "b" 2
    ([] ++ [⟨0, .map (Model.empty.insertValue "a" 3 .null)⟩])
  let fragment := (Model.empty.mergeMap "a" 5 (Model.empty.insertValue "b" 0 (.int 1))).insertValue
    "b" 0 (.bool true)
  (listed.merge fragment).sort

/-- Each key is where it was put last. -/
theorem keys_in_one_place_of_replaced : replacedModel.Built ∧
    replacedModel.values.keys = ["b"] ∧ replacedModel.lists.keys = [] ∧
    replacedModel.maps.keys = ["a"] ∧
    (∀ nested ∈ replacedModel.allMaps, nested.KeysApart) ∧
    ∀ members ∈ replacedModel.toJson.objects, (Json.namesOf members).Nodup := by
  have listed := (Model.Built.empty.insertValue "a" 1 (.string "x")).mergeList "b" 2
    (.push .empty 0 (.map (Model.Built.empty.insertValue "a" 3 .null)))
  have fragment := (Model.Built.empty.mergeMap "a" 5
    (Model.Built.empty.insertValue "b" 0 (.int 1))).insertValue "b" 0 (.bool true)
  have built : replacedModel.Built := (listed.merge fragment).sort
  exact ⟨built, by decide +kernel, by decide +kernel, by decide +kernel, keys_in_one_place built⟩

end Archetype
