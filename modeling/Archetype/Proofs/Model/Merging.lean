import Archetype.Proofs.Model.Keys
import Mathlib.Data.List.Find

/-!
Merging models that do not contend for keys. The entries of the second model go to those of the
first under the same keys, in their places, and the others follow; so it does not matter how merges
are grouped, and an empty model adds nothing on either side.
-/

namespace Archetype

/-! Entries put together. -/

namespace Entry

variable {α : Type} {f : Entry α → Entry α → Entry α}

/-- An entry with what is under its key among others put into it. -/
def absorb (f : Entry α → Entry α → Entry α) (others : List (Entry α)) (entry : Entry α) :
    Entry α :=
  ((others.find? (·.key = entry.key)).map (f entry)).getD entry

/-- The entries of two lists together: those of the first in their places, with those of the second
under the same keys put into them, and then the others of the second. -/
def combine (f : Entry α → Entry α → Entry α) (first second : List (Entry α)) : List (Entry α) :=
  first.map (absorb f second) ++ second.filter fun entry => entry.key ∉ first.map (·.key)

theorem key_of_find? {entries : List (Entry α)} {key : String} {entry : Entry α}
    (found : entries.find? (·.key = key) = some entry) : entry.key = key := by
  simpa using List.find?_some found

variable (keeps : ∀ a b, (f a b).key = a.key)
include keeps

theorem key_absorb (others : List (Entry α)) (entry : Entry α) :
    (absorb f others entry).key = entry.key := by
  unfold absorb
  cases others.find? (·.key = entry.key) with
  | none => rfl
  | some other => exact keeps entry other

theorem mem_keys_combine {first second : List (Entry α)} {key : String} :
    key ∈ (combine f first second).map (·.key) ↔
      key ∈ first.map (·.key) ∨ key ∈ second.map (·.key) := by
  have kept : (combine f first second).map (·.key) =
      first.map (·.key) ++ (second.map (·.key)).filter (· ∉ first.map (·.key)) := by
    rw [combine, List.map_append, List.map_map, List.filter_map]
    exact congrArg (· ++ _) (List.map_congr_left fun entry _ => key_absorb keeps second entry)
  rw [kept, List.mem_append, List.mem_filter, decide_eq_true_eq]
  tauto

theorem find?_combine (first second : List (Entry α)) (key : String) :
    (combine f first second).find? (·.key = key) =
      ((first.find? (·.key = key)).map (absorb f second)).or (second.find? (·.key = key)) := by
  rw [combine, List.find?_append, List.find?_map]
  simp only [Function.comp_def, key_absorb keeps]
  cases found : first.find? (·.key = key) with
  | some entry => rfl
  | none =>
      have absent : key ∉ first.map (·.key) := by
        intro member
        obtain ⟨entry, member, named⟩ := List.mem_map.1 member
        exact List.find?_eq_none.1 found entry member (decide_eq_true named)
      rw [Option.map_none, Option.none_or, Option.none_or, List.find?_filter]
      refine List.find?_congr fun entry _ => ?_
      by_cases named : entry.key = key
      · simp [named, absent]
      · simp [named]

/-- Grouping does not matter if it does not for three entries under one key. -/
theorem combine_assoc {first second third : List (Entry α)}
    (assoc : ∀ a ∈ first, ∀ b ∈ second, ∀ c ∈ third, b.key = a.key → c.key = a.key →
      f (f a b) c = f a (f b c)) :
    combine f (combine f first second) third = combine f first (combine f second third) := by
  have front : first.map (absorb f third ∘ absorb f second) =
      first.map (absorb f (combine f second third)) := by
    refine List.map_congr_left fun a member => ?_
    rw [Function.comp_apply]
    unfold absorb
    rw [find?_combine keeps]
    cases inSecond : second.find? (·.key = a.key) with
    | none => rfl
    | some b =>
        have named : b.key = a.key := key_of_find? inSecond
        simp only [Option.map_some, Option.getD_some, Option.some_or, absorb, keeps, named]
        cases inThird : third.find? (·.key = a.key) with
        | none => rfl
        | some c =>
            exact assoc a member b (List.mem_of_find?_eq_some inSecond) c
              (List.mem_of_find?_eq_some inThird) named (key_of_find? inThird)
  have middle : (second.filter fun b => b.key ∉ first.map (·.key)).map (absorb f third) =
      (second.map (absorb f third)).filter fun b => b.key ∉ first.map (·.key) := by
    rw [List.filter_map]
    simp only [Function.comp_def, key_absorb keeps]
  have back : (third.filter fun c => c.key ∉ (combine f first second).map (·.key)) =
      (third.filter fun c => c.key ∉ second.map (·.key)).filter
        fun c => c.key ∉ first.map (·.key) := by
    rw [List.filter_filter]
    refine List.filter_congr fun c _ => ?_
    simp [mem_keys_combine keeps, not_or]
  calc combine f (combine f first second) third
      = ((first.map (absorb f second)).map (absorb f third)
          ++ (second.filter fun b => b.key ∉ first.map (·.key)).map (absorb f third))
          ++ third.filter fun c => c.key ∉ (combine f first second).map (·.key) := by
        rw [combine, combine, List.map_append]
    _ = first.map (absorb f (combine f second third))
          ++ (second.map (absorb f third)
            ++ third.filter fun c => c.key ∉ second.map (·.key)).filter
              fun c => c.key ∉ first.map (·.key) := by
        rw [List.map_map, front, middle, back, List.append_assoc,
          List.filter_append]
    _ = combine f first (combine f second third) := rfl

omit keeps

theorem combine_present {first : List (Entry α)} {entry : Entry α}
    (present : entry.key ∈ first.map (·.key)) :
    combine f first [entry] =
      first.map fun old => if old.key = entry.key then f old entry else old := by
  rw [combine, List.filter_cons_of_neg (by simpa using present), List.filter_nil, List.append_nil]
  refine List.map_congr_left fun old _ => ?_
  by_cases same : old.key = entry.key
  · simp [absorb, same]
  · simp [absorb, same, Ne.symm same]

theorem map_absorb_of_apart {first others : List (Entry α)}
    (apart : ∀ entry ∈ first, entry.key ∉ others.map (·.key)) :
    first.map (absorb f others) = first := by
  refine (List.map_congr_left fun entry member => ?_).trans (List.map_id first)
  have missing : others.find? (·.key = entry.key) = none :=
    List.find?_eq_none.2 fun other inside same =>
      apart entry member (List.mem_map.2 ⟨other, inside, of_decide_eq_true same⟩)
  rw [absorb, missing]
  rfl

theorem combine_nil (first : List (Entry α)) : combine f first [] = first := by
  rw [combine, map_absorb_of_apart fun _ _ => List.not_mem_nil, List.filter_nil, List.append_nil]

theorem combine_empty (second : List (Entry α)) : combine f [] second = second :=
  List.filter_eq_self.2 fun _ _ => decide_eq_true List.not_mem_nil

theorem combine_absent {first : List (Entry α)} {entry : Entry α}
    (absent : entry.key ∉ first.map (·.key)) : combine f first [entry] = first ++ [entry] := by
  have apart : ∀ old ∈ first, old.key ∉ [entry].map (·.key) := fun old member same =>
    absent (List.mem_map.2 ⟨old, member, List.mem_singleton.1 same⟩)
  rw [combine, map_absorb_of_apart apart, List.filter_cons_of_pos (by simpa using absent),
    List.filter_nil]

theorem combine_fresh {entry : Entry α} {rest : List (Entry α)}
    (fresh : entry.key ∉ rest.map (·.key)) : combine f [entry] rest = entry :: rest := by
  have kept : (rest.filter fun other => other.key ∉ [entry].map (·.key)) = rest :=
    List.filter_eq_self.2 fun other member => decide_eq_true fun same =>
      fresh (List.mem_map.2 ⟨other, member, List.mem_singleton.1 same⟩)
  rw [combine, kept, map_absorb_of_apart (List.forall_mem_singleton.2 fresh)]
  rfl

def overwrite (old new : Entry α) : Entry α := { old with order := new.order, value := new.value }

def grow (g : α → α → α) (old new : Entry α) : Entry α :=
  { old with value := g old.value new.value }

end Entry

namespace MergeMap

open Entry (combine overwrite grow)

variable {α : Type} {map : MergeMap α}

theorem entries_insert (indexed : map.Indexed) (entry : Entry α) :
    (map.insert entry.key entry.order entry.value).entries =
      combine overwrite map.entries [entry] := by
  rw [insert]
  cases position : map.position? entry.key with
  | none => exact (Entry.combine_absent (indexed.position?_eq_none.1 position)).symm
  | some i =>
      have present := List.mem_of_getElem? (indexed.position?_eq_some.1 position)
      rw [Entry.combine_present present]
      exact indexed.modify_eq_map position _

theorem entries_place (indexed : map.Indexed) (g : α → α → α) (entry : Entry α) :
    (if map.contains entry.key then map.update entry.key (g · entry.value)
      else map.insert entry.key entry.order entry.value).entries =
      combine (grow g) map.entries [entry] := by
  rw [contains, update, insert]
  cases position : map.position? entry.key with
  | none => exact (Entry.combine_absent (indexed.position?_eq_none.1 position)).symm
  | some i =>
      have present := List.mem_of_getElem? (indexed.position?_eq_some.1 position)
      rw [Entry.combine_present present]
      exact indexed.modify_eq_map position _

/-- Entries under distinct keys that are put into a map one by one. -/
theorem foldl_eq_combine {f : Entry α → Entry α → Entry α} (keeps : ∀ a b, (f a b).key = a.key)
    {step : MergeMap α → Entry α → MergeMap α}
    (one : ∀ (map : MergeMap α) entry, map.Indexed →
      (step map entry).Indexed ∧ (step map entry).entries = combine f map.entries [entry])
    {entries : List (Entry α)} (distinct : (entries.map (·.key)).Nodup) (indexed : map.Indexed) :
    entries.foldl step map = ofEntries (combine f map.entries entries) ∧
      (entries.foldl step map).Indexed := by
  induction entries generalizing map with
  | nil => exact ⟨(Entry.combine_nil map.entries).symm ▸ indexed.eq_ofEntries, indexed⟩
  | cons entry rest ih =>
      rw [List.map_cons, List.nodup_cons] at distinct
      obtain ⟨indexed', placed⟩ := one map entry indexed
      obtain ⟨same, shaped⟩ := ih distinct.2 indexed'
      refine ⟨?_, shaped⟩
      rw [List.foldl_cons, same, placed, Entry.combine_assoc keeps,
        Entry.combine_fresh distinct.1]
      -- No entry of the rest is under the key of this one.
      intro old _ new single later member named again
      rw [List.mem_singleton.1 single] at named
      exact absurd (List.mem_map.2 ⟨later, member, again.trans named.symm⟩) distinct.1

theorem erase_of_absent (indexed : map.Indexed) {key : String} (absent : key ∉ map.keys) :
    map.erase key = map := by
  rw [erase, indexed.position?_eq_none.2 absent]

theorem foldl_insert (indexed : map.Indexed) {entries : List (Entry α)}
    (distinct : (entries.map (·.key)).Nodup) :
    entries.foldl (fun map entry => map.insert entry.key entry.order entry.value) map =
        ofEntries (combine overwrite map.entries entries) ∧
      (entries.foldl (fun map entry => map.insert entry.key entry.order entry.value) map).Indexed :=
  foldl_eq_combine (f := overwrite) (fun _ _ => rfl)
    (fun _ entry indexed => ⟨indexed.insert _ _ _, entries_insert indexed entry⟩) distinct indexed

theorem foldl_place (indexed : map.Indexed) (g : α → α → α) {entries : List (Entry α)}
    (distinct : (entries.map (·.key)).Nodup) :
    entries.foldl (fun map entry =>
        if map.contains entry.key then map.update entry.key (g · entry.value)
        else map.insert entry.key entry.order entry.value) map =
      ofEntries (combine (grow g) map.entries entries) ∧
    (entries.foldl (fun map entry =>
        if map.contains entry.key then map.update entry.key (g · entry.value)
        else map.insert entry.key entry.order entry.value) map).Indexed :=
  foldl_eq_combine (f := grow g) (fun _ _ => rfl)
    (fun _ entry indexed => ⟨indexed.place _ _ _ _, entries_place indexed g entry⟩) distinct indexed

end MergeMap

/-! The keys that two models share. -/

inductive Collection where
  | values
  | lists
  | maps

namespace Model

def keysOf (model : Model) : Collection → List String
  | .values => model.values.keys
  | .lists => model.lists.keys
  | .maps => model.maps.keys

/-- Every key that the models share is in the same collection of both, and the maps under shared
keys are compatible. -/
inductive Compatible : Model → Model → Prop
  | intro {first second : Model}
      (together : ∀ key ∈ first.keys, key ∈ second.keys →
        ∃ collection, key ∈ first.keysOf collection ∧ key ∈ second.keysOf collection)
      (below : ∀ key nested other, first.maps.get? key = some nested →
        second.maps.get? key = some other → Compatible nested other) : Compatible first second

theorem mem_keys {model : Model} {key : String} :
    key ∈ model.keys ↔ ∃ collection, key ∈ model.keysOf collection := by
  rw [keys, List.mem_append, List.mem_append, or_assoc]
  constructor
  · rintro (inside | inside | inside)
    · exact ⟨.values, inside⟩
    · exact ⟨.lists, inside⟩
    · exact ⟨.maps, inside⟩
  · rintro ⟨_ | _ | _, inside⟩
    · exact .inl inside
    · exact .inr (.inl inside)
    · exact .inr (.inr inside)

theorem KeysApart.collection_unique {model : Model} (apart : model.KeysApart) {key : String}
    {c d : Collection} (one : key ∈ model.keysOf c) (other : key ∈ model.keysOf d) : c = d := by
  have once := List.nodup_iff_count_le_one.1 apart.distinct key
  rw [count_keys] at once
  have here := List.count_pos_iff.2 one
  have there := List.count_pos_iff.2 other
  cases c <;> cases d <;> grind [keysOf]

namespace Compatible

variable {first second : Model}

theorem of_keysOf (same : ∀ collection, first.keysOf collection = second.keysOf collection)
    (below : ∀ key nested other, first.maps.get? key = some nested →
      second.maps.get? key = some other → nested.Compatible other) : first.Compatible second := by
  refine .intro (fun key here _ => ?_) below
  obtain ⟨collection, inside⟩ := mem_keys.1 here
  exact ⟨collection, inside, same collection ▸ inside⟩

theorem symm (compatible : first.Compatible second) : second.Compatible first := by
  induction compatible with
  | intro together _ ih =>
      refine .intro (fun key here there => ?_) fun key nested other found found' =>
        ih key other nested found' found
      obtain ⟨collection, one, two⟩ := together key there here
      exact ⟨collection, two, one⟩

theorem collection_unique (compatible : first.Compatible second) (apart : first.KeysApart)
    (apart' : second.KeysApart) {key : String} {c d : Collection} (one : key ∈ first.keysOf c)
    (other : key ∈ second.keysOf d) : c = d := by
  obtain ⟨together, -⟩ := compatible
  obtain ⟨e, inFirst, inSecond⟩ := together key (mem_keys.2 ⟨c, one⟩) (mem_keys.2 ⟨d, other⟩)
  exact (apart.collection_unique one inFirst).trans (apart'.collection_unique inSecond other)

end Compatible

/-! Merging, collection by collection. -/

def joinValues (first second : MergeMap Value) : MergeMap Value :=
  .ofEntries (Entry.combine Entry.overwrite first.entries second.entries)

def joinLists (first second : MergeMap ModelList) : MergeMap ModelList :=
  .ofEntries (Entry.combine (Entry.grow (· ++ ·)) first.entries second.entries)

def joinMaps (first second : MergeMap Model) : MergeMap Model :=
  .ofEntries (Entry.combine (Entry.grow merge) first.entries second.entries)

def union (first second : Model) : Model :=
  ⟨joinValues first.values second.values, joinLists first.lists second.lists,
    joinMaps first.maps second.maps⟩

theorem foldl_within {σ β : Type} (build : σ → Model) {step : Model → β → Model}
    {inner : σ → β → σ} {items : List β}
    (one : ∀ s, ∀ item ∈ items, step (build s) item = build (inner s item)) (s : σ) :
    items.foldl step (build s) = build (items.foldl inner s) := by
  induction items generalizing s with
  | nil => rfl
  | cons item rest ih =>
      rw [List.foldl_cons, List.foldl_cons, one s item List.mem_cons_self]
      exact ih (fun s later member => one s later (List.mem_cons_of_mem _ member)) _

section

variable {values : MergeMap Value} {lists : MergeMap ModelList} {maps : MergeMap Model}

theorem foldl_insertValue (inLists : lists.Indexed) (inMaps : maps.Indexed)
    {entries : List (Entry Value)}
    (apart : ∀ entry ∈ entries, entry.key ∉ lists.keys ∧ entry.key ∉ maps.keys) :
    entries.foldl (fun model entry => insertValue model entry.key entry.order entry.value)
        (mk values lists maps) =
      mk (entries.foldl (fun map entry => map.insert entry.key entry.order entry.value) values)
        lists maps := by
  refine foldl_within (mk · lists maps) (fun values entry member => ?_) values
  obtain ⟨notList, notMap⟩ := apart entry member
  exact congrArg₂ (mk _) (MergeMap.erase_of_absent inLists notList)
    (MergeMap.erase_of_absent inMaps notMap)

theorem foldl_mergeList (inValues : values.Indexed) (inMaps : maps.Indexed)
    {entries : List (Entry ModelList)}
    (apart : ∀ entry ∈ entries, entry.key ∉ values.keys ∧ entry.key ∉ maps.keys) :
    entries.foldl (fun model entry => mergeList model entry.key entry.order entry.value)
        (mk values lists maps) =
      mk values (entries.foldl (fun map entry =>
        if map.contains entry.key then map.update entry.key (· ++ entry.value)
        else map.insert entry.key entry.order entry.value) lists) maps := by
  refine foldl_within (mk values · maps) (fun lists entry member => ?_) lists
  obtain ⟨notValue, notMap⟩ := apart entry member
  exact congrArg₂ (mk · _ ·) (MergeMap.erase_of_absent inValues notValue)
    (MergeMap.erase_of_absent inMaps notMap)

theorem mergeMaps_eq (inValues : values.Indexed) (inLists : lists.Indexed)
    {entries : List (Entry Model)}
    (apart : ∀ entry ∈ entries, entry.key ∉ values.keys ∧ entry.key ∉ lists.keys) :
    mergeMaps (mk values lists maps) entries =
      mk values lists (entries.foldl (fun map entry =>
        if map.contains entry.key then map.update entry.key (merge · entry.value)
        else map.insert entry.key entry.order entry.value) maps) := by
  induction entries generalizing maps with
  | nil => rfl
  | cons entry rest ih =>
      obtain ⟨⟨notValue, notList⟩, later⟩ := List.forall_mem_cons.1 apart
      rw [mergeMaps, placeMap, List.foldl_cons, ← ih later]
      exact congrArg₂ (fun values lists => mergeMaps (mk values lists _) rest)
        (MergeMap.erase_of_absent inValues notValue) (MergeMap.erase_of_absent inLists notList)

end

theorem mem_keys_joinValues {first second : MergeMap Value} {key : String} :
    key ∈ (joinValues first second).keys ↔ key ∈ first.keys ∨ key ∈ second.keys :=
  Entry.mem_keys_combine (f := Entry.overwrite) fun _ _ => rfl

theorem mem_keys_joinLists {first second : MergeMap ModelList} {key : String} :
    key ∈ (joinLists first second).keys ↔ key ∈ first.keys ∨ key ∈ second.keys :=
  Entry.mem_keys_combine (f := Entry.grow (· ++ ·)) fun _ _ => rfl

theorem mem_keys_joinMaps {first second : MergeMap Model} {key : String} :
    key ∈ (joinMaps first second).keys ↔ key ∈ first.keys ∨ key ∈ second.keys :=
  Entry.mem_keys_combine (f := Entry.grow merge) fun _ _ => rfl

theorem merge_eq_union {first second : Model} (apart : first.KeysApart) (apart' : second.KeysApart)
    (compatible : first.Compatible second) : first.merge second = first.union second := by
  -- A key of the second model is in no other collection of either.
  have absent : ∀ {key} c d, c ≠ d → key ∈ second.keysOf d →
      key ∉ first.keysOf c ∧ key ∉ second.keysOf c := fun c d differ inside =>
    ⟨fun other => differ (compatible.collection_unique apart apart' other inside),
      fun other => differ (apart'.collection_unique other inside)⟩
  obtain ⟨values, lists, maps⟩ := first
  obtain ⟨values', lists', ⟨maps', index⟩⟩ := second
  have inValues : values.Indexed := apart.values
  have inLists : lists.Indexed := apart.lists
  have inMaps : maps.Indexed := apart.maps
  obtain ⟨allValues, joined⟩ : _ = joinValues values values' ∧ _ :=
    MergeMap.foldl_insert inValues apart'.values.distinct
  obtain ⟨allLists, joined'⟩ : _ = joinLists lists lists' ∧ _ :=
    MergeMap.foldl_place inLists (· ++ ·) apart'.lists.distinct
  obtain ⟨allMaps, -⟩ : _ = joinMaps maps ⟨maps', index⟩ ∧ _ :=
    MergeMap.foldl_place inMaps merge apart'.maps.distinct
  rw [allValues] at joined
  rw [allLists] at joined'
  rw [merge, mergeLeaves, foldl_insertValue inLists inMaps, allValues,
    foldl_mergeList joined inMaps, allLists, mergeMaps_eq joined joined', allMaps]
  · rfl
  · intro entry member
    have inside : entry.key ∈ maps'.map (·.key) := List.mem_map_of_mem member
    rw [mem_keys_joinValues, mem_keys_joinLists, not_or, not_or]
    exact ⟨absent .values .maps nofun inside, absent .lists .maps nofun inside⟩
  · intro entry member
    have inside : entry.key ∈ lists'.keys := List.mem_map_of_mem member
    rw [mem_keys_joinValues, not_or]
    exact ⟨absent .values .lists nofun inside, (absent .maps .lists nofun inside).1⟩
  · intro entry member
    have inside : entry.key ∈ values'.keys := List.mem_map_of_mem member
    exact ⟨(absent .lists .values nofun inside).1, (absent .maps .values nofun inside).1⟩

variable {first second third : Model}

theorem mem_keysOf_merge (apart : first.KeysApart) (apart' : second.KeysApart)
    (compatible : first.Compatible second) {key : String} (collection : Collection) :
    key ∈ (first.merge second).keysOf collection ↔
      key ∈ first.keysOf collection ∨ key ∈ second.keysOf collection := by
  rw [merge_eq_union apart apart' compatible]
  cases collection with
  | values => exact mem_keys_joinValues
  | lists => exact mem_keys_joinLists
  | maps => exact mem_keys_joinMaps

/-- The map under a key is that of either model, or the two merged. -/
theorem get?_maps_merge (keyed : first.Keyed) (keyed' : second.Keyed)
    (compatible : first.Compatible second) (key : String) :
    (first.merge second).maps.get? key =
      Option.merge merge (first.maps.get? key) (second.maps.get? key) := by
  have apart := (keyed_iff.1 keyed).1
  have apart' := (keyed_iff.1 keyed').1
  have merged := (keyed_iff.1 (keyed.merge keyed')).1.maps
  have joined : (first.merge second).maps.entries =
      Entry.combine (Entry.grow merge) first.maps.entries second.maps.entries := by
    rw [merge_eq_union apart apart' compatible]
    rfl
  simp only [MergeMap.get?, merged.entry?_eq_find?, apart.maps.entry?_eq_find?,
    apart'.maps.entry?_eq_find?, joined, Entry.find?_combine (f := Entry.grow merge) fun _ _ => rfl]
  cases here : first.maps.entries.find? (·.key = key) with
  | none => cases second.maps.entries.find? (·.key = key) <;> rfl
  | some entry =>
      simp only [Option.map_some, Option.some_or, Entry.absorb, Entry.key_of_find? here]
      cases second.maps.entries.find? (·.key = key) <;> rfl

/-- What is compatible with two models is compatible with the two merged. -/
theorem Compatible.merge (keyed : first.Keyed) (keyed' : second.Keyed)
    (compatible : first.Compatible second) (one : first.Compatible third)
    (other : second.Compatible third) : (first.merge second).Compatible third := by
  induction one generalizing second with
  | @intro first third together below ih =>
      have inMerged := @mem_keysOf_merge _ _ (keyed_iff.1 keyed).1 (keyed_iff.1 keyed').1 compatible
      obtain ⟨together', below'⟩ := other
      refine .intro (fun key here there => ?_) fun key nested deep found found' => ?_
      · obtain ⟨collection, here⟩ := mem_keys.1 here
        rcases (inMerged collection).1 here with here | here
        · obtain ⟨same, inFirst, inThird⟩ := together key (mem_keys.2 ⟨collection, here⟩) there
          exact ⟨same, (inMerged same).2 (.inl inFirst), inThird⟩
        · obtain ⟨same, inSecond, inThird⟩ := together' key (mem_keys.2 ⟨collection, here⟩) there
          exact ⟨same, (inMerged same).2 (.inr inSecond), inThird⟩
      · rw [get?_maps_merge keyed keyed' compatible] at found
        cases inFirst : first.maps.get? key with
        | none =>
            rw [inFirst, Option.merge_none_left] at found
            exact below' key nested deep found found'
        | some m =>
            cases inSecond : second.maps.get? key with
            | none =>
                rw [inFirst, inSecond, Option.merge_none_right] at found
                exact below key nested deep (inFirst.trans found) found'
            | some n =>
                rw [inFirst, inSecond] at found
                cases found
                obtain ⟨-, shared⟩ := compatible
                exact ih key m deep inFirst found' (keyed.below inFirst) (keyed'.below inSecond)
                  (shared key m n inFirst inSecond) (below' key n deep inSecond found')

/-! Three models. -/

theorem joinValues_assoc (first second third : MergeMap Value) :
    joinValues (joinValues first second) third = joinValues first (joinValues second third) :=
  congrArg MergeMap.ofEntries
    (Entry.combine_assoc (f := Entry.overwrite) (fun _ _ => rfl) fun _ _ _ _ _ _ _ _ => rfl)

theorem joinLists_assoc (first second third : MergeMap ModelList) :
    joinLists (joinLists first second) third = joinLists first (joinLists second third) := by
  refine congrArg MergeMap.ofEntries
    (Entry.combine_assoc (f := Entry.grow (· ++ ·)) (fun _ _ => rfl) ?_)
  intro a _ b _ c _ _ _
  simp only [Entry.grow, List.append_assoc]

theorem joinMaps_assoc {first second third : MergeMap Model}
    (assoc : ∀ a ∈ first.entries, ∀ b ∈ second.entries, ∀ c ∈ third.entries,
      b.key = a.key → c.key = a.key →
        (a.value.merge b.value).merge c.value = a.value.merge (b.value.merge c.value)) :
    joinMaps (joinMaps first second) third = joinMaps first (joinMaps second third) := by
  refine congrArg MergeMap.ofEntries
    (Entry.combine_assoc (f := Entry.grow merge) (fun _ _ => rfl) ?_)
  intro a inFirst b inSecond c inThird same same'
  simp only [Entry.grow, assoc a inFirst b inSecond c inThird same same']

theorem merge_assoc (keyed : first.Keyed) (keyed' : second.Keyed) (keyed'' : third.Keyed)
    (one : first.Compatible second) (two : second.Compatible third)
    (three : first.Compatible third) :
    (first.merge second).merge third = first.merge (second.merge third) := by
  induction one generalizing third with
  | @intro first second together below ih =>
      have one : first.Compatible second := .intro together below
      have apart := (keyed_iff.1 keyed).1
      have apart' := (keyed_iff.1 keyed').1
      have apart'' := (keyed_iff.1 keyed'').1
      have left := (keyed_iff.1 (keyed.merge keyed')).1
      have right := (keyed_iff.1 (keyed'.merge keyed'')).1
      have onRight : first.Compatible (second.merge third) :=
        (two.merge keyed' keyed'' one.symm three.symm).symm
      rw [merge_eq_union left apart'' (one.merge keyed keyed' three two),
        merge_eq_union apart right onRight, merge_eq_union apart apart' one,
        merge_eq_union apart' apart'' two]
      simp only [union, values, lists, maps, joinValues_assoc, joinLists_assoc]
      refine congrArg (mk _ _) (joinMaps_assoc ?_)
      intro a inFirst b inSecond c inThird same same'
      have foundA := apart.maps.get?_eq_some.2 ⟨a, inFirst, rfl, rfl⟩
      have foundB := apart'.maps.get?_eq_some.2 ⟨b, inSecond, same, rfl⟩
      have foundC := apart''.maps.get?_eq_some.2 ⟨c, inThird, same', rfl⟩
      obtain ⟨-, below'⟩ := two
      obtain ⟨-, below''⟩ := three
      exact ih a.key a.value b.value foundA foundB (keyed.below foundA) (keyed'.below foundB)
        (keyed''.below foundC) (below' a.key b.value c.value foundB foundC)
        (below'' a.key a.value c.value foundA foundC)

/-! The empty model. -/

theorem compatible_empty (model : Model) : Model.empty.Compatible model :=
  .intro (fun _ inside => nomatch inside) fun _ _ _ found => nomatch found

theorem merge_empty (model : Model) : model.merge .empty = model := by
  obtain ⟨values, lists, maps⟩ := model
  rfl

theorem empty_merge {model : Model} (keyed : model.Keyed) : Model.empty.merge model = model := by
  have apart := (keyed_iff.1 keyed).1
  rw [merge_eq_union (keyed_iff.1 keyed_empty).1 apart (compatible_empty model)]
  obtain ⟨values, lists, maps⟩ := model
  have inValues : values.Indexed := apart.values
  have inLists : lists.Indexed := apart.lists
  have inMaps : maps.Indexed := apart.maps
  show mk (.ofEntries (Entry.combine _ [] values.entries))
    (.ofEntries (Entry.combine _ [] lists.entries))
    (.ofEntries (Entry.combine _ [] maps.entries)) = _
  rw [Entry.combine_empty, Entry.combine_empty, Entry.combine_empty, ← inValues.eq_ofEntries,
    ← inLists.eq_ofEntries, ← inMaps.eq_ofEntries]

end Model

/-- Of models that the operations build and that are compatible, each with each, it does not matter
whether the second is merged into the first before the third is, or the third into the second
before both go into the first: the results are equal, with the places and orders of all entries.
And an empty model adds nothing, on either side. -/
theorem merging_associative :
    (∀ first second third : Model, first.Built → second.Built → third.Built →
      first.Compatible second → second.Compatible third → first.Compatible third →
        (first.merge second).merge third = first.merge (second.merge third)) ∧
      ∀ model : Model, model.Built →
        Model.empty.merge model = model ∧ model.merge .empty = model :=
  ⟨fun _ _ _ one two three => Model.merge_assoc one.keyed two.keyed three.keyed,
    fun model built => ⟨Model.empty_merge built.keyed, model.merge_empty⟩⟩

def partModel (v : Value) (order : Int64) : Model :=
  ((Model.empty.insertValue "x" order v).mergeList "l" order ([] ++ [⟨order, .value v⟩])).mergeMap
    "m" order (Model.empty.insertValue "y" order v)

theorem partModel_built (v : Value) (order : Int64) : (partModel v order).Built :=
  ((Model.Built.empty.insertValue "x" order v).mergeList "l" order
    (.push .empty order (.value v))).mergeMap "m" order (Model.Built.empty.insertValue "y" order v)

theorem partModel_compatible (v w : Value) (order order' : Int64) :
    (partModel v order).Compatible (partModel w order') := by
  have single : ∀ {v : Value} {order : Int64} {key : String} {nested : Model},
      (partModel v order).maps.get? key = some nested →
        nested = Model.empty.insertValue "y" order v := by
    intro v order key nested found
    have apart := (Model.keyed_iff.1 (partModel_built v order).keyed).1
    obtain ⟨entry, member, -, rfl⟩ := apart.maps.get?_eq_some.1 found
    rw [List.mem_singleton.1 member]
  refine .of_keysOf (fun collection => by cases collection <;> rfl) ?_
  intro key nested other here there
  rw [single here, single there]
  exact .of_keysOf (fun collection => by cases collection <;> rfl) fun _ _ _ none => nomatch none

theorem merging_associative_of_three_parts :
    let one := partModel (.int 1) 5
    let two := partModel (.int 2) 3
    let three := partModel (.int 3) 4
    one.Built ∧ two.Built ∧ three.Built ∧ one.Compatible two ∧ two.Compatible three ∧
      one.Compatible three ∧ (one.merge two).merge three = one.merge (two.merge three) ∧
      Model.empty.merge one = one ∧ one.merge .empty = one ∧
      ((one.merge two).merge three).values.entries = [⟨"x", 4, .int 3⟩] ∧
      ((one.merge two).merge three).lists.order? "l" = some 5 := by
  intro one two three
  have builtOne : one.Built := partModel_built _ _
  have builtTwo : two.Built := partModel_built _ _
  have builtThree : three.Built := partModel_built _ _
  have first : one.Compatible two := partModel_compatible _ _ _ _
  have second : two.Compatible three := partModel_compatible _ _ _ _
  have both : one.Compatible three := partModel_compatible _ _ _ _
  obtain ⟨assoc, empty⟩ := merging_associative
  obtain ⟨left, right⟩ := empty one builtOne
  exact ⟨builtOne, builtTwo, builtThree, first, second, both,
    assoc _ _ _ builtOne builtTwo builtThree first second both, left, right, by decide +kernel,
    by decide +kernel⟩

end Archetype
