import Archetype.Proofs.Expression.Placeholders
import Archetype.Proofs.Expression.RoundTrip
import Archetype.Proofs.Text.Trimming
import Archetype.Value.Reading

/-!
Lists that pass through text. In the place of a reference a list stands joined by commas, and the
text is read as a list again by cutting it at commas. Whatever is read holds no empty items, no
commas and no blanks at the ends of an item, and every list of such items is read back.
-/

namespace Archetype

namespace Text

/-! Cutting a text at a separator. -/

theorem fields_eq_splitOn (sep : Char) (cs : List Char) : fields sep cs = cs.splitOn sep := by
  induction cs with
  | nil => rfl
  | cons c rest ih =>
      rw [fields, List.splitOn_cons_eq_if_modifyHead, ← ih]
      by_cases same : c = sep
      · simp [same]
      · cases shape : fields sep rest with
        | nil => exact absurd shape (fields_ne_nil sep rest)
        | cons field more => simp [same]

theorem fields_intercalate {sep : Char} {items : List (List Char)} (nonempty : items ≠ [])
    (apart : ∀ item ∈ items, sep ∉ item) : fields sep ([sep].intercalate items) = items := by
  rw [fields_eq_splitOn, List.splitOn_intercalate sep apart nonempty]

theorem not_mem_of_mem_fields {sep : Char} {cs field : List Char} (member : field ∈ fields sep cs) :
    sep ∉ field := by
  induction cs generalizing field with
  | nil =>
      rw [List.mem_singleton.1 member]
      exact List.not_mem_nil
  | cons c rest ih =>
      unfold fields at member
      split at member
      · rcases List.mem_cons.1 member with rfl | member
        · exact List.not_mem_nil
        · exact ih member
      · next other =>
        cases shape : fields sep rest with
        | nil => exact absurd shape (fields_ne_nil sep rest)
        | cons first more =>
            rw [shape] at ih member
            rcases List.mem_cons.1 member with rfl | member
            · have inside := ih (List.mem_cons_self ..)
              exact fun there => (List.mem_cons.1 there).elim (fun same => other same.symm) inside
            · exact ih (List.mem_cons_of_mem _ member)

end Text

/-! Reading a list from a text. -/

namespace Value

/-- An item that is read back from between commas as it is. -/
def Readable (item : String) : Prop :=
  item ≠ "" ∧ ',' ∉ item.toList ∧ Text.trim item = item

theorem readable_of_mem_readItems {s item : String} (member : item ∈ readItems s) :
    Readable item := by
  obtain ⟨cs, inside, kept⟩ := List.mem_filterMap.1 member
  obtain ⟨field, cut, rfl⟩ := List.mem_map.1 inside
  split at kept
  · cases kept
  · next nonempty =>
    obtain rfl := Option.some.inj kept
    refine ⟨fun empty => nonempty ?_, ?_, ?_⟩
    · simpa using congrArg String.toList empty
    · rw [String.toList_ofList]
      exact fun comma => Text.not_mem_of_mem_fields cut (Text.trimmed_subset field comma)
    · rw [Text.trim, String.toList_ofList, Text.trimmed_trimmed]

theorem Readable.trimmed {item : String} (readable : Readable item) :
    Text.trimmed item.toList = item.toList := by
  rw [← Text.toList_trim, readable.2.2]

theorem Readable.toList_ne_nil {item : String} (readable : Readable item) : item.toList ≠ [] :=
  fun none => readable.1 (String.toList_eq_nil_iff.1 none)

theorem readItems_intercalate {items : List String} (readable : ∀ item ∈ items, Readable item) :
    readItems (",".intercalate items) = items := by
  by_cases none : items = []
  · subst none
    decide
  · have joined : Text.trimmed (",".intercalate items).toList =
        [','].intercalate (items.map String.toList) := by
      rw [String.toList_intercalate]
      refine Text.trimmed_intercalate fun cs member => ?_
      obtain ⟨item, inside, rfl⟩ := List.mem_map.1 member
      exact ⟨(readable item inside).toList_ne_nil, (readable item inside).trimmed⟩
    have cut : Text.fields ',' (Text.trimmed (",".intercalate items).toList) =
        items.map String.toList := by
      rw [joined]
      refine Text.fields_intercalate (by simpa using none) fun cs member => ?_
      obtain ⟨item, inside, rfl⟩ := List.mem_map.1 member
      exact (readable item inside).2.1
    rw [readItems, cut, List.map_map, List.filterMap_map]
    refine (List.filterMap_congr fun item member => ?_).trans List.filterMap_some
    have here := readable item member
    simp only [Function.comp_apply, here.trimmed, here.toList_ne_nil, if_false,
      String.ofList_toList]

end Value

/-- A template that is one reference gives the text of the value and nothing else. -/
theorem Template.interpolate_reference {lookup : Variables} {path : String} {v : Value}
    (closed : '\x7d' ∉ path.toList) (tight : Text.trim path = path) (found : lookup path = .ok v) :
    Template.interpolate lookup ("$\x7b" ++ path ++ "\x7d") = .ok v.plain := by
  have written : Layout.Writes ⟨[⟨[], path.toList⟩], []⟩ ("$\x7b" ++ path ++ "\x7d").toList := by
    refine Layout.writes_cons_iff.2 ⟨[], nextRef?_eq_some_iff.2 ⟨?_, by simp, closed⟩,
      Layout.writes_nil_iff.2 ⟨rfl, rfl⟩⟩
    simp
  have here : lookup (Placeholder.name ⟨[], path.toList⟩) = .ok v := by
    rw [Placeholder.name, ← Text.trim, tight, found]
  have filled := fill_of_found [] (.cons here .nil)
  rw [interpolate_eq lookup written, filled]
  simp [Layout.filled, Except.map, ← Value.toList_plain]

/-- A list that is put in the place of a reference and read as a list again always gives a list,
and it is the same one exactly if every item is not empty, holds no comma and has no blanks at its
ends. -/
theorem list_kept_by_text (lookup : Variables) (path : String) (items : List String)
    (closed : '\x7d' ∉ path.toList) (tight : Text.trim path = path)
    (found : lookup path = .ok (.list items)) :
    ∃ items', (Value.string ("$\x7b" ++ path ++ "\x7d")).interpolate lookup >>=
        Value.coerce .list = .ok (.list items') ∧
      (items' = items ↔
        ∀ item ∈ items, item ≠ "" ∧ ',' ∉ item.toList ∧ Text.trim item = item) := by
  refine ⟨Value.readItems (",".intercalate items), ?_, fun same item member => ?_,
    Value.readItems_intercalate⟩
  · rw [Value.interpolate, Template.interpolate_reference closed tight found]
    rfl
  · exact Value.readable_of_mem_readItems (same ▸ member)

def sampleLists : Variables := fun path =>
  if path = "inside" then .ok (.list ["a b", "é"])
  else if path = "before" then .ok (.list ["a", " b"])
  else Variables.none path

theorem list_kept_by_text_with_blanks :
    (Value.string "$\x7binside\x7d").interpolate sampleLists >>= Value.coerce .list =
        .ok (.list ["a b", "é"]) ∧
      (Value.string "$\x7bbefore\x7d").interpolate sampleLists >>= Value.coerce .list ≠
        .ok (.list ["a", " b"]) := by
  constructor
  · obtain ⟨items, reads, same⟩ := list_kept_by_text sampleLists "inside" ["a b", "é"] (by decide)
      (by decide) (by decide)
    rw [same.2 (by decide)] at reads
    exact reads
  · obtain ⟨items, reads, same⟩ := list_kept_by_text sampleLists "before" ["a", " b"] (by decide)
      (by decide) (by decide)
    intro gives
    have changed : items ≠ ["a", " b"] := fun kept => absurd (same.1 kept) (by decide)
    have unchanged := reads.symm.trans gives
    simp only [Except.ok.injEq, Value.list.injEq] at unchanged
    exact changed unchanged

end Archetype
