import Archetype.Text.Blank
import Mathlib.Data.List.DropRight

/-!
Trimmed texts. A text is trimmed to nothing if it is blank, and trimming leaves it alone if it
neither begins nor ends with a blank; texts joined from such ones are left alone too.
-/

namespace Archetype.Text

theorem trimmed_eq_rdropWhile (cs : List Char) :
    trimmed cs = (cs.dropWhile isBlank).rdropWhile isBlank := rfl

theorem trimmed_eq_nil_iff {cs : List Char} :
    trimmed cs = [] ↔ ∀ c ∈ cs, isBlank c = true := by
  rw [trimmed_eq_rdropWhile, List.rdropWhile_eq_nil_iff]
  refine ⟨fun blank => ?_, fun blank => ?_⟩
  · rw [← List.takeWhile_append_dropWhile (p := isBlank) (l := cs)]
    exact fun c member => (List.mem_append.1 member).elim List.mem_takeWhile_imp (blank c)
  · exact fun c member => blank c (List.dropWhile_subset _ member)

theorem trimmed_eq_self_iff {cs : List Char} :
    trimmed cs = cs ↔
      (∀ c ∈ cs.head?, isBlank c = false) ∧ ∀ c ∈ cs.getLast?, isBlank c = false := by
  constructor
  · intro kept
    have shorter : cs.length ≤ (cs.dropWhile isBlank).length := by
      have prefixed := (List.rdropWhile_prefix isBlank (cs.dropWhile isBlank)).length_le
      rwa [← trimmed_eq_rdropWhile, kept] at prefixed
    have front : cs.dropWhile isBlank = cs :=
      (List.dropWhile_suffix isBlank).eq_of_length_le shorter
    rw [trimmed_eq_rdropWhile, front, List.rdropWhile_eq_self_iff] at kept
    refine ⟨fun c first => ?_, fun c last => ?_⟩
    · have stops := List.head?_dropWhile_not isBlank cs
      rw [front, Option.mem_def.1 first] at stops
      exact stops
    · obtain ⟨nonempty, rfl⟩ := List.mem_getLast?_eq_getLast last
      exact Bool.eq_false_iff.2 (kept nonempty)
  · rintro ⟨opens, closes⟩
    have front : cs.dropWhile isBlank = cs := by
      refine List.dropWhile_eq_self_iff.2 fun nonempty => Bool.eq_false_iff.1 (opens _ ?_)
      rw [List.head?_eq_getElem?, List.getElem?_eq_getElem nonempty, Option.mem_def]
    rw [trimmed_eq_rdropWhile, front]
    refine List.rdropWhile_eq_self_iff.2 fun nonempty => Bool.eq_false_iff.1 (closes _ ?_)
    rw [List.getLast?_eq_some_getLast nonempty, Option.mem_def]

theorem trimmed_intercalate {sep : Char} {items : List (List Char)}
    (tight : ∀ item ∈ items, item ≠ [] ∧ trimmed item = item) :
    trimmed ([sep].intercalate items) = [sep].intercalate items := by
  induction items with
  | nil => rfl
  | cons item more ih =>
      obtain ⟨⟨nonempty, here⟩, later⟩ := List.forall_mem_cons.1 tight
      cases more with
      | nil => rwa [List.intercalate_singleton]
      | cons next more =>
          have ends := trimmed_eq_self_iff.1 (ih later)
          have filled : [sep].intercalate (next :: more) ≠ [] := by
            have first := (later next (List.mem_cons_self ..)).1
            cases more with
            | nil => rwa [List.intercalate_singleton]
            | cons _ _ => simp [List.intercalate_cons_cons]
          rw [List.intercalate_cons_cons]
          refine trimmed_eq_self_iff.2 ⟨fun c first => ?_, fun c last => ?_⟩
          · rw [List.append_assoc, List.head?_append_of_ne_nil _ nonempty] at first
            exact (trimmed_eq_self_iff.1 here).1 c first
          · rw [List.getLast?_append_of_ne_nil _ filled] at last
            exact ends.2 c last

end Archetype.Text
