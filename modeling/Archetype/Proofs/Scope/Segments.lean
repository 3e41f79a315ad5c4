import Archetype.Scope.Path

/-!
The names in a path are made of its characters.
-/

namespace Archetype

theorem Text.trimmed_subset (cs : List Char) : Text.trimmed cs ⊆ cs := by
  intro c member
  have inner := List.mem_reverse.1 member
  have outer := List.mem_reverse.1 (List.dropWhile_subset _ inner)
  exact List.dropWhile_subset _ outer

namespace ScopePath

theorem subset_of_name_mem_named {cs : List Char} {name : String}
    (member : .name name ∈ named cs) : name.toList ⊆ cs := by
  unfold named at member
  split at member
  · cases member
  · cases List.mem_singleton.1 member
    rw [String.toList_ofList]
    exact Text.trimmed_subset cs

theorem subset_of_name_mem_relative {cs : List Char} {name : String}
    (member : .name name ∈ relative cs) : name.toList ⊆ cs := by
  fun_induction relative cs with
  | case1 => cases member
  | case2 rest ih =>
      cases member with
      | tail _ member => exact fun c inside => .tail _ (.tail _ (ih member inside))
  | case3 rest _ ih => exact fun c inside => .tail _ (ih member inside)
  | case4 c rest _ _ ih =>
      rcases List.mem_append.1 member with member | member
      · intro d inside
        rcases List.mem_cons.1 (subset_of_name_mem_named member inside) with rfl | inside
        · exact .head _
        · exact .tail _ (List.takeWhile_subset _ inside)
      · intro d inside
        exact .tail _ (List.dropWhile_subset _ (List.drop_subset _ _ (ih member inside)))

theorem subset_of_name_mem_segments {path name : String}
    (member : .name name ∈ segments path) : name.toList ⊆ path.toList := by
  unfold segments at member
  have trimmed := Text.trimmed_subset path.toList
  split at member
  · next rest eq =>
      rw [eq] at trimmed
      cases member with
      | tail _ member =>
          exact fun c inside =>
            trimmed (.tail _ (.tail _ (subset_of_name_mem_relative member inside)))
  · next rest _ eq =>
      rw [eq] at trimmed
      cases member with
      | tail _ member =>
          exact fun c inside => trimmed (.tail _ (subset_of_name_mem_relative member inside))
  · exact fun c inside => trimmed (subset_of_name_mem_relative member inside)

end ScopePath

end Archetype
