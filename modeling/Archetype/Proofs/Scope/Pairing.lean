import Archetype.Proofs.Scope.Renaming
import Mathlib.Algebra.Ring.Nat

/-!
Renamings from pairs of names. Names with a number sign that are in no pair make way by growing
longer than any name that another one is renamed to.
-/

namespace Archetype

structure Pairing where
  pairs : List (String × String)
  marked : ∀ name other, (name, other) ∈ pairs → '#' ∈ name.toList ∧ '#' ∈ other.toList
  functional : ∀ name other other', (name, other) ∈ pairs → (name, other') ∈ pairs → other = other'
  injective : ∀ name name' other, (name, other) ∈ pairs → (name', other) ∈ pairs → name = name'

namespace Pairing

variable (pairing : Pairing)

/-- Longer than any name that another one is renamed to. -/
def suffix : String :=
  .ofList (.replicate ((pairing.pairs.map fun pair => pair.2.length).sum + 1) '#')

def apply (name : String) : String :=
  match pairing.pairs.lookup name with
  | some other => other
  | none => if '#' ∈ name.toList then name ++ pairing.suffix else name

theorem apply_of_mem {name other : String} (member : (name, other) ∈ pairing.pairs) :
    pairing.apply name = other := by
  unfold apply
  cases found : pairing.pairs.lookup name with
  | none => simpa using List.lookup_eq_none_iff.1 found _ member
  | some other' =>
      obtain ⟨before, after, split, -⟩ := List.lookup_eq_some_iff.1 found
      exact pairing.functional _ _ _ (by rw [split]; simp) member

theorem apply_of_unpaired {name : String} (unpaired : ∀ other, (name, other) ∉ pairing.pairs) :
    pairing.apply name = if '#' ∈ name.toList then name ++ pairing.suffix else name := by
  have missing : pairing.pairs.lookup name = none := by
    refine List.lookup_eq_none_iff.2 fun pair member => ?_
    simp only [bne_iff_ne, ne_eq]
    rintro rfl
    exact unpaired _ member
  rw [apply, missing]

theorem apply_of_unmarked {name : String} (unmarked : '#' ∉ name.toList) :
    pairing.apply name = name := by
  rw [pairing.apply_of_unpaired fun other member => unmarked (pairing.marked _ _ member).1,
    if_neg unmarked]

theorem length_lt_suffix {name other : String} (member : (name, other) ∈ pairing.pairs) :
    other.length < pairing.suffix.length := by
  obtain ⟨before, after, split⟩ := List.append_of_mem member
  rw [suffix, String.length_ofList, List.length_replicate, split, List.map_append,
    List.sum_append_nat, List.map_cons, List.sum_cons]
  simp only
  omega

/-- A name in no pair is not renamed to what a name in a pair is renamed to. -/
theorem apply_ne_of_unpaired {name other kept : String} (member : (name, other) ∈ pairing.pairs)
    (unpaired : ∀ other, (kept, other) ∉ pairing.pairs) : pairing.apply kept ≠ other := by
  rw [pairing.apply_of_unpaired unpaired]
  split
  · intro same
    have longer := pairing.length_lt_suffix member
    rw [← same, String.length_append] at longer
    omega
  · next unmarked =>
      rintro rfl
      exact unmarked (pairing.marked _ _ member).2

theorem apply_injective : Function.Injective pairing.apply := by
  intro name name' same
  by_cases paired : ∃ other, (name, other) ∈ pairing.pairs
  · obtain ⟨other, member⟩ := paired
    rw [pairing.apply_of_mem member] at same
    by_cases paired' : ∃ other, (name', other) ∈ pairing.pairs
    · obtain ⟨other', member'⟩ := paired'
      rw [pairing.apply_of_mem member'] at same
      exact pairing.injective _ _ _ member (same ▸ member')
    · exact absurd same.symm (pairing.apply_ne_of_unpaired member (not_exists.1 paired'))
  · by_cases paired' : ∃ other, (name', other) ∈ pairing.pairs
    · obtain ⟨other', member'⟩ := paired'
      rw [pairing.apply_of_mem member'] at same
      exact absurd same (pairing.apply_ne_of_unpaired member' (not_exists.1 paired))
    · rw [pairing.apply_of_unpaired (not_exists.1 paired),
        pairing.apply_of_unpaired (not_exists.1 paired')] at same
      split at same <;> split at same
      · exact (String.append_left_inj _).1 same
      · next marked unmarked =>
          subst same
          simp [marked] at unmarked
      · next unmarked marked =>
          subst same
          simp [marked] at unmarked
      · exact same

def toRenaming : Renaming where
  apply := pairing.apply
  injective := pairing.apply_injective
  keeps _ unmarked := pairing.apply_of_unmarked unmarked

end Pairing

end Archetype
