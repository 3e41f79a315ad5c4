import Archetype.Flatten.CallTable
import Archetype.Walk

/-!
Names made of a text and a number. Distinct numbers make distinct names, so a free name is always
found and no two invocations share a frame. A name that was made fit for paths stays as it is.
-/

namespace Archetype

theorem toString_injective {m n : Nat} (same : toString m = toString n) : m = n := by
  have digits : Nat.ofDigitChars 10 (Nat.repr m).toList 0 =
      Nat.ofDigitChars 10 (Nat.repr n).toList 0 :=
    congrArg (fun text : String => Nat.ofDigitChars 10 text.toList 0) same
  simpa using digits

theorem unmarked_toString (n : Nat) : '#' ∉ (toString n).toList := by
  intro marked
  have member : '#' ∈ Nat.toDigits 10 n := by simpa using marked
  cases Nat.isDigit_of_mem_toDigits (by decide) (by decide) member

theorem Text.isAlphanumeric_of_isDigit {c : Char} (digit : c.isDigit = true) :
    isAlphanumeric c = true := by
  have bounds : 0x30 ≤ c.toNat ∧ c.toNat ≤ 0x39 := by
    simpa [Char.isDigit, UInt32.le_iff_toNat_le] using digit
  refine List.any_eq_true.2 ⟨(0x30, 0x39), List.mem_cons_self .., ?_⟩
  simpa using bounds

namespace ScopePath

def fits (c : Char) : Bool :=
  Text.isAlphanumeric c || c = '_' || c = '-' || c = '#'

theorem sanitize_eq_self {name : String} (fitting : ∀ c ∈ name.toList, fits c = true) :
    sanitize name = name := by
  rw [← String.toList_inj, sanitize, String.toList_map]
  refine (List.map_congr_left fun c member => ?_).trans (List.map_id _)
  exact if_pos (fitting c member)

theorem fits_of_mem_sanitize {name : String} {c : Char} (member : c ∈ (sanitize name).toList) :
    fits c = true := by
  rw [sanitize, String.toList_map] at member
  obtain ⟨original, -, rfl⟩ := List.mem_map.1 member
  split
  · next fitting => exact fitting
  · decide +kernel

end ScopePath

namespace Scan

open ScopePath

theorem nodup_candidates (base : String) (n : Nat) :
    (base :: (List.range n).map fun i => base ++ "_" ++ toString (i + 2)).Nodup := by
  refine List.nodup_cons.2 ⟨?_, ?_⟩
  · intro member
    obtain ⟨i, -, same⟩ := List.mem_map.1 member
    have length := congrArg String.length same
    simp only [String.length_append] at length
    have short : ("_" : String).length = 1 := rfl
    omega
  · refine List.pairwise_map.2 (List.nodup_range.imp fun {i j} differ same => ?_)
    have suffixes : toString (i + 2) = toString (j + 2) := by simpa using same
    have numbers := toString_injective suffixes
    omega

/-- A fresh name is not taken: there are more candidates than names that are. -/
theorem freshName_not_mem (used : List String) (base : String) : freshName used base ∉ used := by
  unfold freshName
  simp only
  generalize listed : base :: (List.range used.length).map
    (fun i => base ++ "_" ++ toString (i + 2)) = candidates
  cases found : candidates.find? (· ∉ used) with
  | some name => simpa using List.find?_some found
  | none =>
      have taken : candidates ⊆ used := by
        intro name member
        simpa using List.find?_eq_none.1 found name member
      have few := (listed ▸ nodup_candidates base used.length).length_le_of_subset taken
      rw [← listed, List.length_cons, List.length_map, List.length_range] at few
      exact absurd few (Nat.not_succ_le_self _)

theorem freshName_of_not_mem {used : List String} {base : String} (free : base ∉ used) :
    freshName used base = base := by
  unfold freshName
  simp only
  rw [List.find?_cons_of_pos (by simpa using free), Option.getD_some]

theorem freshName_cases (used : List String) (base : String) :
    freshName used base = base ∨ ∃ i : Nat, freshName used base = base ++ "_" ++ toString i := by
  unfold freshName
  simp only
  cases found : (base :: (List.range used.length).map fun i =>
      base ++ "_" ++ toString (i + 2)).find? (· ∉ used) with
  | none => exact .inl rfl
  | some name =>
      rw [Option.getD_some]
      rcases List.mem_cons.1 (List.mem_of_find?_eq_some found) with rfl | member
      · exact .inl rfl
      · obtain ⟨i, -, rfl⟩ := List.mem_map.1 member
        exact .inr ⟨_, rfl⟩

/-- The name for a body is one that sanitizing leaves as it is. -/
theorem sanitize_freshName (used : List String) (base : String) :
    sanitize (freshName used (sanitize base)) = freshName used (sanitize base) := by
  refine sanitize_eq_self fun c member => ?_
  rcases freshName_cases used (sanitize base) with same | ⟨i, same⟩
  · rw [same] at member
    exact fits_of_mem_sanitize member
  · simp only [same, String.toList_append, List.mem_append] at member
    rcases member with (member | member) | member
    · exact fits_of_mem_sanitize member
    · obtain rfl : c = '_' := by simpa using member
      decide +kernel
    · have member : c ∈ Nat.toDigits 10 i := by simpa using member
      have digit := Nat.isDigit_of_mem_toDigits (by decide) (by decide) member
      simp [fits, Text.isAlphanumeric_of_isDigit digit]

end Scan

theorem eq_of_append_mark {a b c d : List Char} (plain : '#' ∉ b) (plain' : '#' ∉ d)
    (same : a ++ '#' :: b = c ++ '#' :: d) : b = d := by
  induction a generalizing c with
  | nil =>
      cases c with
      | nil => simpa using same
      | cons first rest =>
          obtain ⟨rfl, rfl⟩ := List.cons.inj same
          simp at plain
  | cons first rest ih =>
      cases c with
      | nil =>
          obtain ⟨rfl, rfl⟩ := List.cons.inj same
          simp at plain'
      | cons first' rest' => exact ih (List.cons.inj same).2

/-- The frame of an invocation tells its construction number, whatever it invokes. -/
theorem invocationFrame_injective {target target' : String} {id id' : NodeId}
    (same : invocationFrame target id = invocationFrame target' id') : id = id' := by
  have chars := congrArg String.toList same
  simp only [invocationFrame, String.toList_append, List.append_assoc] at chars
  have digits : id.text.toList = id'.text.toList :=
    eq_of_append_mark (unmarked_toString _) (unmarked_toString _) chars
  have numbers := toString_injective (String.toList_inj.1 digits)
  exact congrArg NodeId.mk (UInt64.toNat_inj.1 numbers)

theorem marked_invocationFrame (target : String) (id : NodeId) :
    '#' ∈ (invocationFrame target id).toList := by
  simp [invocationFrame]

end Archetype
