/-!
Texts made of fields: cutting a text at a separator, and cutting a text in two at the first or the
last separator.
-/

namespace Archetype.Text

/-- The fields of a text between separators. There is always at least one field. -/
def fields (sep : Char) : List Char → List (List Char)
  | [] => [[]]
  | c :: rest =>
      if c = sep then [] :: fields sep rest
      else
        match fields sep rest with
        | field :: more => (c :: field) :: more
        | [] => [[c]]

theorem fields_ne_nil (sep : Char) (cs : List Char) : fields sep cs ≠ [] := by
  cases cs with
  | nil => simp [fields]
  | cons c rest =>
      unfold fields
      split
      · simp
      · split <;> simp

def cutFirst? (sep : Char) : List Char → Option (List Char × List Char)
  | [] => none
  | c :: rest =>
      if c = sep then some ([], rest)
      else (cutFirst? sep rest).map fun (before, after) => (c :: before, after)

theorem length_cutFirst? {sep : Char} {cs before after : List Char}
    (h : cutFirst? sep cs = some (before, after)) : after.length < cs.length := by
  induction cs generalizing before with
  | nil => simp [cutFirst?] at h
  | cons c rest ih =>
      unfold cutFirst? at h
      split at h
      · simp_all
      · obtain ⟨⟨b, a⟩, hrest, heq⟩ := Option.map_eq_some_iff.1 h
        simp only [Prod.mk.injEq] at heq
        have := ih (heq.2 ▸ hrest)
        simp; omega

theorem cutFirst?_eq_some_iff {sep : Char} {cs before after : List Char} :
    cutFirst? sep cs = some (before, after) ↔ cs = before ++ sep :: after ∧ sep ∉ before := by
  induction cs generalizing before with
  | nil => simp [cutFirst?]
  | cons c rest ih =>
      unfold cutFirst?
      by_cases same : c = sep
      · subst same
        cases before with
        | nil => simp
        | cons b before =>
            refine iff_of_false (by simp) ?_
            rintro ⟨whole, absent⟩
            exact absent (List.mem_cons.2 (.inl (List.cons.inj whole).1))
      · simp only [if_neg same, Option.map_eq_some_iff, Prod.exists, Prod.mk.injEq]
        constructor
        · rintro ⟨b, a, found, rfl, rfl⟩
          obtain ⟨rfl, absent⟩ := ih.1 found
          exact ⟨rfl, by simp [absent, Ne.symm same]⟩
        · rintro ⟨whole, absent⟩
          cases before with
          | nil => exact absurd (List.cons.inj whole).1 same
          | cons b before =>
              obtain ⟨rfl, rfl⟩ := List.cons.inj whole
              have found := ih.2 ⟨rfl, fun inside => absent (List.mem_cons_of_mem _ inside)⟩
              exact ⟨before, after, found, rfl, rfl⟩

theorem cutFirst?_eq_none_iff {sep : Char} {cs : List Char} :
    cutFirst? sep cs = none ↔ sep ∉ cs := by
  induction cs with
  | nil => simp [cutFirst?]
  | cons c rest ih =>
      unfold cutFirst?
      split
      · next same => simp [same]
      · next other => simp [ih, Ne.symm other]

def cutLast? (sep : Char) : List Char → Option (List Char × List Char)
  | [] => none
  | c :: rest =>
      match cutLast? sep rest with
      | some (before, after) => some (c :: before, after)
      | none => if c = sep then some ([], rest) else none

def dropOpening? : (opening text : List Char) → Option (List Char)
  | [], text => some text
  | _ :: _, [] => none
  | o :: opening, c :: text => if o = c then dropOpening? opening text else none

theorem eq_append_of_dropOpening? {opening text rest : List Char}
    (h : dropOpening? opening text = some rest) : text = opening ++ rest := by
  induction opening generalizing text with
  | nil => simpa [dropOpening?] using h
  | cons o opening ih =>
      cases text with
      | nil => simp [dropOpening?] at h
      | cons c text =>
          by_cases hc : o = c
          · simp only [dropOpening?, hc, if_true] at h
            simp [hc, ih h]
          · simp [dropOpening?, hc] at h

/-- The text without an opening, taken away at most so many times. -/
def dropOpening (opening : List Char) : Nat → List Char → List Char
  | 0, text => text
  | n + 1, text =>
      match dropOpening? opening text with
      | some rest => dropOpening opening n rest
      | none => text

def dropOpenings (opening text : List Char) : List Char :=
  dropOpening opening text.length text

def dropEndings (ending text : List Char) : List Char :=
  (dropOpenings ending.reverse text.reverse).reverse

end Archetype.Text
