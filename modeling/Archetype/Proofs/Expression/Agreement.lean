import Archetype.Expression.Evaluation
import Archetype.Template

/-!
Variables that agree. Where two sources give the same values, and fail for the same paths, whatever
the reason, expressions and templates over these paths are worth the same or fail under both.
-/

namespace Archetype

/-- Both sources have the same value at a path, or both have none. -/
def Variables.AgreeAt (first second : Variables) (path : String) : Prop :=
  (first path).toOption = (second path).toOption

theorem toOption_bind (result : Except ε α) (next : α → Except ε β) :
    (result >>= next).toOption = result.toOption.bind fun a => (next a).toOption := by
  cases result <;> rfl

theorem toOption_map (result : Except ε α) (f : α → β) :
    (result.map f).toOption = result.toOption.map f := by
  cases result <;> rfl

variable {first second : Variables}

theorem Expression.evaluate_agree (e : Expression)
    (agree : ∀ path ∈ e.paths, first.AgreeAt second path) :
    (e.evaluate first).toOption = (e.evaluate second).toOption := by
  induction e with
  | literal v => rfl
  | var path => exact agree path (List.mem_singleton_self path)
  | not e ih => simp only [evaluate, toOption_bind, ih agree]
  | sizeOf e ih => simp only [evaluate, toOption_bind, ih agree]
  | logic op l r ihl ihr =>
      have left := ihl fun path member => agree path (List.mem_append_left _ member)
      have right := ihr fun path member => agree path (List.mem_append_right _ member)
      simp only [evaluate, toOption_bind, left, apply_ite Except.toOption, right]
  | compare op l r ihl ihr =>
      have left := ihl fun path member => agree path (List.mem_append_left _ member)
      have right := ihr fun path member => agree path (List.mem_append_right _ member)
      simp only [evaluate, toOption_bind, left, right]

theorem Expression.holds_agree (e : Expression)
    (agree : ∀ path ∈ e.paths, first.AgreeAt second path) :
    (e.holds first).toOption = (e.holds second).toOption := by
  simp only [holds, toOption_bind, e.evaluate_agree agree]

namespace Template

/-- The paths that a template refers to. -/
def paths (template : String) : List String :=
  (pieces template.toList).filterMap fun piece =>
    match piece with
    | .text _ => none
    | .ref path => some path

theorem fill_agree {pieces : List Piece}
    (agree : ∀ path, .ref path ∈ pieces → first.AgreeAt second path) :
    (fill first pieces).toOption = (fill second pieces).toOption := by
  induction pieces with
  | nil => rfl
  | cons piece rest ih =>
      have later := ih fun path member => agree path (List.mem_cons_of_mem _ member)
      cases piece with
      | text s => simp only [fill, toOption_bind, later]
      | ref path =>
          have here : (first path).toOption = (second path).toOption :=
            agree path (List.mem_cons_self ..)
          simp only [fill, toOption_bind, here, later]

theorem interpolate_agree {template : String}
    (agree : ∀ path ∈ paths template, first.AgreeAt second path) :
    (interpolate first template).toOption = (interpolate second template).toOption := by
  simp only [interpolate, toOption_map]
  rw [fill_agree]
  intro path member
  exact agree path (List.mem_filterMap.2 ⟨_, member, rfl⟩)

end Template

end Archetype
