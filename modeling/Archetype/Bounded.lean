import Archetype.Error

/-!
Steps of a run. A run may call for more steps than any bound allows, so whatever may go on without
end is given a bound and says when the bound was too low. A higher bound changes no other outcome.
-/

namespace Archetype

/-- A step of a run: it changes a state and may fail, which keeps the changes made before. It gives
nothing if a bound on it was too low for it to end. -/
abbrev Bounded (σ : Type) := ExceptT RunError (StateT σ Option)

namespace Bounded

def ofExcept (result : Except RunError α) : Bounded σ α := fun s => some (result, s)

def outOfBounds : Bounded σ α := fun _ => none

theorem bind_eq (work : Bounded σ α) (next : α → Bounded σ β) (s : σ) :
    (work >>= next) s = (work s).bind fun (result, between) =>
      match result with
      | .ok first => next first between
      | .error error => some (.error error, between) := by
  cases outcome : work s with
  | none => simp [bind, ExceptT.bind, ExceptT.mk, StateT.bind, outcome]
  | some pair =>
      obtain ⟨result, between⟩ := pair
      cases result <;>
        (simp only [bind, ExceptT.bind, ExceptT.mk, StateT.bind, outcome, ExceptT.bindCont]; rfl)

end Bounded

end Archetype
