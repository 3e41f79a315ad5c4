import Archetype.Proofs.Expression.Agreement
import Archetype.Proofs.Scope.Renamed
import Archetype.Proofs.Walk.Outcome

/-!
Work that goes alike over renamed scopes: from trees that differ by a renaming, both sides run out
of bounds, both fail, or both give the same value and the same state and leave trees that differ by
the renaming. Putting work together keeps this.
-/

namespace Archetype

variable {ρ : Renaming}

/-- Outcomes over scopes before and after a renaming. Errors may name a scope, so they count as
alike whatever they say. -/
inductive AlikeOutcome (ρ : Renaming) :
    Option (Except RunError α × (ScopeTree × σ)) → Option (Except RunError α × (ScopeTree × σ)) →
      Prop
  | outOfBounds : AlikeOutcome ρ none none
  | error : AlikeOutcome ρ (some (.error error, c)) (some (.error error', c'))
  | ok (renamed : ScopeTree.Renamed ρ a b) :
      AlikeOutcome ρ (some (.ok value, (a, s))) (some (.ok value, (b, s)))

namespace Visit

def Alike (ρ : Renaming) (first second : Visit σ α) : Prop :=
  ∀ a b s, ScopeTree.Renamed ρ a b → AlikeOutcome ρ (first (a, s)) (second (b, s))

theorem alike_pure (value : α) : Alike ρ (pure value : Visit σ α) (pure value) :=
  fun _ _ _ renamed => .ok renamed

theorem alike_throw (error error' : RunError) :
    Alike ρ (throw error : Visit σ α) (throw error') :=
  fun _ _ _ _ => .error

theorem alike_outOfBounds : Alike ρ (Bounded.outOfBounds : Visit σ α) Bounded.outOfBounds :=
  fun _ _ _ _ => .outOfBounds

theorem alike_ofExcept {first second : Except RunError α}
    (same : second.toOption = first.toOption) :
    Alike ρ (Bounded.ofExcept first : Visit σ α) (Bounded.ofExcept second) := by
  intro a b s renamed
  cases first with
  | error error =>
      cases second with
      | error error' => exact .error
      | ok value => cases same
  | ok value =>
      cases second with
      | error error' => cases same
      | ok value' =>
          cases same
          exact .ok renamed

theorem alikeOutcome_bind {work work' : Visit σ α} {next next' : α → Visit σ β}
    {c c' : ScopeTree × σ} (first : AlikeOutcome ρ (work c) (work' c'))
    (rest : ∀ value, Alike ρ (next value) (next' value)) :
    AlikeOutcome ρ ((work >>= next) c) ((work' >>= next') c') := by
  rw [bind_eq, bind_eq]
  cases outcome : work c with
  | none =>
      cases outcome' : work' c' with
      | none => exact .outOfBounds
      | some pair => rw [outcome, outcome'] at first; cases first
  | some pair =>
      cases outcome' : work' c' with
      | none => rw [outcome, outcome'] at first; cases first
      | some pair' =>
          rw [outcome, outcome'] at first
          cases first with
          | error => exact .error
          | ok renamed => exact rest _ _ _ _ renamed

theorem alike_bind {work work' : Visit σ α} {next next' : α → Visit σ β}
    (first : Alike ρ work work') (rest : ∀ value, Alike ρ (next value) (next' value)) :
    Alike ρ (work >>= next) (work' >>= next') :=
  fun a b s renamed => alikeOutcome_bind (first a b s renamed) rest

/-- Work that looks at the scopes may go by the renaming between them. -/
theorem alike_scope_bind {next next' : ScopeTree → Visit σ α}
    (rest : ∀ a b s, ScopeTree.Renamed ρ a b → AlikeOutcome ρ (next a (a, s)) (next' b (b, s))) :
    Alike ρ (scope >>= next) (scope >>= next') := by
  intro a b s renamed
  rw [bind_eq, bind_eq]
  exact rest a b s renamed

theorem alike_modifyScope {f g : ScopeTree → ScopeTree}
    (renames : ∀ a b, ScopeTree.Renamed ρ a b → ScopeTree.Renamed ρ (f a) (g b)) :
    Alike ρ (modifyScope f : Visit σ Unit) (modifyScope g) :=
  fun a b _ renamed => .ok (renames a b renamed)

theorem alike_state : Alike ρ (state : Visit σ σ) state :=
  fun _ _ _ renamed => .ok renamed

theorem alike_setState (s : σ) : Alike ρ (setState s : Visit σ Unit) (setState s) :=
  fun _ _ _ renamed => .ok renamed

theorem alike_within {name : String} {frame : FrameKind} {work work' : Visit σ Unit}
    (mark : '#' ∈ name.toList → frame = .invocation) (inner : Alike ρ work work') :
    Alike ρ (within name frame work) (within (ρ.apply name) frame work') := by
  intro a b s renamed
  have outcome := inner _ _ s (renamed.push mark)
  rw [within_eq, within_eq]
  generalize work ((a.push name frame).2, s) = first at outcome
  generalize work' ((b.push (ρ.apply name) frame).2, s) = second at outcome
  cases outcome with
  | outOfBounds => exact .outOfBounds
  | error => exact .error
  | ok renamed' =>
      simp only [Option.bind_some, renamed.frames]
      exact .ok (renamed'.leaveTo _)

theorem alike_inFrame {frame : Option (String × FrameKind)} {work work' : Visit σ Unit}
    (plain : ∀ name kind, frame = some (name, kind) → '#' ∉ name.toList)
    (inner : Alike ρ work work') : Alike ρ (inFrame frame work) (inFrame frame work') := by
  cases frame with
  | none => exact inner
  | some frame =>
      obtain ⟨name, kind⟩ := frame
      have unmarked := plain name kind rfl
      have kept : Alike ρ (within name kind work) (within (ρ.apply name) kind work') :=
        alike_within (fun hash => absurd hash unmarked) inner
      rw [ρ.keeps name unmarked] at kept
      exact kept

end Visit

end Archetype
