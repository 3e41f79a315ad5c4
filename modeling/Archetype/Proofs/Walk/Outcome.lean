import Archetype.Proofs.Walk.Role

/-!
What work gives when it ends without an error, one equation for each way of putting work together.
-/

namespace Archetype

namespace Visit

def Gives (work : Visit σ α) (before : ScopeTree × σ) (value : α) (after : ScopeTree × σ) : Prop :=
  work before = some (.ok value, after)

theorem gives_pure {value value' : α} {c c' : ScopeTree × σ} :
    Gives (pure value') c value c' ↔ value = value' ∧ c' = c := by
  constructor
  · intro gives
    cases gives
    exact ⟨rfl, rfl⟩
  · rintro ⟨rfl, rfl⟩
    rfl

theorem not_gives_throw {error : RunError} {value : α} {c c' : ScopeTree × σ} :
    ¬Gives (throw error) c value c' := by
  intro gives
  cases gives

theorem bind_eq (work : Visit σ α) (next : α → Visit σ β) (c : ScopeTree × σ) :
    (work >>= next) c = (work c).bind fun (result, between) =>
      match result with
      | .ok first => next first between
      | .error error => some (.error error, between) :=
  Bounded.bind_eq work next c

theorem gives_bind {work : Visit σ α} {next : α → Visit σ β} {value : β} {c c' : ScopeTree × σ} :
    Gives (work >>= next) c value c' ↔
      ∃ first between, Gives work c first between ∧ Gives (next first) between value c' := by
  unfold Gives
  rw [bind_eq]
  cases outcome : work c with
  | none => simp
  | some pair =>
      obtain ⟨result, between⟩ := pair
      cases result with
      | error error => simp
      | ok first =>
          constructor
          · intro gives
            exact ⟨first, between, rfl, gives⟩
          · rintro ⟨_, _, same, gives⟩
            cases same
            exact gives

theorem gives_scope {tree : ScopeTree} {c c' : ScopeTree × σ} :
    Gives scope c tree c' ↔ tree = c.1 ∧ c' = c := by
  constructor
  · intro gives
    cases gives
    exact ⟨rfl, rfl⟩
  · rintro ⟨rfl, rfl⟩
    rfl

theorem gives_ofExcept {result : Except RunError α} {value : α} {c c' : ScopeTree × σ} :
    Gives (Bounded.ofExcept result) c value c' ↔ result = .ok value ∧ c' = c := by
  constructor
  · intro gives
    cases gives
    exact ⟨rfl, rfl⟩
  · rintro ⟨rfl, rfl⟩
    rfl

theorem gives_modifyScope {f : ScopeTree → ScopeTree} {c c' : ScopeTree × σ} :
    Gives (modifyScope f) c () c' ↔ c' = (f c.1, c.2) := by
  constructor
  · intro gives
    cases gives
    rfl
  · rintro rfl
    rfl

theorem gives_setScope {tree : ScopeTree} {c c' : ScopeTree × σ} :
    Gives (setScope tree) c () c' ↔ c' = (tree, c.2) := by
  constructor
  · intro gives
    cases gives
    rfl
  · rintro rfl
    rfl

theorem gives_state {s : σ} {c c' : ScopeTree × σ} :
    Gives state c s c' ↔ s = c.2 ∧ c' = c := by
  constructor
  · intro gives
    cases gives
    exact ⟨rfl, rfl⟩
  · rintro ⟨rfl, rfl⟩
    rfl

theorem gives_setState {s : σ} {c c' : ScopeTree × σ} :
    Gives (setState s) c () c' ↔ c' = (c.1, s) := by
  constructor
  · intro gives
    cases gives
    rfl
  · rintro rfl
    rfl

theorem within_eq (name : String) (frame : FrameKind) (work : Visit σ Unit) (c : ScopeTree × σ) :
    within name frame work c =
      (work ((c.1.push name frame).2, c.2)).bind fun (result, inner) =>
        some (result, (inner.1.leaveTo c.1.frames.length, inner.2)) := rfl

theorem gives_within {name : String} {frame : FrameKind} {work : Visit σ Unit}
    {c c' : ScopeTree × σ} :
    Gives (within name frame work) c () c' ↔
      ∃ inner, Gives work ((c.1.push name frame).2, c.2) () inner ∧
        c' = (inner.1.leaveTo c.1.frames.length, inner.2) := by
  unfold Gives
  rw [within_eq]
  cases work ((c.1.push name frame).2, c.2) with
  | none => simp
  | some pair =>
      obtain ⟨result, inner⟩ := pair
      simp only [Option.bind_some, Option.some.injEq, Prod.mk.injEq]
      constructor
      · rintro ⟨rfl, rfl⟩
        exact ⟨inner, ⟨rfl, rfl⟩, rfl⟩
      · rintro ⟨_, ⟨rfl, rfl⟩, rfl⟩
        exact ⟨rfl, rfl⟩

theorem holds_bind (node : Node) (next : Bool → Visit σ α) (c : ScopeTree × σ) :
    (Walk.holds node >>= next) c =
      match node.holdsIn c.1 with
      | .ok holds => next holds c
      | .error error => some (.error error, c) := by
  have decided : (Walk.holds node : Visit σ Bool) c = some (node.holdsIn c.1, c) := by
    rw [Walk.holds_eq, bind_eq]
    rfl
  rw [bind_eq, decided]
  cases node.holdsIn c.1 <;> rfl

/-- Two pieces of work below one condition: it fails for both, or for neither is there anything to
do, or both are done. -/
theorem condition_alike {R : Option (Except RunError Unit × (ScopeTree × σ)) →
      Option (Except RunError Unit × (ScopeTree × τ)) → Prop}
    {work : Visit σ Unit} {work' : Visit τ Unit} (node : Node) {c : ScopeTree × σ}
    {d : ScopeTree × τ} (same : d.1 = c.1)
    (refused : ∀ error, R ((throw error : Visit σ Unit) c) ((throw error : Visit τ Unit) d))
    (passed : R ((pure () : Visit σ Unit) c) ((pure () : Visit τ Unit) d))
    (taken : R (work c) (work' d)) :
    R ((do if ← Walk.holds node then work : Visit σ Unit) c)
      ((do if ← Walk.holds node then work' : Visit τ Unit) d) := by
  rw [holds_bind, holds_bind, same]
  cases node.holdsIn c.1 with
  | error error => exact refused error
  | ok holds =>
      cases holds with
      | false => exact passed
      | true => exact taken

/-- How work below a condition ends: the condition fails, or there is nothing to do, or the work
ends so. -/
theorem condition_ends {work : Visit σ Unit} (node : Node) {c : ScopeTree × σ}
    {outcome : Option (Except RunError Unit × (ScopeTree × σ))} {P : Prop}
    (ended : (do if ← Walk.holds node then work : Visit σ Unit) c = outcome)
    (refused : ∀ error, (throw error : Visit σ Unit) c = outcome → P)
    (passed : (pure () : Visit σ Unit) c = outcome → P) (taken : work c = outcome → P) : P :=
  @condition_alike σ σ (fun first _ => first = outcome → P) work work node c c rfl refused passed
    taken ended

theorem gives_holds {node : Node} {holds : Bool} {c c' : ScopeTree × σ} :
    Gives (Walk.holds node) c holds c' ↔ node.holdsIn c.1 = .ok holds ∧ c' = c := by
  rw [Walk.holds_eq, gives_bind]
  constructor
  · rintro ⟨tree, between, scope, result⟩
    obtain ⟨rfl, rfl⟩ := gives_scope.1 scope
    exact gives_ofExcept.1 result
  · rintro ⟨result, rfl⟩
    exact ⟨_, _, gives_scope.2 ⟨rfl, rfl⟩, gives_ofExcept.2 ⟨result, rfl⟩⟩

end Visit

end Archetype
