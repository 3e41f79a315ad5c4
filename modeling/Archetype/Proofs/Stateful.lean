/-!
Work with a state that may fail: what it comes to when it does not fail, one equation for each way
of putting work together.
-/

namespace Archetype.Stateful

variable {σ ε α β : Type}

theorem exists_ok_of_any {result : Except ε α} {p : α → Bool}
    (holds : result.toOption.any p = true) : ∃ value, result = .ok value ∧ p value = true := by
  cases result with
  | error error => simp [Except.toOption] at holds
  | ok value => exact ⟨value, rfl, by simpa [Except.toOption] using holds⟩

theorem bind_eq_ok {work : StateT σ (Except ε) α} {next : α → StateT σ (Except ε) β}
    {s s' : σ} {value : β} :
    (work >>= next) s = .ok (value, s') ↔
      ∃ first between, work s = .ok (first, between) ∧ next first between = .ok (value, s') := by
  have unfolded : (work >>= next) s =
      (work s).bind fun (first, between) => next first between := rfl
  rw [unfolded]
  cases work s with
  | error error => simp [Except.bind]
  | ok pair =>
      obtain ⟨first, between⟩ := pair
      constructor
      · intro gives
        exact ⟨first, between, rfl, gives⟩
      · rintro ⟨_, _, same, gives⟩
        cases same
        exact gives

theorem pure_eq_ok {value value' : α} {s s' : σ} :
    (pure value : StateT σ (Except ε) α) s = .ok (value', s') ↔ value' = value ∧ s' = s := by
  constructor
  · intro gives
    cases gives
    exact ⟨rfl, rfl⟩
  · rintro ⟨rfl, rfl⟩
    rfl

theorem get_eq_ok {s s' value : σ} :
    (get : StateT σ (Except ε) σ) s = .ok (value, s') ↔ value = s ∧ s' = s := by
  constructor
  · intro gives
    cases gives
    exact ⟨rfl, rfl⟩
  · rintro ⟨rfl, rfl⟩
    rfl

theorem modify_eq_ok {f : σ → σ} {s s' : σ} {value : PUnit} :
    (modify f : StateT σ (Except ε) PUnit) s = .ok (value, s') ↔ s' = f s := by
  constructor
  · intro gives
    cases gives
    rfl
  · rintro rfl
    rfl

theorem set_eq_ok {new s s' : σ} {value : PUnit} :
    (set new : StateT σ (Except ε) PUnit) s = .ok (value, s') ↔ s' = new := by
  constructor
  · intro gives
    cases gives
    rfl
  · rintro rfl
    rfl

theorem throw_ne_ok {error : ε} {s s' : σ} {value : α} :
    (throw error : StateT σ (Except ε) α) s ≠ .ok (value, s') := by
  intro gives
  cases gives

/-- From a state the work comes to a good value and state, or else to an error that may be. -/
def Ensures (work : StateT σ (Except ε) α) (s : σ) (good : α → σ → Prop) (may : ε → Prop) : Prop :=
  match work s with
  | .ok (value, s') => good value s'
  | .error error => may error

variable {good : α → σ → Prop} {may : ε → Prop} {s : σ}

theorem ensures_pure {value : α} (holds : good value s) :
    Ensures (pure value : StateT σ (Except ε) α) s good may := holds

theorem ensures_throw {error : ε} (holds : may error) :
    Ensures (throw error : StateT σ (Except ε) α) s good may := holds

theorem ensures_liftM {outcome : Except ε α} :
    Ensures (liftM outcome : StateT σ (Except ε) α) s (fun value _ => outcome = .ok value)
      (fun error => outcome = .error error) := by
  cases outcome with
  | ok value => exact rfl
  | error error => exact rfl

theorem ensures_modify {good : PUnit → σ → Prop} {f : σ → σ} (holds : good ⟨⟩ (f s)) :
    Ensures (modify f : StateT σ (Except ε) PUnit) s good may := holds

theorem ensures_throw_bind {error : ε} {next : β → StateT σ (Except ε) α} (holds : may error) :
    Ensures (throw error >>= next) s good may := holds

theorem ensures_get_bind {next : σ → StateT σ (Except ε) α} (rest : Ensures (next s) s good may) :
    Ensures (get >>= next) s good may := rest

theorem ensures_modify_bind {f : σ → σ} {next : PUnit → StateT σ (Except ε) α}
    (rest : Ensures (next ⟨⟩) (f s) good may) : Ensures (modify f >>= next) s good may := rest

theorem ensures_set_bind {new : σ} {next : PUnit → StateT σ (Except ε) α}
    (rest : Ensures (next ⟨⟩) new good may) : Ensures (set new >>= next) s good may := rest

theorem ensures_bind {work : StateT σ (Except ε) α} {next : α → StateT σ (Except ε) β}
    {Q : α → σ → Prop} {good : β → σ → Prop} (first : Ensures work s Q may)
    (rest : ∀ value s', Q value s' → Ensures (next value) s' good may) :
    Ensures (work >>= next) s good may := by
  have unfolded : (work >>= next) s =
      (work s).bind fun (first, between) => next first between := rfl
  unfold Ensures at first ⊢
  rw [unfolded]
  cases outcome : work s with
  | error error =>
      rw [outcome] at first
      exact first
  | ok pair =>
      rw [outcome] at first
      exact rest pair.1 pair.2 first

/-- The rest only has to deal with what the work before it comes to. -/
theorem ensures_bind_of_ok {work : StateT σ (Except ε) α} {next : α → StateT σ (Except ε) β}
    {Q : α → σ → Prop} {good : β → σ → Prop} (first : Ensures work s Q may)
    (rest : ∀ value s', work s = .ok (value, s') → Ensures (next value) s' good may) :
    Ensures (work >>= next) s good may := by
  refine ensures_bind (Q := fun value s' => work s = .ok (value, s')) ?_ rest
  unfold Ensures at first ⊢
  cases outcome : work s with
  | error error =>
      rw [outcome] at first
      exact first
  | ok pair => rfl

theorem Ensures.imp {work : StateT σ (Except ε) α} {better : α → σ → Prop} {fewer : ε → Prop}
    (ensures : Ensures work s better fewer) (weaker : ∀ value s', better value s' → good value s')
    (more : ∀ error, fewer error → may error) : Ensures work s good may := by
  unfold Ensures at ensures ⊢
  cases outcome : work s with
  | error error =>
      rw [outcome] at ensures
      exact more error ensures
  | ok pair =>
      rw [outcome] at ensures
      exact weaker pair.1 pair.2 ensures

theorem Ensures.of_ok {work : StateT σ (Except ε) α} (ensures : Ensures work s good may)
    {value : α} {s' : σ} (gives : work s = .ok (value, s')) : good value s' := by
  unfold Ensures at ensures
  rwa [gives] at ensures

theorem Ensures.of_error {work : StateT σ (Except ε) α} (ensures : Ensures work s good may)
    {error : ε} (fails : work s = .error error) : may error := by
  unfold Ensures at ensures
  rwa [fails] at ensures

end Archetype.Stateful
