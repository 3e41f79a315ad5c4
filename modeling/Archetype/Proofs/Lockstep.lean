import Archetype.Proofs.Stateful
import Mathlib.Data.List.Forall2

/-!
Work of two sides in lockstep: both fail, or both come to values and states that correspond. One
rule for each way of putting work together.
-/

namespace Archetype

variable {ε δ α β σ τ : Type}

inductive Corresponds (fails : ε → δ → Prop) (gives : α → β → Prop) :
    Except ε α → Except δ β → Prop
  | ok {value : α} {value' : β} (related : gives value value') :
      Corresponds fails gives (.ok value) (.ok value')
  | error {error : ε} {error' : δ} (related : fails error error') :
      Corresponds fails gives (.error error) (.error error')

namespace Corresponds

variable {fails : ε → δ → Prop} {gives : α → β → Prop} {outcome : Except ε α}
  {outcome' : Except δ β}

theorem imp {weaker : α → β → Prop} (both : Corresponds fails gives outcome outcome')
    (weakens : ∀ value value', gives value value' → weaker value value') :
    Corresponds fails weaker outcome outcome' := by
  cases both with
  | ok related => exact .ok (weakens _ _ related)
  | error related => exact .error related

theorem imp_error {words : ε → δ → Prop} (both : Corresponds fails gives outcome outcome')
    (weakens : ∀ error error', fails error error' → words error error') :
    Corresponds words gives outcome outcome' := by
  cases both with
  | ok related => exact .ok related
  | error related => exact .error (weakens _ _ related)

theorem known (both : Corresponds fails gives outcome outcome') :
    Corresponds fails (fun value value' => gives value value' ∧ outcome = .ok value ∧
      outcome' = .ok value') outcome outcome' := by
  cases both with
  | ok related => exact .ok ⟨related, rfl, rfl⟩
  | error related => exact .error related

theorem bind {α' β' : Type} {after : α' → β' → Prop} {next : α → Except ε α'}
    {next' : β → Except δ β'} (both : Corresponds fails gives outcome outcome')
    (rest : ∀ value value', gives value value' →
      Corresponds fails after (next value) (next' value')) :
    Corresponds fails after (outcome >>= next) (outcome' >>= next') := by
  cases both with
  | ok related => exact rest _ _ related
  | error related => exact .error related

theorem map {α' β' : Type} {after : α' → β' → Prop} {f : α → α'} {f' : β → β'}
    (both : Corresponds fails gives outcome outcome')
    (keeps : ∀ value value', gives value value' → after (f value) (f' value')) :
    Corresponds fails after (outcome.map f) (outcome'.map f') := by
  cases both with
  | ok related => exact .ok (keeps _ _ related)
  | error related => exact .error related

theorem mapError {ε' δ' : Type} {worded : ε' → δ' → Prop} {f : ε → ε'} {f' : δ → δ'}
    (both : Corresponds fails gives outcome outcome')
    (keeps : ∀ error error', fails error error' → worded (f error) (f' error')) :
    Corresponds worded gives (outcome.mapError f) (outcome'.mapError f') := by
  cases both with
  | ok related => exact .ok related
  | error related => exact .error (keeps _ _ related)

theorem of_ensures {work : StateT σ (Except ε) α} {work' : StateT τ (Except δ) β} {s : σ} {s' : τ}
    {good : α → σ → Prop} {good' : β → τ → Prop}
    (left : Stateful.Ensures work s good fun _ => False)
    (right : Stateful.Ensures work' s' good' fun _ => False) :
    Corresponds fails (fun reached reached' => good reached.1 reached.2 ∧
      good' reached'.1 reached'.2) (work s) (work' s') := by
  unfold Stateful.Ensures at left right
  cases outcome : work s with
  | error error => simp [outcome] at left
  | ok reached =>
      cases outcome' : work' s' with
      | error error => simp [outcome'] at right
      | ok reached' =>
          rw [outcome] at left
          rw [outcome'] at right
          exact .ok ⟨left, right⟩

end Corresponds

/-- From states that correspond, the two sides come to outcomes that do. -/
def Lockstep (fails : ε → δ → Prop) (states : σ → τ → Prop) (values : α → β → Prop)
    (work : StateT σ (Except ε) α) (work' : StateT τ (Except δ) β) : Prop :=
  ∀ s s', states s s' →
    Corresponds fails (fun reached reached' => values reached.1 reached'.1 ∧
      states reached.2 reached'.2) (work s) (work' s')

namespace Lockstep

variable {fails : ε → δ → Prop} {states : σ → τ → Prop} {values : α → β → Prop}

protected theorem pure {value : α} {value' : β} (related : values value value') :
    Lockstep fails states values (pure value) (pure value') :=
  fun _ _ start => .ok ⟨related, start⟩

protected theorem throw {error : ε} {error' : δ} (related : fails error error') :
    Lockstep fails states values (throw error) (throw error') :=
  fun _ _ _ => .error related

protected theorem bind {α' β' : Type} {after : α' → β' → Prop} {work : StateT σ (Except ε) α}
    {work' : StateT τ (Except δ) β} {next : α → StateT σ (Except ε) α'}
    {next' : β → StateT τ (Except δ) β'} (first : Lockstep fails states values work work')
    (rest : ∀ value value', values value value' →
      Lockstep fails states after (next value) (next' value')) :
    Lockstep fails states after (work >>= next) (work' >>= next') :=
  fun s s' start => (first s s' start).bind fun _ _ reached =>
    rest _ _ reached.1 _ _ reached.2

theorem andThen {α' β' : Type} {after : α' → β' → Prop} {work : StateT σ (Except ε) α}
    {work' : StateT τ (Except δ) β} {next : StateT σ (Except ε) α'}
    {next' : StateT τ (Except δ) β'} (first : Lockstep fails states values work work')
    (rest : Lockstep fails states after next next') :
    Lockstep fails states after (work >>= fun _ => next) (work' >>= fun _ => next') :=
  .bind first fun _ _ _ => rest

protected theorem get : Lockstep fails states states get get :=
  fun _ _ start => .ok ⟨start, start⟩

protected theorem modify {f : σ → σ} {f' : τ → τ}
    (keeps : ∀ s s', states s s' → states (f s) (f' s')) :
    Lockstep fails states (fun _ _ => True) (modify f) (modify f') :=
  fun s s' start => .ok ⟨trivial, keeps s s' start⟩

protected theorem set {s : σ} {s' : τ} (related : states s s') :
    Lockstep fails states (fun _ _ => True) (set s) (set s') :=
  fun _ _ _ => .ok ⟨trivial, related⟩

protected theorem forM {ι κ : Type} {R : ι → κ → Prop} {items : List ι} {items' : List κ}
    {work : ι → StateT σ (Except ε) PUnit} {work' : κ → StateT τ (Except δ) PUnit}
    (each : ∀ item item', R item item' →
      Lockstep fails states (fun _ _ => True) (work item) (work' item'))
    (related : List.Forall₂ R items items') :
    Lockstep fails states (fun _ _ => True) (items.forM work) (items'.forM work') := by
  induction related with
  | nil => exact .pure trivial
  | cons first _ ih => exact .andThen (each _ _ first) ih

end Lockstep

theorem find?_forall₂ {R : α → β → Prop} {items : List α} {items' : List β} {p : α → Bool}
    {p' : β → Bool} (same : ∀ item item', R item item' → p item = p' item')
    (related : List.Forall₂ R items items') : Option.Rel R (items.find? p) (items'.find? p') := by
  induction related with
  | nil => exact .none
  | @cons item item' _ _ here _ ih =>
      rw [List.find?_cons, List.find?_cons, same item item' here]
      cases p' item' with
      | true => exact .some here
      | false => exact ih

theorem lookup_forall₂ {κ κ' : Type} [BEq κ] [LawfulBEq κ] [BEq κ'] [LawfulBEq κ']
    {R : κ × α → κ' × β → Prop} (key : κ) (key' : κ') {entries : List (κ × α)}
    {entries' : List (κ' × β)}
    (same : ∀ entry entry', R entry entry' → (key == entry.1) = (key' == entry'.1))
    (related : List.Forall₂ R entries entries') :
    Option.Rel (fun value value' => R (key, value) (key', value')) (entries.lookup key)
      (entries'.lookup key') := by
  induction related with
  | nil => exact .none
  | @cons entry entry' _ _ here _ ih =>
      obtain ⟨k, value⟩ := entry
      obtain ⟨k', value'⟩ := entry'
      have keys := same _ _ here
      rw [List.lookup_cons, List.lookup_cons, keys]
      cases hit : key' == k' with
      | true =>
          obtain rfl := eq_of_beq hit
          obtain rfl := eq_of_beq (keys.trans hit)
          exact .some here
      | false => exact ih

end Archetype
