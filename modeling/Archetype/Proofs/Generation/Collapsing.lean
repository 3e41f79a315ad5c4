import Archetype.Proofs.Generation.AlikeVisitors
import Archetype.Proofs.Generation.Visitors
import Archetype.Proofs.Scope.CollapsedLookups

/-!
Work that comes to the same with frames and without those that dissolve. Whether they dissolve
without a trace is said of the scopes that the work leaves in the end: since these only grow, it is
so from the start.
-/

namespace Archetype

def Visit.Extending (work : Visit σ α) : Prop :=
  Visit.Carries (fun before after => before.WellFormed → before.Extends after) work

namespace ScopeTree

structure Inside (home : String) (tree : ScopeTree) : Prop where
  name : (tree.node tree.current).name = home
  enclosed : tree.Enclosed tree.current

/-- A property of scope trees that growth keeps. -/
def Lasts (Q : ScopeTree → Prop) : Prop :=
  ∀ {tree later : ScopeTree}, tree.WellFormed → tree.Extends later → Q tree → Q later

theorem lasts_inside (home : String) : Lasts (Inside home) := by
  intro tree later wf grown inside
  have bounded := wf.current_lt
  constructor
  · rw [grown.current, (grown.grows.node _ bounded).name, inside.name]
  · rw [grown.current]
    exact (inside.enclosed.of_grows grown.grows bounded).1

theorem Inside.push {tree : ScopeTree} {home : String} (inside : tree.Inside home)
    (wf : tree.WellFormed) (name : String) {frame : FrameKind} (block : frame ≠ .value) :
    (tree.push name frame).2.Inside name where
  name := name_push wf name frame
  enclosed := (inputNames_push wf inside.enclosed name block).1

end ScopeTree

/-- What work comes to over scopes with frames and without. Errors may name a scope, so they count
as the same whatever they say. -/
inductive CollapsedOutcome (δ : Dissolving) :
    Except RunError α × (ScopeTree × σ) → Option (Except RunError α × (ScopeTree × σ)) → Prop
  | error : CollapsedOutcome δ (.error error, c) (some (.error error', c'))
  | ok (collapsed : ScopeTree.Collapsed δ a b) :
      CollapsedOutcome δ (.ok value, (a, s)) (some (.ok value, (b, s)))

namespace Visit

open ScopeTree (Collapsed Inside Lasts)
open Inputs (binding_extends)

variable {δ : Dissolving} {uses : NameUses} {Q : ScopeTree → Prop} {a b : ScopeTree} {s : σ}

/-- From such scopes, work that ends comes to the same without the frames, if these dissolve in the
scopes that it leaves. -/
def Meets (δ : Dissolving) (uses : NameUses) (a b : ScopeTree) (s : σ)
    (first second : Visit σ α) : Prop :=
  ∀ ⦃result c⦄, first (a, s) = some (result, c) → c.1.Dissolves δ uses →
    CollapsedOutcome δ (result, c) (second (b, s))

structure Collapses (δ : Dissolving) (uses : NameUses) (Q : ScopeTree → Prop)
    (first second : Visit σ α) : Prop where
  extending : Extending first
  meets : ∀ a b s, Collapsed δ a b → Q a → Meets δ uses a b s first second

theorem extending_of_looking {work : Visit σ α} (looking : Looking work) : Extending work :=
  fun _ _ _ ended wf => (looking ended).symm ▸ .refl wf

theorem meets_pure (value : α) (collapsed : Collapsed δ a b) :
    Meets δ uses a b s (pure value) (pure value) := by
  intro result c ended _
  cases ended
  exact .ok collapsed

theorem meets_ofExcept {first second : Except RunError α}
    (same : second.toOption = first.toOption) (collapsed : Collapsed δ a b) :
    Meets δ uses a b s (Bounded.ofExcept first) (Bounded.ofExcept second) := by
  intro result c ended _
  cases ended
  cases first with
  | error error =>
      cases second with
      | error error' => exact .error
      | ok value => cases same
  | ok value =>
      cases second with
      | error error' => cases same
      | ok value' =>
          cases same
          exact .ok collapsed

theorem meets_bind {work work' : Visit σ α} {next next' : α → Visit σ β}
    (wf : a.WellFormed) (worked : Extending work) (first : Meets δ uses a b s work work')
    (grows : ∀ value, Extending (next value))
    (rest : ∀ value a' b' s', Collapsed δ a' b' → a.Extends a' →
      Meets δ uses a' b' s' (next value) (next' value)) :
    Meets δ uses a b s (work >>= next) (work' >>= next') := by
  intro result c ended dissolves
  rw [bind_eq] at ended
  obtain ⟨⟨outcome, between⟩, works, ended⟩ := Option.bind_eq_some_iff.1 ended
  have extended := worked works wf
  rw [bind_eq]
  cases outcome with
  | error error =>
      cases ended
      have failed := first works dissolves
      generalize work' (b, s) = second at failed
      cases failed
      exact .error
  | ok value =>
      have later := grows value ended extended.wellFormed
      have met := first works (dissolves.of_grows later.grows extended.wellFormed)
      generalize work' (b, s) = second at met
      cases met with
      | ok collapsed => exact rest value _ _ _ collapsed extended ended dissolves

theorem collapses_pure (value : α) : Collapses δ uses Q (pure value : Visit σ α) (pure value) where
  extending := carries_pure binding_extends value
  meets _ _ _ collapsed _ := meets_pure value collapsed

theorem collapses_throw (error error' : RunError) :
    Collapses δ uses Q (throw error : Visit σ α) (throw error') where
  extending := carries_throw binding_extends error
  meets := by
    intro a b s _ _ result c ended _
    cases ended
    exact .error

theorem collapses_outOfBounds (second : Visit σ α) :
    Collapses δ uses Q Bounded.outOfBounds second where
  extending _ _ _ ended := by cases ended
  meets _ _ _ _ _ _ _ ended := by cases ended

theorem collapses_ofExcept {first second : Except RunError α}
    (same : second.toOption = first.toOption) :
    Collapses δ uses Q (Bounded.ofExcept first : Visit σ α) (Bounded.ofExcept second) where
  extending := carries_ofExcept binding_extends first
  meets _ _ _ collapsed _ := meets_ofExcept same collapsed

theorem collapses_bind (lasts : Lasts Q) {work work' : Visit σ α} {next next' : α → Visit σ β}
    (first : Collapses δ uses Q work work')
    (rest : ∀ value, Collapses δ uses Q (next value) (next' value)) :
    Collapses δ uses Q (work >>= next) (work' >>= next') where
  extending := carries_bind binding_extends first.extending fun value => (rest value).extending
  meets a b s collapsed holds :=
    meets_bind collapsed.before first.extending (first.meets a b s collapsed holds)
      (fun value => (rest value).extending) fun value a' b' s' collapsed' extended =>
        (rest value).meets a' b' s' collapsed' (lasts collapsed.before extended holds)

/-- Work that looks at the scopes may go by what holds between them. -/
theorem collapses_scope_bind {next next' : ScopeTree → Visit σ α}
    (extending : Extending (scope >>= next))
    (rest : ∀ a b s, Collapsed δ a b → Q a → a.Dissolves δ uses →
      Meets δ uses a b s (next a) (next' b)) :
    Collapses δ uses Q (scope >>= next) (scope >>= next') where
  extending := extending
  meets a b s collapsed holds _ _ ended dissolves :=
    rest a b s collapsed holds
      (dissolves.of_grows (extending ended collapsed.before).grows collapsed.before) ended dissolves

theorem collapses_modifyScope {f g : ScopeTree → ScopeTree}
    (grown : ∀ tree : ScopeTree, tree.WellFormed → tree.Extends (f tree))
    (step : ∀ a b, Collapsed δ a b → Q a → Collapsed δ (f a) (g b)) :
    Collapses δ uses Q (modifyScope f : Visit σ Unit) (modifyScope g) where
  extending := carries_modifyScope grown
  meets := by
    intro a b s collapsed holds result c ended _
    cases ended
    exact .ok (step a b collapsed holds)

theorem collapses_state : Collapses δ uses Q (state : Visit σ σ) state where
  extending := by
    intro c result c' ended wf
    cases ended
    exact .refl wf
  meets := by
    intro a b s collapsed _ result c ended _
    cases ended
    exact .ok collapsed

theorem collapses_setState (s : σ) : Collapses δ uses Q (setState s : Visit σ Unit) (setState s)
    where
  extending := by
    intro c result c' ended wf
    cases ended
    exact .refl wf
  meets := by
    intro a b s collapsed _ result c ended _
    cases ended
    exact .ok collapsed

/-! Frames. -/

theorem extending_within {name : String} {frame : FrameKind} {work : Visit σ Unit}
    (inner : Extending work) : Extending (within name frame work) := by
  intro c result c' ended wf
  rw [within_eq] at ended
  obtain ⟨⟨outcome, inside⟩, worked, same⟩ := Option.bind_eq_some_iff.1 ended
  cases same
  exact (inner worked (wf.push name frame)).leave

section Within

variable {home name : String} {frame : FrameKind} {work work' : Visit σ Unit}

theorem collapses_within (plain : δ.gone name = false) (block : frame ≠ .value)
    (mark : '#' ∈ name.toList → frame = .invocation)
    (inner : Collapses δ uses (Inside name) work work') :
    Collapses δ uses (Inside home) (within name frame work)
      (within (δ.apply name) frame work') where
  extending := extending_within inner.extending
  meets := by
    intro a b s collapsed inside result c ended dissolves
    rw [within_eq] at ended ⊢
    obtain ⟨⟨outcome, left⟩, worked, same⟩ := Option.bind_eq_some_iff.1 ended
    cases same
    have shaped := collapsed.before.push name frame
    have extended := inner.extending worked shaped
    have dissolves : left.1.Dissolves δ uses :=
      dissolves.of_grows ((ScopeTree.Grows.refl left.1).of_nodes rfl rfl) extended.wellFormed
    have entered := collapsed.push plain mark
      (dissolves.unmerged.of_grows extended.grows shaped)
    have met := inner.meets _ _ s entered (inside.push collapsed.before name block) worked dissolves
    generalize work' ((b.push (δ.apply name) frame).2, s) = second at met
    cases met with
    | error => exact .error
    | ok collapsed' => exact .ok (collapsed.leave extended.grows collapsed' extended.frames plain)

theorem collapses_within_gone (gone : δ.gone name = true)
    (inner : Collapses δ uses (Inside name) work work') :
    Collapses δ uses (Inside home) (within name .invocation work) work' where
  extending := extending_within inner.extending
  meets := by
    intro a b s collapsed inside result c ended dissolves
    rw [within_eq] at ended
    obtain ⟨⟨outcome, left⟩, worked, same⟩ := Option.bind_eq_some_iff.1 ended
    cases same
    have extended := inner.extending worked (collapsed.before.push name .invocation)
    have dissolves : left.1.Dissolves δ uses :=
      dissolves.of_grows ((ScopeTree.Grows.refl left.1).of_nodes rfl rfl) extended.wellFormed
    have met := inner.meets _ _ s (collapsed.push_gone gone)
      (inside.push collapsed.before name FrameKind.noConfusion) worked dissolves
    generalize work' (b, s) = second at met ⊢
    cases met with
    | error => exact .error
    | ok collapsed' =>
        exact .ok (collapsed.leave_gone extended.grows collapsed' extended.frames gone)

end Within

def homeIn (frame : Option (String × FrameKind)) (home : String) : String :=
  (frame.map (·.1)).getD home

theorem collapses_inFrame {home : String} {frame : Option (String × FrameKind)}
    {work work' : Visit σ Unit}
    (plain : ∀ name kind, frame = some (name, kind) → '#' ∉ name.toList ∧ kind ≠ .value)
    (inner : Collapses δ uses (Inside (homeIn frame home)) work work') :
    Collapses δ uses (Inside home) (inFrame frame work) (inFrame frame work') := by
  cases frame with
  | none => exact inner
  | some frame =>
      obtain ⟨name, kind⟩ := frame
      obtain ⟨unmarked, block⟩ := plain name kind rfl
      have kept : Collapses δ uses (Inside home) (within name kind work)
          (within (δ.apply name) kind work') :=
        collapses_within (δ.stays unmarked) block (fun hash => absurd hash unmarked) inner
      rw [δ.keeps name unmarked] at kept
      exact kept

end Visit

end Archetype
