import Archetype.Generation.Run
import Archetype.Proofs.Scope.Routes
import Archetype.Proofs.Walk.Related

/-!
When the resolver is consulted. A resolver that also notes what it is asked decides as the resolver
does; the notes are about different scopes, and about none that an external value or a preset
supplies.
-/

namespace Archetype

structure Consultation where
  request : InputRequest
  tree : ScopeTree

namespace Consultation

def scope (consultation : Consultation) : ScopeId := consultation.tree.current

/-- The input in question has no external value, no preset of its own and none of its name around
it. -/
structure Unsupplied (externals : ValueTable) (consultation : Consultation) : Prop where
  path : consultation.request.path = consultation.tree.inputPath consultation.scope
  external : externals.find? (consultation.tree.inputPath consultation.scope)
    (consultation.tree.path consultation.scope) = none
  own : (consultation.tree.node consultation.scope).hasPreset = false
  nearest : consultation.tree.findPreset? consultation.scope consultation.request.name = none

end Consultation

/-- The resolver with notes of its consultations. -/
def Resolver.noting (resolver : Resolver ρ) : Resolver (ρ × List Consultation) :=
  fun request tree (s, notes) =>
    (resolver request tree s).map fun (result, s) => (result, s, notes ++ [⟨request, tree⟩])

/-- Notes on different scopes, each visited, of inputs that nothing else supplied. -/
structure InOrder (externals : ValueTable) (tree : ScopeTree) (notes : List Consultation) :
    Prop where
  wellFormed : tree.WellFormed
  visited : ∀ note ∈ notes, (tree.node note.scope).visited = true
  once : (notes.map Consultation.scope).Nodup
  unsupplied : ∀ note ∈ notes, note.Unsupplied externals

namespace InOrder

variable {externals : ValueTable} {tree later : ScopeTree} {notes : List Consultation}

theorem init : InOrder externals {} [] where
  wellFormed := .init
  visited := by simp
  once := .nil
  unsupplied := by simp

theorem of_grows (ordered : InOrder externals tree notes) (shaped : later.WellFormed)
    (grows : tree.Grows later) : InOrder externals later notes where
  wellFormed := shaped
  visited note member := grows.visited (ordered.visited note member)
  once := ordered.once
  unsupplied := ordered.unsupplied

theorem bindAt (ordered : InOrder externals tree notes) (id : ScopeId) (value : Value)
    (origin : Origin) : InOrder externals (tree.bindAt id value origin) notes :=
  ordered.of_grows (ordered.wellFormed.bindAt id value origin) (tree.grows_bindAt id value origin)

theorem push (ordered : InOrder externals tree notes) (name : String) (frame : FrameKind) :
    InOrder externals (tree.push name frame).2 notes :=
  ordered.of_grows (ordered.wellFormed.push name frame) (tree.grows_push name frame)

theorem leaveTo (ordered : InOrder externals tree notes) (count : Nat) :
    InOrder externals (tree.leaveTo count) notes :=
  ordered.of_grows (ordered.wellFormed.leaveTo count) ((ScopeTree.Grows.refl tree).of_nodes rfl rfl)

theorem note (ordered : InOrder externals tree notes) {request : InputRequest}
    (visited : (tree.node tree.current).visited = true)
    (unasked : tree.current ∉ notes.map Consultation.scope)
    (unsupplied : Consultation.Unsupplied externals ⟨request, tree⟩) :
    InOrder externals tree (notes ++ [⟨request, tree⟩]) where
  wellFormed := ordered.wellFormed
  visited note member := by
    rcases List.mem_append.1 member with old | new
    · exact ordered.visited note old
    · obtain rfl := List.mem_singleton.1 new
      exact visited
  once := by
    rw [List.map_append]
    refine List.nodup_append.2 ⟨ordered.once, List.pairwise_singleton _ _, ?_⟩
    rintro id old _ new rfl
    have same : id = tree.current := List.mem_singleton.1 new
    exact unasked (same ▸ old)
  unsupplied note member := by
    rcases List.mem_append.1 member with old | new
    · exact ordered.unsupplied note old
    · obtain rfl := List.mem_singleton.1 new
      exact unsupplied

end InOrder

inductive AskingOutcome {ρ α : Type} (externals : ValueTable)
    (after : α → ScopeTree → List Consultation → Prop) :
    Option (Except RunError α × (ScopeTree × ρ)) →
      Option (Except RunError α × (ScopeTree × ρ × List Consultation)) → Prop
  | outOfBounds : AskingOutcome externals after none none
  | error {error : RunError} {tree : ScopeTree} {s : ρ} {notes : List Consultation}
      (ordered : InOrder externals tree notes) :
      AskingOutcome externals after (some (.error error, (tree, s)))
        (some (.error error, (tree, (s, notes))))
  | ok {value : α} {tree : ScopeTree} {s : ρ} {notes : List Consultation}
      (ordered : InOrder externals tree notes) (holds : after value tree notes) :
      AskingOutcome externals after (some (.ok value, (tree, s)))
        (some (.ok value, (tree, (s, notes))))

/-- From scopes and notes in order the work and the same work with notes have such outcomes. -/
def Asks (externals : ValueTable) (before : ScopeTree → List Consultation → Prop)
    (work : Visit ρ α) (noting : Visit (ρ × List Consultation) α)
    (after : α → ScopeTree → List Consultation → Prop) : Prop :=
  ∀ tree s notes, InOrder externals tree notes → before tree notes →
    AskingOutcome externals after (work (tree, s)) (noting (tree, (s, notes)))

namespace Asks

variable {externals : ValueTable} {before : ScopeTree → List Consultation → Prop}

theorem pure {value : α} {after : α → ScopeTree → List Consultation → Prop}
    (holds : ∀ tree notes, InOrder externals tree notes → before tree notes →
      after value tree notes) :
    Asks externals before (Pure.pure value : Visit ρ α) (Pure.pure value) after :=
  fun tree _ notes ordered known => .ok ordered (holds tree notes ordered known)

theorem throw (error : RunError) {after : α → ScopeTree → List Consultation → Prop} :
    Asks externals before (MonadExcept.throw error : Visit ρ α) (MonadExcept.throw error) after :=
  fun _ _ _ ordered _ => .error ordered

theorem ofExcept (result : Except RunError α) :
    Asks externals before (Bounded.ofExcept result : Visit ρ α) (Bounded.ofExcept result)
      fun _ => before := by
  intro tree s notes ordered known
  cases result with
  | error error => exact .error ordered
  | ok value => exact .ok ordered known

theorem bind {work : Visit ρ α} {noting : Visit (ρ × List Consultation) α} {next : α → Visit ρ β}
    {noting' : α → Visit (ρ × List Consultation) β}
    {between : α → ScopeTree → List Consultation → Prop}
    {after : β → ScopeTree → List Consultation → Prop}
    (first : Asks externals before work noting between)
    (rest : ∀ value, Asks externals (between value) (next value) (noting' value) after) :
    Asks externals before (work >>= next) (noting >>= noting') after := by
  intro tree s notes ordered known
  have outcome := first tree s notes ordered known
  rw [Visit.bind_eq, Visit.bind_eq]
  generalize work (tree, s) = plain at outcome ⊢
  generalize noting (tree, (s, notes)) = noted at outcome ⊢
  cases outcome with
  | outOfBounds => exact .outOfBounds
  | error ordered => exact .error ordered
  | ok ordered holds => exact rest _ _ _ _ ordered holds

theorem scope_bind {next : ScopeTree → Visit ρ α}
    {noting : ScopeTree → Visit (ρ × List Consultation) α}
    {after : α → ScopeTree → List Consultation → Prop}
    (rest : ∀ tree, Asks externals (fun now notes => now = tree ∧ before now notes) (next tree)
      (noting tree) after) :
    Asks externals before (Visit.scope >>= next) (Visit.scope >>= noting) after := by
  intro tree s notes ordered known
  exact rest tree tree s notes ordered ⟨rfl, known⟩

theorem scope_bind_of_eq {known : ScopeTree} {next : ScopeTree → Visit ρ α}
    {noting : ScopeTree → Visit (ρ × List Consultation) α}
    {after : α → ScopeTree → List Consultation → Prop}
    (rest : Asks externals (fun tree _ => tree = known) (next known) (noting known) after) :
    Asks externals (fun tree _ => tree = known) (Visit.scope >>= next) (Visit.scope >>= noting)
      after := by
  rintro tree s notes ordered rfl
  exact rest tree s notes ordered rfl

theorem modifyScope {f : ScopeTree → ScopeTree}
    {after : Unit → ScopeTree → List Consultation → Prop}
    (keeps : ∀ tree notes, InOrder externals tree notes → before tree notes →
      InOrder externals (f tree) notes ∧ after () (f tree) notes) :
    Asks externals before (Visit.modifyScope f : Visit ρ Unit) (Visit.modifyScope f) after := by
  intro tree s notes ordered known
  obtain ⟨ordered, holds⟩ := keeps tree notes ordered known
  exact .ok ordered holds

theorem setScope {new : ScopeTree} {after : Unit → ScopeTree → List Consultation → Prop}
    (keeps : ∀ tree notes, InOrder externals tree notes → before tree notes →
      InOrder externals new notes ∧ after () new notes) :
    Asks externals before (Visit.setScope new : Visit ρ Unit) (Visit.setScope new) after :=
  modifyScope keeps

theorem imp {work : Visit ρ α} {noting : Visit (ρ × List Consultation) α}
    {known : ScopeTree → List Consultation → Prop}
    {after after' : α → ScopeTree → List Consultation → Prop}
    (asks : Asks externals before work noting after)
    (stronger : ∀ tree notes, known tree notes → before tree notes)
    (weaker : ∀ value tree notes, after value tree notes → after' value tree notes) :
    Asks externals known work noting after' := by
  intro tree s notes ordered holds
  have outcome := asks tree s notes ordered (stronger tree notes holds)
  generalize work (tree, s) = plain at outcome ⊢
  generalize noting (tree, (s, notes)) = noted at outcome ⊢
  cases outcome with
  | outOfBounds => exact .outOfBounds
  | error ordered => exact .error ordered
  | ok ordered holds => exact .ok ordered (weaker _ _ _ holds)

theorem within {work : Visit ρ Unit} {noting : Visit (ρ × List Consultation) Unit}
    (inner : Asks externals (fun _ _ => True) work noting fun _ _ _ => True) (name : String)
    (frame : FrameKind) :
    Asks externals (fun _ _ => True) (Visit.within name frame work)
      (Visit.within name frame noting) fun _ _ _ => True := by
  intro tree s notes ordered _
  have outcome := inner (tree.push name frame).2 s notes (ordered.push name frame) trivial
  rw [Visit.within_eq, Visit.within_eq]
  simp only
  generalize work ((tree.push name frame).2, s) = plain at outcome ⊢
  generalize noting ((tree.push name frame).2, (s, notes)) = noted at outcome ⊢
  cases outcome with
  | outOfBounds => exact .outOfBounds
  | error ordered => exact .error (ordered.leaveTo _)
  | ok ordered _ => exact .ok (ordered.leaveTo _) trivial

theorem condition {work : Visit ρ Unit} {noting : Visit (ρ × List Consultation) Unit} (node : Node)
    (inner : Asks externals (fun _ _ => True) work noting fun _ _ _ => True) :
    Asks externals (fun _ _ => True) (do if ← Walk.holds node then work)
      (do if ← Walk.holds node then noting) fun _ _ _ => True := by
  intro tree s notes ordered _
  exact Visit.condition_alike node rfl (fun _ => .error ordered) (.ok ordered trivial)
    (inner tree s notes ordered trivial)

theorem of_gives {work : Visit ρ α} {noting : Visit (ρ × List Consultation) α}
    {after : α → ScopeTree → List Consultation → Prop}
    (asks : Asks externals before work noting after) {c c' : ScopeTree × ρ} {value : α}
    (gives : Visit.Gives work c value c') (ordered : InOrder externals c.1 [])
    (known : before c.1 []) : ∃ notes, after value c'.1 notes := by
  have outcome := asks c.1 c.2 [] ordered known
  rw [show work (c.1, c.2) = some (.ok value, c') from gives] at outcome
  generalize noting (c.1, (c.2, [])) = noted at outcome
  cases outcome with
  | ok _ holds => exact ⟨_, holds⟩

end Asks

end Archetype
