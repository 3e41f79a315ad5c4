import Archetype.Expression.Evaluation

/-!
Which variables an evaluation looks up. The evaluation is told again with its look-ups done by a
step of any monad, so that it can be run with notes of them. It asks for no path that the expression
does not mention, and two sources that answer alike for these paths give one outcome.
-/

namespace Archetype.Expression

section

variable {m : Type → Type} [Monad m] [MonadExceptOf RunError m]

/-- The value of an expression whose variables are looked up by a step of a monad. -/
def evaluateBy (look : String → m Value) : Expression → m Value
  | .literal v => pure v
  | .var path => look path
  | .not e => do
      let v ← e.evaluateBy look
      let b ← MonadExcept.ofExcept v.asBool
      return .bool (!b)
  | .sizeOf e => do
      let v ← e.evaluateBy look
      let n ← MonadExcept.ofExcept v.size
      return .int n
  | .logic op l r => do
      let v ← l.evaluateBy look
      let b ← MonadExcept.ofExcept v.asBool
      if b = op.absorbing then return .bool b
      else do
        let w ← r.evaluateBy look
        let b ← MonadExcept.ofExcept w.asBool
        return .bool b
  | .compare op l r => do
      let v ← l.evaluateBy look
      let w ← r.evaluateBy look
      let b ← MonadExcept.ofExcept (compareValues op v w)
      return .bool b

def holdsBy (look : String → m Value) (e : Expression) : m Bool := do
  let v ← e.evaluateBy look
  MonadExcept.ofExcept v.asBool

/-- Only the look-ups of the paths in the expression count. -/
theorem evaluateBy_congr {look look' : String → m Value} (e : Expression)
    (agree : ∀ path ∈ e.paths, look path = look' path) :
    e.evaluateBy look = e.evaluateBy look' := by
  induction e with
  | literal v => rfl
  | var path => exact agree path (List.mem_singleton_self path)
  | not e ih => simp only [evaluateBy, ih agree]
  | sizeOf e ih => simp only [evaluateBy, ih agree]
  | logic op l r ihl ihr =>
      have left := ihl fun path member => agree path (List.mem_append_left _ member)
      have right := ihr fun path member => agree path (List.mem_append_right _ member)
      simp only [evaluateBy, left, right]
  | compare op l r ihl ihr =>
      have left := ihl fun path member => agree path (List.mem_append_left _ member)
      have right := ihr fun path member => agree path (List.mem_append_right _ member)
      simp only [evaluateBy, left, right]

end

theorem ofExcept_eq (result : Except RunError α) :
    (MonadExcept.ofExcept result : Except RunError α) = result := by
  cases result <;> rfl

theorem evaluateBy_eq (lookup : Variables) (e : Expression) :
    e.evaluateBy lookup = e.evaluate lookup := by
  induction e with
  | literal v => rfl
  | var path => rfl
  | not e ih => simp only [evaluateBy, evaluate, ih, ofExcept_eq]; rfl
  | sizeOf e ih => simp only [evaluateBy, evaluate, ih, ofExcept_eq]; rfl
  | logic op l r ihl ihr => simp only [evaluateBy, evaluate, ihl, ihr, ofExcept_eq]; rfl
  | compare op l r ihl ihr => simp only [evaluateBy, evaluate, ihl, ihr, ofExcept_eq]; rfl

/-! Look-ups with notes. -/

abbrev Noting := ExceptT RunError (StateM (List String))

def noted (lookup : Variables) (path : String) : Noting Value := do
  modify fun notes => notes ++ [path]
  MonadExcept.ofExcept (lookup path)

/-- The work ends as given, and what it notes are some of the paths, each in its turn. -/
def LooksUp (paths : List String) (work : Noting α) (result : Except RunError α) : Prop :=
  ∀ notes, ∃ looked, work notes = (result, notes ++ looked) ∧ looked.Sublist paths

namespace LooksUp

variable {paths later : List String} {lookup : Variables}

theorem ofExcept (result : Except RunError α) :
    LooksUp paths (MonadExcept.ofExcept result) result := by
  intro notes
  refine ⟨[], ?_, List.nil_sublist _⟩
  rw [List.append_nil]
  cases result <;> rfl

theorem pure (value : α) : LooksUp paths (Pure.pure value) (.ok value) := ofExcept (.ok value)

theorem noted (path : String) : LooksUp [path] (noted lookup path) (lookup path) := by
  intro notes
  have unfolded : Expression.noted lookup path notes =
      (MonadExcept.ofExcept (lookup path) : Noting Value) (notes ++ [path]) := rfl
  refine ⟨[path], ?_, List.Sublist.refl _⟩
  rw [unfolded]
  cases lookup path <;> rfl

theorem bind_eq (work : Noting α) (next : α → Noting β) (notes : List String) :
    (work >>= next) notes =
      match work notes with
      | (.ok value, between) => next value between
      | (.error error, between) => (.error error, between) := by
  have unfolded : (work >>= next) notes = ExceptT.bindCont next (work notes).1 (work notes).2 := rfl
  rw [unfolded]
  obtain ⟨result, between⟩ := work notes
  cases result <;> rfl

theorem bind {work : Noting α} {result : Except RunError α} {next : α → Noting β}
    {final : α → Except RunError β} (first : LooksUp paths work result)
    (rest : ∀ value, LooksUp later (next value) (final value)) :
    LooksUp (paths ++ later) (work >>= next) (result >>= final) := by
  intro notes
  obtain ⟨looked, ended, among⟩ := first notes
  rw [bind_eq, ended]
  cases result with
  | error error => exact ⟨looked, rfl, among.trans (List.sublist_append_left _ _)⟩
  | ok value =>
      obtain ⟨looked', ended', among'⟩ := rest value (notes ++ looked)
      rw [List.append_assoc] at ended'
      exact ⟨looked ++ looked', ended', among.append among'⟩

theorem andThen {work : Noting α} {result : Except RunError α} {next : α → Noting β}
    {final : α → Except RunError β} (first : LooksUp paths work result)
    (rest : ∀ value, LooksUp [] (next value) (final value)) :
    LooksUp paths (work >>= next) (result >>= final) := by
  have both := first.bind rest
  rwa [List.append_nil] at both

theorem reading {result : Except RunError α} {next : α → Noting β}
    {final : α → Except RunError β} (rest : ∀ value, LooksUp paths (next value) (final value)) :
    LooksUp paths (MonadExcept.ofExcept result >>= next) (result >>= final) := by
  have both : LooksUp ([] ++ paths) (MonadExcept.ofExcept result >>= next) (result >>= final) :=
    bind (ofExcept result) rest
  exact both

theorem listed {work : Noting α} {result : Except RunError α}
    (looksUp : LooksUp paths work result) :
    (work []).1 = result ∧ ∀ path ∈ (work []).2, path ∈ paths := by
  obtain ⟨looked, ended, among⟩ := looksUp []
  rw [ended]
  exact ⟨rfl, fun path member => among.subset member⟩

end LooksUp

/-- The noted evaluation ends as the evaluation does, and looks up some of the paths of the
expression from left to right. -/
theorem looksUp_evaluateBy (lookup : Variables) (e : Expression) :
    LooksUp e.paths (e.evaluateBy (noted lookup)) (e.evaluate lookup) := by
  induction e with
  | literal v => exact .pure v
  | var path => exact .noted path
  | not e ih => exact .andThen ih fun v => .reading fun b => .pure _
  | sizeOf e ih => exact .andThen ih fun v => .reading fun n => .pure _
  | logic op l r ihl ihr =>
      refine .bind ihl fun v => .reading fun b => ?_
      split
      · exact .pure _
      · exact .andThen ihr fun w => .reading fun b => .pure _
  | compare op l r ihl ihr =>
      exact .bind ihl fun v => .andThen ihr fun w => .reading fun b => .pure _

theorem looksUp_holdsBy (lookup : Variables) (e : Expression) :
    LooksUp e.paths (e.holdsBy (noted lookup)) (e.holds lookup) :=
  .andThen (looksUp_evaluateBy lookup e) fun v => .ofExcept v.asBool

/-- An evaluation depends on the listed variables alone: two sources that answer alike for them,
with a value or with an error, give the same value or the same error. With notes of its look-ups it
ends as it does without them, and every path that it looks up is listed. -/
theorem evaluation_depends_on_listed_variables (e : Expression) {first second : Variables}
    (agree : ∀ path ∈ e.paths, first path = second path) :
    e.evaluate first = e.evaluate second ∧ e.holds first = e.holds second ∧
      ∀ lookup,
        ((e.evaluateBy (noted lookup) []).1 = e.evaluate lookup ∧
          ∀ path ∈ (e.evaluateBy (noted lookup) []).2, path ∈ e.paths) ∧
        (e.holdsBy (noted lookup) []).1 = e.holds lookup ∧
          ∀ path ∈ (e.holdsBy (noted lookup) []).2, path ∈ e.paths := by
  have evaluated : e.evaluate first = e.evaluate second := by
    rw [← evaluateBy_eq, ← evaluateBy_eq]
    exact evaluateBy_congr e agree
  refine ⟨evaluated, ?_, fun lookup => ⟨?_, ?_⟩⟩
  · unfold holds
    rw [evaluated]
  · exact (looksUp_evaluateBy lookup e).listed
  · exact (looksUp_holdsBy lookup e).listed

/-- Two sources that differ in a variable that is not listed and have no value for one that is, but
that the left operand spares. -/
theorem evaluation_depends_on_listed_variables_of_settled :
    let e := logic .or (compare .contains (var "names") (var "name")) (var "open")
    let first : Variables := fun path =>
      if path = "names" then .ok (.list ["a", "b"]) else if path = "name" then .ok (.string "b")
      else .error (.unresolvedVariable path)
    let second : Variables := fun path => if path = "else" then .ok .null else first path
    first "else" ≠ second "else" ∧ e.evaluate first = e.evaluate second ∧
      e.evaluate first = .ok (.bool true) ∧
      (e.evaluateBy (noted first) []).2 = ["names", "name"] := by
  intro e first second
  have unlisted : "else" ∉ e.paths := by decide
  have agree : ∀ path ∈ e.paths, first path = second path := fun path member =>
    (if_neg fun same : path = "else" => unlisted (same ▸ member)).symm
  obtain ⟨same, -, -⟩ := evaluation_depends_on_listed_variables e agree
  exact ⟨nofun, same, rfl, rfl⟩

end Archetype.Expression
