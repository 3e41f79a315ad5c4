import Archetype.Proofs.Expression.Folding

/-!
Folded expressions. Every rule of folding leaves an expression that no rule applies to, at the top
or anywhere inside. So folding an expression that was folded before changes nothing, and a condition
that is stored with the text of its folded expression is not folded any further.
-/

namespace Archetype.Expression

/-- An expression that no rule of folding applies to at the top, with operands like it. -/
def Normal : Expression → Prop
  | .literal _ => True
  | .var _ => True
  | .not e => e.Normal ∧ foldNot e = .not e
  | .sizeOf e => e.Normal ∧ foldSizeOf e = .sizeOf e
  | .logic op l r => l.Normal ∧ r.Normal ∧ foldLogic op l r = .logic op l r
  | .compare op l r => l.Normal ∧ r.Normal ∧ foldCompare op l r = .compare op l r

theorem Normal.fold_eq {e : Expression} (normal : e.Normal) : e.fold = e := by
  induction e with
  | literal v => rfl
  | var path => rfl
  | not e ih => rw [fold, ih normal.1, normal.2]
  | sizeOf e ih => rw [fold, ih normal.1, normal.2]
  | logic op l r ihl ihr => rw [fold, ihl normal.1, ihr normal.2.1, normal.2.2]
  | compare op l r ihl ihr => rw [fold, ihl normal.1, ihr normal.2.1, normal.2.2]

/-! Every rule leaves a normal expression. -/

theorem normal_foldNot {e : Expression} (normal : e.Normal) : (foldNot e).Normal := by
  unfold foldNot
  split
  · trivial
  · exact normal.1
  · next plain double =>
    refine ⟨normal, ?_⟩
    unfold foldNot
    split
    · exact absurd rfl (plain _)
    · exact absurd rfl (double _)
    · rfl

theorem normal_foldSizeOf {e : Expression} (normal : e.Normal) : (foldSizeOf e).Normal := by
  unfold foldSizeOf
  split
  · split
    · trivial
    · next v fault failed =>
      refine ⟨normal, ?_⟩
      simp only [foldSizeOf, failed]
  · next nonliteral =>
    refine ⟨normal, ?_⟩
    unfold foldSizeOf
    split
    · exact absurd rfl (nonliteral _)
    · rfl

theorem normal_foldLogic {op : Connective} {l r : Expression} (left : l.Normal)
    (right : r.Normal) : (foldLogic op l r).Normal := by
  unfold foldLogic
  split
  · split
    · trivial
    · exact right
  · next b unsettled =>
    split
    · next absorbs =>
      refine ⟨left, trivial, ?_⟩
      unfold foldLogic
      split
      · exact absurd rfl (unsettled _)
      · next same =>
        cases same
        rw [if_pos absorbs]
      · rfl
    · exact left
  · next unsettled unsettledRight =>
    refine ⟨left, right, ?_⟩
    unfold foldLogic
    split
    · exact absurd rfl (unsettled _)
    · exact absurd rfl (unsettledRight _)
    · rfl

theorem normal_foldCompare {op : Comparison} {l r : Expression} (left : l.Normal)
    (right : r.Normal) : (foldCompare op l r).Normal := by
  unfold foldCompare
  split
  · split
    · trivial
    · next failed =>
      refine ⟨left, right, ?_⟩
      simp only [foldCompare, failed]
  · next nonliteral =>
    refine ⟨left, right, ?_⟩
    unfold foldCompare
    split
    · exact absurd rfl (nonliteral _ _ rfl)
    · rfl

theorem normal_fold (e : Expression) : e.fold.Normal := by
  induction e with
  | literal v => trivial
  | var path => trivial
  | not e ih => exact normal_foldNot ih
  | sizeOf e ih => exact normal_foldSizeOf ih
  | logic op l r ihl ihr => exact normal_foldLogic ihl ihr
  | compare op l r ihl ihr => exact normal_foldCompare ihl ihr

theorem fold_fold (e : Expression) : e.fold.fold = e.fold := (normal_fold e).fold_eq

/-- What does not fold to a truth value does not do so once it is folded. -/
theorem constant?_fold (e : Expression) : e.fold.constant? = e.constant? := by
  rw [constant?, fold_fold, constant?]

/-! What is inside a folded expression. -/

def parts : Expression → List Expression
  | .literal v => [.literal v]
  | .var path => [.var path]
  | .not e => .not e :: e.parts
  | .sizeOf e => .sizeOf e :: e.parts
  | .logic op l r => .logic op l r :: (l.parts ++ r.parts)
  | .compare op l r => .compare op l r :: (l.parts ++ r.parts)

theorem Normal.of_mem_parts {e part : Expression} (normal : e.Normal) (member : part ∈ e.parts) :
    part.Normal := by
  induction e with
  | literal v =>
      obtain rfl := List.mem_singleton.1 member
      exact normal
  | var path =>
      obtain rfl := List.mem_singleton.1 member
      exact normal
  | not e ih =>
      rcases List.mem_cons.1 member with rfl | inside
      · exact normal
      · exact ih normal.1 inside
  | sizeOf e ih =>
      rcases List.mem_cons.1 member with rfl | inside
      · exact normal
      · exact ih normal.1 inside
  | logic op l r ihl ihr =>
      rcases List.mem_cons.1 member with rfl | inside
      · exact normal
      · rcases List.mem_append.1 inside with left | right
        · exact ihl normal.1 left
        · exact ihr normal.2.1 right
  | compare op l r ihl ihr =>
      rcases List.mem_cons.1 member with rfl | inside
      · exact normal
      · rcases List.mem_append.1 inside with left | right
        · exact ihl normal.1 left
        · exact ihr normal.2.1 right

/-! Folding adds no variables. -/

theorem paths_foldNot (e : Expression) : (foldNot e).paths ⊆ e.paths := by
  unfold foldNot
  split <;> simp [paths]

theorem paths_foldSizeOf (e : Expression) : (foldSizeOf e).paths ⊆ e.paths := by
  unfold foldSizeOf
  split
  · split <;> simp [paths]
  · exact List.Subset.refl _

theorem paths_foldLogic (op : Connective) (l r : Expression) :
    (foldLogic op l r).paths ⊆ l.paths ++ r.paths := by
  unfold foldLogic
  split
  · split <;> simp [paths]
  · split <;> simp [paths]
  · exact List.Subset.refl _

theorem paths_foldCompare (op : Comparison) (l r : Expression) :
    (foldCompare op l r).paths ⊆ l.paths ++ r.paths := by
  unfold foldCompare
  split
  · split <;> simp [paths]
  · exact List.Subset.refl _

theorem paths_fold (e : Expression) : e.fold.paths ⊆ e.paths := by
  induction e with
  | literal v => exact List.Subset.refl _
  | var path => exact List.Subset.refl _
  | not e ih => exact List.Subset.trans (paths_foldNot e.fold) ih
  | sizeOf e ih => exact List.Subset.trans (paths_foldSizeOf e.fold) ih
  | logic op l r ihl ihr =>
      exact List.Subset.trans (paths_foldLogic op l.fold r.fold) (List.append_subset.2
        ⟨List.subset_append_of_subset_left _ ihl, List.subset_append_of_subset_right _ ihr⟩)
  | compare op l r ihl ihr =>
      exact List.Subset.trans (paths_foldCompare op l.fold r.fold) (List.append_subset.2
        ⟨List.subset_append_of_subset_left _ ihl, List.subset_append_of_subset_right _ ihr⟩)

/-- Folding reaches a normal form: it changes neither the folded expression nor anything inside it,
and the folded expression reads no variable that the expression does not. -/
theorem folding_reaches_normal_form (e : Expression) :
    e.fold.fold = e.fold ∧ (∀ part ∈ e.fold.parts, part.fold = part) ∧
      ∀ path ∈ e.fold.paths, path ∈ e.paths := by
  refine ⟨fold_fold e, fun part member => ?_, fun path member => ?_⟩
  · exact ((normal_fold e).of_mem_parts member).fold_eq
  · exact paths_fold e member

/-- What one rule leaves is taken up by the rule around it, here twice on the way out. -/
example :
    (not (logic .or (var "a") (not (compare .equal (literal (.int 1)) (literal (.int 1)))))).fold =
      not (var "a") := by
  decide

end Archetype.Expression
