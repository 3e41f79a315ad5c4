import Archetype.Expression.Folding
import Archetype.Proofs.Expression.Grammar

/-!
What folding keeps. The rules drop negations and connectives that read their operand as a truth
value. Where only the truth value of the result is asked for this does no harm; where a comparison
or a size takes the value itself, the reading is lost unless the operand is a truth value already.
-/

namespace Archetype.Expression

variable {lookup : Variables}

/-- Does the result of an expression come from reading an operand as a truth value? -/
def readsTruth : Expression → Bool
  | .not _ => true
  | .logic _ _ _ => true
  | _ => false

/-- Folding a negation or a connective leaves an expression that is still worth a truth value, if
it is worth anything. -/
def KeepsValue (lookup : Variables) (e : Expression) : Prop :=
  e.readsTruth → ∀ v, e.fold.evaluate lookup = .ok v → ∃ b, v = .bool b

/-- Every operand of a comparison or a size that the evaluation comes to keeps its value. -/
def FoldsFaithfully (lookup : Variables) : Expression → Prop
  | .literal _ => True
  | .var _ => True
  | .not e => e.FoldsFaithfully lookup
  | .sizeOf e => e.FoldsFaithfully lookup ∧ e.KeepsValue lookup
  | .logic op l r =>
      l.FoldsFaithfully lookup ∧
        (l.holds lookup = .ok (!op.absorbing) → r.FoldsFaithfully lookup)
  | .compare _ l r =>
      (l.FoldsFaithfully lookup ∧ l.KeepsValue lookup) ∧
        (∀ v, l.evaluate lookup = .ok v → r.FoldsFaithfully lookup ∧ r.KeepsValue lookup)

/-! The equations of evaluation, one for each operator. -/

@[simp] theorem evaluate_literal (v : Value) : (literal v).evaluate lookup = .ok v := rfl

@[simp] theorem evaluate_var (path : String) : (var path).evaluate lookup = lookup path := rfl

theorem evaluate_not (e : Expression) :
    (not e).evaluate lookup = (e.holds lookup).map fun b => .bool (!b) := by
  simp only [evaluate, holds]
  cases e.evaluate lookup with
  | error _ => rfl
  | ok v => cases h : v.asBool <;> simp [bind, Except.bind, Except.map, h]

theorem evaluate_sizeOf (e : Expression) :
    (sizeOf e).evaluate lookup = (e.evaluate lookup >>= Value.size).map .int := by
  simp only [evaluate]
  cases e.evaluate lookup with
  | error _ => rfl
  | ok v => cases h : v.size <;> simp [bind, Except.bind, Except.map, h]

theorem evaluate_logic (op : Connective) (l r : Expression) :
    (logic op l r).evaluate lookup =
      (l.holds lookup >>= fun b =>
        if b = op.absorbing then .ok b else r.holds lookup).map .bool := by
  simp only [evaluate, holds]
  cases l.evaluate lookup with
  | error _ => rfl
  | ok v =>
      cases h : v.asBool with
      | error _ => simp [bind, Except.bind, Except.map, h]
      | ok b =>
          by_cases hb : b = op.absorbing
          · simp [bind, Except.bind, Except.map, h, hb]
          · cases hr : r.evaluate lookup with
            | error _ => simp [bind, Except.bind, Except.map, h, hb]
            | ok w => cases hw : w.asBool <;> simp [bind, Except.bind, Except.map, h, hb, hw]

theorem evaluate_compare (op : Comparison) (l r : Expression) :
    (compare op l r).evaluate lookup =
      (l.evaluate lookup >>= fun v => r.evaluate lookup >>= fun w =>
        compareValues op v w).map .bool := by
  simp only [evaluate]
  cases l.evaluate lookup with
  | error _ => rfl
  | ok v =>
      cases r.evaluate lookup with
      | error _ => rfl
      | ok w => cases h : compareValues op v w <;> simp [bind, Except.bind, Except.map, h]

/-- An expression whose results are truth values is worth the truth value that it reads as. -/
theorem holds_of_evaluate_eq_map {e : Expression} {result : Except RunError Bool}
    (h : e.evaluate lookup = result.map .bool) : e.holds lookup = result := by
  unfold holds
  rw [h]
  cases result <;> rfl

theorem holds_not (e : Expression) :
    (not e).holds lookup = (e.holds lookup).map fun b => !b := by
  apply holds_of_evaluate_eq_map
  rw [evaluate_not]
  cases e.holds lookup <;> rfl

theorem holds_logic (op : Connective) (l r : Expression) :
    (logic op l r).holds lookup =
      l.holds lookup >>= fun b => if b = op.absorbing then .ok b else r.holds lookup :=
  holds_of_evaluate_eq_map (evaluate_logic op l r)

theorem evaluate_of_readsTruth {e : Expression} (h : e.readsTruth) :
    e.evaluate lookup = (e.holds lookup).map .bool := by
  cases e with
  | literal _ => cases h
  | var _ => cases h
  | sizeOf _ => cases h
  | compare _ _ _ => cases h
  | not e =>
      rw [holds_not, evaluate_not]
      cases e.holds lookup <;> rfl
  | logic op l r => rw [holds_logic, evaluate_logic]

/-! The rules keep the truth value of what they rewrite; those for comparisons and sizes keep the
value. -/

theorem holds_foldNot (e : Expression) : (foldNot e).holds lookup = (not e).holds lookup := by
  unfold foldNot
  split
  · rfl
  · next e =>
      rw [holds_not, holds_not]
      cases e.holds lookup with
      | error _ => rfl
      | ok b => simp [Except.map]
  · rfl

theorem evaluate_foldSizeOf (e : Expression) :
    (foldSizeOf e).evaluate lookup = (sizeOf e).evaluate lookup := by
  unfold foldSizeOf
  split
  · next v =>
      cases h : v.size with
      | error _ => rfl
      | ok n => rw [evaluate_sizeOf]; simp [bind, Except.bind, Except.map, h]
  · rfl

theorem evaluate_foldCompare (op : Comparison) (l r : Expression) :
    (foldCompare op l r).evaluate lookup = (compare op l r).evaluate lookup := by
  unfold foldCompare
  split
  · next v w =>
      cases h : compareValues op v w with
      | error _ => rfl
      | ok b => rw [evaluate_compare]; simp [bind, Except.bind, Except.map, h]
  · rfl

theorem holds_foldLogic (op : Connective) (l r : Expression) :
    (foldLogic op l r).holds lookup = (logic op l r).holds lookup := by
  unfold foldLogic
  split
  · next b =>
      rw [holds_logic]
      by_cases hb : b = op.absorbing
      · simp [holds, Value.asBool, bind, Except.bind, hb]
      · simp [holds, Value.asBool, bind, Except.bind, hb]
  · next b _ =>
      by_cases hb : b = op.absorbing
      · simp [hb]
      · rw [if_neg hb, holds_logic]
        -- a neutral right operand gives back what a left operand that settles nothing reads as
        cases hl : l.holds lookup with
        | error _ => rfl
        | ok c =>
            by_cases hc : c = op.absorbing
            · simp [bind, Except.bind, hc]
            · have hbc : b = c := by
                cases b <;> cases c <;> cases h : op.absorbing <;> simp_all
              simp [bind, Except.bind, hc, holds, Value.asBool, hbc]
  · rfl

/-! Folding a whole expression. -/

theorem keepsValue_of_not_readsTruth {e : Expression} (h : e.readsTruth = false) :
    e.KeepsValue lookup := by
  intro hreads
  rw [h] at hreads
  cases hreads

theorem evaluate_fold_iff_of_readsTruth {e : Expression} (hreads : e.readsTruth)
    (hholds : e.fold.holds lookup = e.holds lookup) :
    e.fold.evaluate lookup = e.evaluate lookup ↔ e.KeepsValue lookup := by
  rw [evaluate_of_readsTruth hreads, ← hholds]
  constructor
  · intro hvalue _ v hv
    rw [hv] at hvalue
    cases hb : e.fold.holds lookup with
    | error _ => rw [hb] at hvalue; cases hvalue
    | ok b => rw [hb] at hvalue; exact ⟨b, Except.ok.inj hvalue⟩
  · intro hkeeps
    cases hv : e.fold.evaluate lookup with
    | error _ => simp [holds, hv, bind, Except.bind, Except.map]
    | ok v =>
        obtain ⟨b, rfl⟩ := hkeeps hreads v hv
        simp [holds, hv, Value.asBool, bind, Except.bind, Except.map]

theorem holds_fold_logic {op : Connective} {l r : Expression}
    (hl : l.fold.holds lookup = l.holds lookup)
    (hr : l.holds lookup = .ok (!op.absorbing) → r.fold.holds lookup = r.holds lookup) :
    (logic op l r).fold.holds lookup = (logic op l r).holds lookup := by
  rw [fold, holds_foldLogic, holds_logic, holds_logic, hl]
  cases hb : l.holds lookup with
  | error _ => rfl
  | ok b =>
      by_cases hop : b = op.absorbing
      · simp [bind, Except.bind, hop]
      · have hneutral : b = !op.absorbing := by
          cases b <;> cases h : op.absorbing <;> simp_all
        simp [bind, Except.bind, hop, hr (hb.trans (congrArg _ hneutral))]

theorem evaluate_fold_compare {op : Comparison} {l r : Expression}
    (hl : l.fold.evaluate lookup = l.evaluate lookup)
    (hr : ∀ v, l.evaluate lookup = .ok v → r.fold.evaluate lookup = r.evaluate lookup) :
    (compare op l r).fold.evaluate lookup = (compare op l r).evaluate lookup := by
  rw [fold, evaluate_foldCompare, evaluate_compare, evaluate_compare, hl]
  cases hv : l.evaluate lookup with
  | error _ => rfl
  | ok v => rw [hr v hv]

theorem fold_spec (e : Expression) (h : e.FoldsFaithfully lookup) :
    e.fold.holds lookup = e.holds lookup ∧
      (e.fold.evaluate lookup = e.evaluate lookup ↔ e.KeepsValue lookup) := by
  -- an expression that is no negation or connective keeps its value, and with it how it reads
  have hvalue : ∀ {e : Expression}, e.readsTruth = false →
      e.fold.evaluate lookup = e.evaluate lookup →
      e.fold.holds lookup = e.holds lookup ∧
        (e.fold.evaluate lookup = e.evaluate lookup ↔ e.KeepsValue lookup) := by
    intro e hreads heq
    refine ⟨?_, iff_of_true heq (keepsValue_of_not_readsTruth hreads)⟩
    unfold holds
    rw [heq]
  induction e with
  | literal v => exact hvalue rfl rfl
  | var path => exact hvalue rfl rfl
  | not e ih =>
      have hholds : (not e).fold.holds lookup = (not e).holds lookup := by
        rw [fold, holds_foldNot, holds_not, holds_not, (ih h).1]
      exact ⟨hholds, evaluate_fold_iff_of_readsTruth rfl hholds⟩
  | sizeOf e ih =>
      apply hvalue rfl
      rw [fold, evaluate_foldSizeOf, evaluate_sizeOf, evaluate_sizeOf, (ih h.1).2.2 h.2]
  | logic op l r ihl ihr =>
      have hholds : (logic op l r).fold.holds lookup = (logic op l r).holds lookup :=
        holds_fold_logic (ihl h.1).1 fun hneutral => (ihr (h.2 hneutral)).1
      exact ⟨hholds, evaluate_fold_iff_of_readsTruth rfl hholds⟩
  | compare op l r ihl ihr =>
      apply hvalue rfl
      apply evaluate_fold_compare ((ihl h.1.1).2.2 h.1.2)
      intro v hv
      exact (ihr (h.2 v hv).1).2.2 (h.2 v hv).2

theorem holds_of_constant? {e : Expression} {b : Bool} (h : e.constant? = some b)
    (hholds : e.fold.holds lookup = e.holds lookup) : e.holds lookup = .ok b := by
  unfold constant? at h
  split at h
  · next c hc =>
      cases h
      rw [← hholds, hc]
      rfl
  · cases h

/-! Without null, what folding does not keep is a type error. -/

def NullFree : Expression → Prop
  | .literal v => v ≠ .null
  | .var _ => True
  | .not e => e.NullFree
  | .sizeOf e => e.NullFree
  | .logic _ l r => l.NullFree ∧ r.NullFree
  | .compare _ l r => l.NullFree ∧ r.NullFree

theorem nullFree_foldNot {e : Expression} (h : e.NullFree) : (foldNot e).NullFree := by
  unfold foldNot
  split
  · simp [NullFree]
  · exact h
  · exact h

theorem nullFree_foldSizeOf {e : Expression} (h : e.NullFree) : (foldSizeOf e).NullFree := by
  unfold foldSizeOf
  split
  · split
    · simp [NullFree]
    · exact h
  · exact h

theorem nullFree_foldLogic {op : Connective} {l r : Expression} (hl : l.NullFree)
    (hr : r.NullFree) : (foldLogic op l r).NullFree := by
  unfold foldLogic
  split
  · split
    · exact hl
    · exact hr
  · split
    · exact ⟨hl, hr⟩
    · exact hl
  · exact ⟨hl, hr⟩

theorem nullFree_foldCompare {op : Comparison} {l r : Expression} (hl : l.NullFree)
    (hr : r.NullFree) : (foldCompare op l r).NullFree := by
  unfold foldCompare
  split
  · split
    · simp [NullFree]
    · exact ⟨hl, hr⟩
  · exact ⟨hl, hr⟩

theorem nullFree_fold {e : Expression} (h : e.NullFree) : e.fold.NullFree := by
  induction e with
  | literal v => exact h
  | var path => exact h
  | not e ih => exact nullFree_foldNot (ih h)
  | sizeOf e ih => exact nullFree_foldSizeOf (ih h)
  | logic op l r ihl ihr => exact nullFree_foldLogic (ihl h.1) (ihr h.2)
  | compare op l r ihl ihr => exact nullFree_foldCompare (ihl h.1) (ihr h.2)

theorem evaluate_ne_null {e : Expression} (h : e.NullFree)
    (hlookup : ∀ path, lookup path ≠ .ok .null) : e.evaluate lookup ≠ .ok .null := by
  have hmap : ∀ {α : Type} {result : Except RunError α} {f : α → Value},
      (∀ a, f a ≠ .null) → result.map f ≠ .ok .null := by
    intro α result f hf heq
    cases result with
    | error _ => cases heq
    | ok a => exact hf a (Except.ok.inj heq)
  cases e with
  | literal v => exact fun heq => h (Except.ok.inj heq)
  | var path => exact hlookup path
  | not e => rw [evaluate_not]; exact hmap (by simp)
  | sizeOf e => rw [evaluate_sizeOf]; exact hmap (by simp)
  | logic op l r => rw [evaluate_logic]; exact hmap (by simp)
  | compare op l r => rw [evaluate_compare]; exact hmap (by simp)

/-- Reading a value that is neither a truth value nor null as one is a type error. -/
theorem asBool_eq_mismatch {v : Value} (hnull : v ≠ .null) (hbool : ∀ b, v ≠ .bool b) :
    v.asBool = .error (.typeMismatch .boolean v) := by
  cases v with
  | null => exact absurd rfl hnull
  | bool b => exact absurd rfl (hbool b)
  | string _ => rfl
  | int _ => rfl
  | list _ => rfl

def FailsReading (lookup : Variables) (e : Expression) : Prop :=
  ∃ v, (∀ b, v ≠ .bool b) ∧ e.evaluate lookup = .error (.typeMismatch .boolean v)

theorem holds_of_failsReading {e : Expression} (h : e.FailsReading lookup) :
    ∃ v, (∀ b, v ≠ .bool b) ∧ e.holds lookup = .error (.typeMismatch .boolean v) := by
  obtain ⟨v, hv, herror⟩ := h
  exact ⟨v, hv, by simp [holds, herror, bind, Except.bind]⟩

theorem keepsValue_or_failsReading {e : Expression} (hfree : e.NullFree)
    (hlookup : ∀ path, lookup path ≠ .ok .null) (h : e.FoldsFaithfully lookup) :
    e.KeepsValue lookup ∨ e.FailsReading lookup := by
  by_cases hkeeps : e.KeepsValue lookup
  · exact .inl hkeeps
  · simp only [KeepsValue, Classical.not_forall, not_exists] at hkeeps
    obtain ⟨hreads, v, hv, hbool⟩ := hkeeps
    have hnull : v ≠ .null := fun heq =>
      evaluate_ne_null (nullFree_fold hfree) hlookup (heq ▸ hv)
    refine .inr ⟨v, hbool, ?_⟩
    rw [evaluate_of_readsTruth hreads, ← (fold_spec e h).1]
    simp [holds, hv, asBool_eq_mismatch hnull hbool, bind, Except.bind, Except.map]

theorem foldsFaithfully_or_failsReading {e : Expression} (hfree : e.NullFree)
    (hlookup : ∀ path, lookup path ≠ .ok .null) :
    e.FoldsFaithfully lookup ∨ e.FailsReading lookup := by
  induction e with
  | literal v => exact .inl trivial
  | var path => exact .inl trivial
  | not e ih =>
      refine (ih hfree).imp_right fun h => ?_
      obtain ⟨v, hv, herror⟩ := holds_of_failsReading h
      exact ⟨v, hv, by rw [evaluate_not, herror]; rfl⟩
  | sizeOf e ih =>
      have hfails : e.FailsReading lookup → (sizeOf e).FailsReading lookup := by
        rintro ⟨v, hv, herror⟩
        exact ⟨v, hv, by rw [evaluate_sizeOf, herror]; rfl⟩
      rcases ih hfree with h | h
      · exact (keepsValue_or_failsReading (e := e) hfree hlookup h).imp
          (fun hkeeps => ⟨h, hkeeps⟩) hfails
      · exact .inr (hfails h)
  | logic op l r ihl ihr =>
      rcases ihl hfree.1 with hl | hl
      · by_cases hneutral : l.holds lookup = .ok (!op.absorbing)
        · refine (ihr hfree.2).imp (fun hr => ⟨hl, fun _ => hr⟩) fun hr => ?_
          obtain ⟨v, hv, herror⟩ := holds_of_failsReading hr
          refine ⟨v, hv, ?_⟩
          rw [evaluate_logic, hneutral]
          simp [bind, Except.bind, herror, Except.map]
        · exact .inl ⟨hl, fun h => absurd h hneutral⟩
      · obtain ⟨v, hv, herror⟩ := holds_of_failsReading hl
        exact .inr ⟨v, hv, by rw [evaluate_logic, herror]; rfl⟩
  | compare op l r ihl ihr =>
      have hleft : l.FailsReading lookup → (compare op l r).FailsReading lookup := by
        rintro ⟨v, hv, herror⟩
        exact ⟨v, hv, by rw [evaluate_compare, herror]; rfl⟩
      rcases ihl hfree.1 with hl | hl
      · rcases keepsValue_or_failsReading hfree.1 hlookup hl with hkl | hkl
        · cases hw : l.evaluate lookup with
          | error _ => exact .inl ⟨⟨hl, hkl⟩, fun v hv => by rw [hw] at hv; cases hv⟩
          | ok w =>
              have hright : r.FailsReading lookup → (compare op l r).FailsReading lookup := by
                rintro ⟨v, hv, herror⟩
                exact ⟨v, hv, by rw [evaluate_compare, hw, herror]; rfl⟩
              rcases ihr hfree.2 with hr | hr
              · exact (keepsValue_or_failsReading hfree.2 hlookup hr).imp
                  (fun hkr => ⟨⟨hl, hkl⟩, fun _ _ => ⟨hr, hkr⟩⟩) hright
              · exact .inr (hright hr)
        · exact .inr (hleft hkl)
      · exact .inr (hleft hl)

/-! Nothing that is parsed has a null literal. -/

theorem Operator.nullFree_combine {level : Level} (op : Operator level) {l r : Expression}
    (hl : l.NullFree) (hr : r.NullFree) : (op.combine l r).NullFree := by
  cases op <;> exact ⟨hl, hr⟩

mutual

theorem Derivation.nullFree_expression {s : Symbol} (d : Derivation s) : d.expression.NullFree := by
  cases d with
  | chain first rest => exact rest.nullFree_extend first.nullFree_expression
  | not e => exact e.nullFree_expression
  | sizeOf e => exact e.nullFree_expression
  | primary e => exact e.nullFree_expression
  | parens e => exact e.nullFree_expression
  | var path => trivial
  | _ => simp [Derivation.expression, NullFree]

theorem Rest.nullFree_extend {level : Level} (x : Rest level) {left : Expression}
    (hleft : left.NullFree) : (x.extend left).NullFree :=
  match x with
  | .done => hleft
  | .more op next rest => rest.nullFree_extend (op.nullFree_combine hleft next.nullFree_expression)

end

theorem nullFree_of_parse {source : String} {e : Expression} (h : parse source = .ok e) :
    e.NullFree := by
  obtain ⟨_, _, d, _, rfl⟩ := exists_derivation h
  exact d.nullFree_expression

/-- Folding keeps the outcome of a condition if the operands of comparisons and sizes keep their
values, and an operand keeps its value exactly if folding takes no reading as a truth value away
from anything else. Then a condition that folds to a truth value has that truth value. Where no
variable is null, the condition otherwise fails with the type error of such a reading. -/
theorem holds_fold_of_foldsFaithfully {source : String} {e : Expression}
    (hparse : parse source = .ok e) (lookup : Variables) :
    (e.FoldsFaithfully lookup →
      e.fold.holds lookup = e.holds lookup ∧
        (e.fold.evaluate lookup = e.evaluate lookup ↔ e.KeepsValue lookup) ∧
        ∀ b, e.constant? = some b → e.holds lookup = .ok b) ∧
      ((∀ path, lookup path ≠ .ok .null) →
        e.FoldsFaithfully lookup ∨
          ∃ v, (∀ b, v ≠ .bool b) ∧ e.holds lookup = .error (.typeMismatch .boolean v)) := by
  constructor
  · intro h
    obtain ⟨hholds, hvalue⟩ := fold_spec e h
    exact ⟨hholds, hvalue, fun b hb => holds_of_constant? hb hholds⟩
  · intro hlookup
    exact (foldsFaithfully_or_failsReading (nullFree_of_parse hparse) hlookup).imp_right
      holds_of_failsReading

theorem parse_eq_ok {source : String} {e : Expression} (h : (parse source).toOption = some e) :
    parse source = .ok e := by
  cases hparse : parse source with
  | error _ => rw [hparse] at h; cases h
  | ok found => rw [hparse] at h; cases h; rfl

def onlyText (name text : String) : Variables := fun path =>
  if path = name then .ok (.string text) else .error (.unresolvedVariable path)

/-- A comparison is a truth value, so a connective around it may go. -/
theorem holds_fold_comparison_operand :
    ∃ e, parse "(true && $\x7bx\x7d == 'a') == true" = .ok e ∧
      e.FoldsFaithfully (onlyText "x" "a") ∧
      e.fold.holds (onlyText "x" "a") = e.holds (onlyText "x" "a") := by
  let operand := compare .equal (var "x") (literal (.string "a"))
  let e := compare .equal (logic .and (literal (.bool true)) operand) (literal (.bool true))
  have hparse : parse "(true && $\x7bx\x7d == 'a') == true" = .ok e :=
    parse_eq_ok (by decide +kernel)
  have hoperand : operand.FoldsFaithfully (onlyText "x" "a") :=
    ⟨⟨trivial, by intro h; cases h⟩, fun _ _ => ⟨trivial, by intro h; cases h⟩⟩
  have hkeeps : (logic .and (literal (.bool true)) operand).KeepsValue (onlyText "x" "a") := by
    intro _ v hv
    exact ⟨true, (Except.ok.inj hv).symm⟩
  have hfaithful : e.FoldsFaithfully (onlyText "x" "a") :=
    ⟨⟨⟨trivial, fun _ => hoperand⟩, hkeeps⟩, fun _ _ => ⟨trivial, by intro h; cases h⟩⟩
  exact ⟨e, hparse, hfaithful, ((holds_fold_of_foldsFaithfully hparse _).1 hfaithful).1⟩

/-- A connective that is an operand of a comparison fails on a text; folded away, it does not. -/
theorem holds_fold_ne_text_operand :
    ∃ e, parse "(true && 'a') == 'a'" = .ok e ∧
      e.holds .none = .error (.typeMismatch .boolean (.string "a")) ∧
      e.constant? = some true ∧ e.fold.holds .none = .ok true :=
  ⟨compare .equal (logic .and (literal (.bool true)) (literal (.string "a")))
    (literal (.string "a")), parse_eq_ok (by decide +kernel), rfl, rfl, rfl⟩

end Archetype.Expression
