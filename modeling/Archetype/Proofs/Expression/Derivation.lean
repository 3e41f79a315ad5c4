import Archetype.Expression.Token

/-!
The grammar of expressions. A derivation says how a list of tokens is put together and what
expression it is read as. No list of tokens has two derivations.
-/

namespace Archetype.Expression

/-! Derivations. -/

inductive Level where
  | disjunction
  | conjunction
  | comparison
  deriving DecidableEq

inductive Operator : Level → Type where
  | or : Operator .disjunction
  | and : Operator .conjunction
  | compare (op : Comparison) : Operator .comparison

inductive Symbol where
  | chain (level : Level)
  | unary
  | primary

def Level.operand : Level → Symbol
  | .disjunction => .chain .conjunction
  | .conjunction => .chain .comparison
  | .comparison => .unary

mutual

inductive Derivation : Symbol → Type where
  | chain {level : Level} (first : Derivation level.operand) (rest : Rest level) :
      Derivation (.chain level)
  | not (e : Derivation .unary) : Derivation .unary
  | sizeOf (e : Derivation .unary) : Derivation .unary
  | primary (e : Derivation .primary) : Derivation .unary
  | truth (b : Bool) : Derivation .primary
  | int (i : Int64) : Derivation .primary
  | string (s : String) : Derivation .primary
  | var (path : String) : Derivation .primary
  | parens (e : Derivation (.chain .disjunction)) : Derivation .primary
  | emptyList : Derivation .primary
  | list (first : String) (more : List String) : Derivation .primary

/-- The operators of a level that follow its first operand, each with its right operand. -/
inductive Rest : Level → Type where
  | done {level : Level} : Rest level
  | more {level : Level} (op : Operator level) (next : Derivation level.operand)
      (rest : Rest level) : Rest level

end

def Operator.token {level : Level} : Operator level → Token
  | .or => .logic .or
  | .and => .logic .and
  | .compare op => .compare op

def Operator.combine {level : Level} : Operator level → Expression → Expression → Expression
  | .or => .logic .or
  | .and => .logic .and
  | .compare op => .compare op

def itemTokens (items : List String) : List Token :=
  items.flatMap fun s => [.comma, .string s]

mutual

def Derivation.tokens {s : Symbol} : Derivation s → List Token
  | .chain first rest => first.tokens ++ rest.tokens
  | .not e => .bang :: e.tokens
  | .sizeOf e => .sizeOf :: e.tokens
  | .primary e => e.tokens
  | .truth b => [.truth b]
  | .int i => [.int i]
  | .string s => [.string s]
  | .var path => [.var path]
  | .parens e => .openParen :: (e.tokens ++ [.closeParen])
  | .emptyList => [.openBracket, .closeBracket]
  | .list first more => .openBracket :: .string first :: (itemTokens more ++ [.closeBracket])

def Rest.tokens {level : Level} : Rest level → List Token
  | .done => []
  | .more op next rest => op.token :: (next.tokens ++ rest.tokens)

end

mutual

def Derivation.expression {s : Symbol} : Derivation s → Expression
  | .chain first rest => rest.extend first.expression
  | .not e => .not e.expression
  | .sizeOf e => .sizeOf e.expression
  | .primary e => e.expression
  | .truth b => .literal (.bool b)
  | .int i => .literal (.int i)
  | .string s => .literal (.string s)
  | .var path => .var path
  | .parens e => e.expression
  | .emptyList => .literal (.list [])
  | .list first more => .literal (.list (first :: more))

/-- What was read so far under the operators that follow, grouped to the left. -/
def Rest.extend {level : Level} : Rest level → Expression → Expression
  | .done, left => left
  | .more op next rest, left => rest.extend (op.combine left next.expression)

end

/-! What may follow a derivation. -/

def Token.level? : Token → Option Level
  | .logic .or => some .disjunction
  | .logic .and => some .conjunction
  | .compare _ => some .comparison
  | _ => none

def Level.rank : Level → Nat
  | .disjunction => 0
  | .conjunction => 1
  | .comparison => 2

def Symbol.rank : Symbol → Nat
  | .chain level => level.rank
  | .unary => 3
  | .primary => 3

/-- Tokens that do not go on with something derived from the symbol: they do not begin with an
operator of its level or of a tighter one. -/
def Symbol.EndsBefore (s : Symbol) (tokens : List Token) : Prop :=
  ∀ t ∈ tokens.head?, ∀ level ∈ t.level?, level.rank < s.rank

@[simp] theorem Level.rank_operand (level : Level) : level.operand.rank = level.rank + 1 := by
  cases level <;> rfl

theorem Operator.level?_token {level : Level} (op : Operator level) :
    op.token.level? = some level := by
  cases op <;> rfl

theorem Symbol.endsBefore_nil (s : Symbol) : s.EndsBefore [] := by
  intro t first
  cases first

theorem Symbol.endsBefore_of_level?_eq_none {s : Symbol} {t : Token} (rest : List Token)
    (plain : t.level? = none) : s.EndsBefore (t :: rest) := by
  intro t' first level isLevel
  cases first
  rw [plain] at isLevel
  cases isLevel

theorem Level.operand_endsBefore {level : Level} {tokens : List Token}
    (ends : (Symbol.chain level).EndsBefore tokens) : level.operand.EndsBefore tokens := by
  intro t first tighter isLevel
  rw [rank_operand]
  exact Nat.lt_succ_of_lt (ends t first tighter isLevel)

/-- An operand ends where the operators of its level go on. -/
theorem Rest.operand_endsBefore {level : Level} (rest : Rest level) {tokens : List Token}
    (ends : (Symbol.chain level).EndsBefore tokens) :
    level.operand.EndsBefore (rest.tokens ++ tokens) := by
  cases rest with
  | done => exact Level.operand_endsBefore ends
  | more op next rest =>
      intro t first level' isLevel
      cases first
      rw [op.level?_token] at isLevel
      cases isLevel
      rw [Level.rank_operand]
      exact Nat.lt_succ_self _

theorem Operator.not_endsBefore {level : Level} (op : Operator level) (tokens : List Token) :
    ¬(Symbol.chain level).EndsBefore (op.token :: tokens) := by
  intro ends
  exact Nat.lt_irrefl _ (ends op.token rfl level op.level?_token)

/-! Derivations of the same tokens are the same. -/

theorem Operator.token_injective {level : Level} {op op' : Operator level}
    (same : op.token = op'.token) : op = op' := by
  cases op with
  | or => cases op'; rfl
  | and => cases op'; rfl
  | compare op =>
      cases op'
      cases same
      rfl

theorem itemTokens_injective {items items' : List String} {rest rest' : List Token}
    (same : itemTokens items ++ .closeBracket :: rest =
      itemTokens items' ++ .closeBracket :: rest') :
    items = items' ∧ rest = rest' := by
  induction items generalizing items' with
  | nil =>
      cases items' with
      | nil =>
          cases same
          exact ⟨rfl, rfl⟩
      | cons item' items' => simp [itemTokens] at same
  | cons item items ih =>
      cases items' with
      | nil => simp [itemTokens] at same
      | cons item' items' =>
          simp only [itemTokens, List.flatMap_cons, List.cons_append, List.nil_append,
            List.cons.injEq, Token.string.injEq, true_and] at same
          obtain ⟨first, later⟩ := same
          obtain ⟨rfl, rfl⟩ := ih later
          exact ⟨congrArg (· :: items) first, rfl⟩

/-- A primary does not begin as one of the prefix operators does. -/
theorem Derivation.head_primary (e : Derivation .primary) {t : Token} {tail rest : List Token}
    (same : e.tokens ++ rest = t :: tail) : t ≠ .bang ∧ t ≠ .sizeOf := by
  cases e with
  | _ =>
    simp only [tokens, List.cons_append, List.cons.injEq] at same
    rw [← same.1]
    exact ⟨nofun, nofun⟩

mutual

theorem Derivation.unambiguous {s : Symbol} (d d' : Derivation s) {rest rest' : List Token}
    (ends : s.EndsBefore rest) (ends' : s.EndsBefore rest')
    (same : d.tokens ++ rest = d'.tokens ++ rest') : d = d' ∧ rest = rest' := by
  cases d with
  | chain first more =>
      cases d' with
      | chain first' more' =>
          simp only [Derivation.tokens, List.append_assoc] at same
          obtain ⟨rfl, later⟩ := Derivation.unambiguous first first'
            (more.operand_endsBefore ends) (more'.operand_endsBefore ends') same
          obtain ⟨rfl, rfl⟩ := Rest.unambiguous more more' ends ends' later
          exact ⟨rfl, rfl⟩
  | not e =>
      cases d' with
      | not e' =>
          simp only [Derivation.tokens, List.cons_append, List.cons.injEq, true_and] at same
          obtain ⟨rfl, rfl⟩ := Derivation.unambiguous e e' ends ends' same
          exact ⟨rfl, rfl⟩
      | sizeOf e' => cases (List.cons.inj same).1
      | primary e' => exact absurd rfl (e'.head_primary same.symm).1
  | sizeOf e =>
      cases d' with
      | not e' => cases (List.cons.inj same).1
      | sizeOf e' =>
          simp only [Derivation.tokens, List.cons_append, List.cons.injEq, true_and] at same
          obtain ⟨rfl, rfl⟩ := Derivation.unambiguous e e' ends ends' same
          exact ⟨rfl, rfl⟩
      | primary e' => exact absurd rfl (e'.head_primary same.symm).2
  | primary e =>
      cases d' with
      | not e' => exact absurd rfl (e.head_primary same).1
      | sizeOf e' => exact absurd rfl (e.head_primary same).2
      | primary e' =>
          obtain ⟨rfl, rfl⟩ := Derivation.unambiguous e e' ends ends' same
          exact ⟨rfl, rfl⟩
  | parens e =>
      cases d' with
      | parens e' =>
          simp only [Derivation.tokens, List.cons_append, List.append_assoc, List.nil_append,
            List.cons.injEq, true_and] at same
          obtain ⟨rfl, later⟩ := Derivation.unambiguous e e'
            (Symbol.endsBefore_of_level?_eq_none _ rfl) (Symbol.endsBefore_of_level?_eq_none _ rfl)
            same
          exact ⟨rfl, (List.cons.inj later).2⟩
      | _ => cases (List.cons.inj same).1
  | list item items =>
      cases d' with
      | list item' items' =>
          simp only [Derivation.tokens, List.cons_append, List.append_assoc, List.nil_append,
            List.cons.injEq, Token.string.injEq, true_and] at same
          obtain ⟨rfl, later⟩ := same
          obtain ⟨rfl, rfl⟩ := itemTokens_injective later
          exact ⟨rfl, rfl⟩
      | emptyList => cases (List.cons.inj (List.cons.inj same).2).1
      | _ => cases (List.cons.inj same).1
  | emptyList =>
      cases d' with
      | emptyList => exact ⟨rfl, (List.cons.inj (List.cons.inj same).2).2⟩
      | list item items => cases (List.cons.inj (List.cons.inj same).2).1
      | _ => cases (List.cons.inj same).1
  | _ =>
      cases d' <;> cases (List.cons.inj same).1
      exact ⟨rfl, (List.cons.inj same).2⟩

theorem Rest.unambiguous {level : Level} (x x' : Rest level) {rest rest' : List Token}
    (ends : (Symbol.chain level).EndsBefore rest) (ends' : (Symbol.chain level).EndsBefore rest')
    (same : x.tokens ++ rest = x'.tokens ++ rest') : x = x' ∧ rest = rest' := by
  match x, x' with
  | .done, .done => exact ⟨rfl, same⟩
  | .done, .more op' next' later' =>
      rw [show rest = op'.token :: _ from same] at ends
      exact absurd ends (op'.not_endsBefore _)
  | .more op next later, .done =>
      rw [show rest' = op.token :: _ from same.symm] at ends'
      exact absurd ends' (op.not_endsBefore _)
  | .more op next later, .more op' next' later' =>
      simp only [Rest.tokens, List.cons_append, List.append_assoc, List.cons.injEq] at same
      obtain ⟨sameOp, sameNext⟩ := same
      obtain rfl := Operator.token_injective sameOp
      obtain ⟨rfl, sameLater⟩ := Derivation.unambiguous next next'
        (later.operand_endsBefore ends) (later'.operand_endsBefore ends') sameNext
      obtain ⟨rfl, rfl⟩ := Rest.unambiguous later later' ends ends' sameLater
      exact ⟨rfl, rfl⟩

end

end Archetype.Expression
