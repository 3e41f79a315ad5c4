import Archetype.Expression.Parser
import Archetype.Proofs.Expression.Derivation

/-!
The parser reads the grammar: it accepts exactly the tokens of the derivations, and what it gives
is the expression of the derivation. The bounds that it carries never decide anything.
-/

namespace Archetype.Expression

variable {ε α β : Type}

theorem bind_eq_ok {read : Except ε α} {next : α → Except ε β} {result : β} :
    (read >>= next) = .ok result ↔ ∃ first, read = .ok first ∧ next first = .ok result := by
  cases read with
  | error error => exact ⟨nofun, nofun⟩
  | ok first => exact ⟨fun gives => ⟨first, rfl, gives⟩, fun ⟨_, rfl, gives⟩ => gives⟩

/-! The operators that the parser looks for. -/

def Level.operator? : Level → Token → Option (Expression → Expression → Expression)
  | .disjunction => connectiveOf .or
  | .conjunction => connectiveOf .and
  | .comparison => comparisonOf

theorem Operator.operator?_token {level : Level} (op : Operator level) :
    level.operator? op.token = some op.combine := by
  cases op <;> rfl

theorem connectiveOf_eq_some {op : Connective} {t : Token}
    {combine : Expression → Expression → Expression} (found : connectiveOf op t = some combine) :
    t = .logic op ∧ combine = .logic op := by
  unfold connectiveOf at found
  split at found
  · split at found
    · next same =>
      cases found
      exact ⟨same ▸ rfl, rfl⟩
    · cases found
  · cases found

theorem exists_operator {level : Level} {t : Token}
    {combine : Expression → Expression → Expression} (found : level.operator? t = some combine) :
    ∃ op : Operator level, op.token = t ∧ op.combine = combine := by
  cases level with
  | disjunction =>
      obtain ⟨rfl, rfl⟩ := connectiveOf_eq_some found
      exact ⟨.or, rfl, rfl⟩
  | conjunction =>
      obtain ⟨rfl, rfl⟩ := connectiveOf_eq_some found
      exact ⟨.and, rfl, rfl⟩
  | comparison =>
      simp only [Level.operator?, comparisonOf] at found
      split at found
      · next op => exact ⟨.compare op, rfl, Option.some.inj found⟩
      · cases found

theorem operator?_eq_none {level : Level} {t : Token} {rest : List Token}
    (ends : (Symbol.chain level).EndsBefore (t :: rest)) : level.operator? t = none := by
  cases found : level.operator? t with
  | none => rfl
  | some combine =>
      obtain ⟨op, rfl, -⟩ := exists_operator found
      exact absurd ends (op.not_endsBefore rest)

/-! Tokens taken from the front. -/

inductive Taken : List Lexeme → List Token → List Lexeme → Prop where
  | nil (rest : List Lexeme) : Taken rest [] rest
  | cons (lexeme : Lexeme) {lexemes rest : List Lexeme} {tokens : List Token}
      (later : Taken lexemes tokens rest) : Taken (lexeme :: lexemes) (lexeme.token :: tokens) rest

theorem Taken.append {lexemes between rest : List Lexeme} {tokens tokens' : List Token}
    (first : Taken lexemes tokens between) (second : Taken between tokens' rest) :
    Taken lexemes (tokens ++ tokens') rest := by
  induction first with
  | nil => exact second
  | cons lexeme _ ih => exact .cons lexeme (ih second)

theorem Taken.of_cons {lexemes rest : List Lexeme} {t : Token} {tokens : List Token}
    (taken : Taken lexemes (t :: tokens) rest) :
    ∃ text later, lexemes = ⟨t, text⟩ :: later ∧ Taken later tokens rest := by
  cases taken with
  | cons lexeme later => exact ⟨lexeme.text, _, rfl, later⟩

theorem Taken.of_append {lexemes rest : List Lexeme} {tokens tokens' : List Token}
    (taken : Taken lexemes (tokens ++ tokens') rest) :
    ∃ between, Taken lexemes tokens between ∧ Taken between tokens' rest := by
  induction tokens generalizing lexemes with
  | nil => exact ⟨lexemes, .nil lexemes, taken⟩
  | cons t tokens ih =>
      cases taken with
      | cons lexeme later =>
          obtain ⟨between, first, second⟩ := ih later
          exact ⟨between, .cons lexeme first, second⟩

theorem Taken.length_eq {lexemes rest : List Lexeme} {tokens : List Token}
    (taken : Taken lexemes tokens rest) : lexemes.length = tokens.length + rest.length := by
  induction taken with
  | nil => simp
  | cons lexeme later ih => simp [ih]; omega

theorem Taken.map_token_eq {lexemes rest : List Lexeme} {tokens : List Token}
    (taken : Taken lexemes tokens rest) :
    lexemes.map (·.token) = tokens ++ rest.map (·.token) := by
  induction taken with
  | nil => rfl
  | cons lexeme later ih => simp [ih]

theorem taken_all (lexemes : List Lexeme) : Taken lexemes (lexemes.map (·.token)) [] := by
  induction lexemes with
  | nil => exact .nil []
  | cons lexeme lexemes ih => exact .cons lexeme ih

/-! What the parser accepts has a derivation. -/

/-- Whatever the reader accepts has a derivation, with the expression that it gives. -/
def Sound (read : Reader Expression) (s : Symbol) : Prop :=
  ∀ lexemes e rest, read lexemes = .ok (e, rest) →
    ∃ d : Derivation s, Taken lexemes d.tokens rest ∧ d.expression = e

theorem extend_sound {level : Level} {read : Reader Expression} (sound : Sound read level.operand)
    {bound : Nat} {left e : Expression} {lexemes rest : List Lexeme}
    (gives : extend level.operator? read bound left lexemes = .ok (e, rest)) :
    ∃ x : Rest level, Taken lexemes x.tokens rest ∧ x.extend left = e := by
  fun_induction extend level.operator? read bound left lexemes with
  | case1 left lexemes =>
      cases gives
      exact ⟨.done, .nil _, rfl⟩
  | case2 bound left =>
      cases gives
      exact ⟨.done, .nil _, rfl⟩
  | case3 bound left lexeme lexemes noOperator =>
      cases gives
      exact ⟨.done, .nil _, rfl⟩
  | case4 bound left lexeme lexemes combine found ih =>
      obtain ⟨⟨right, between⟩, first, later⟩ := bind_eq_ok.1 gives
      obtain ⟨op, token, rfl⟩ := exists_operator found
      obtain ⟨next, takenNext, rfl⟩ := sound _ _ _ first
      obtain ⟨x, takenLater, rfl⟩ := ih _ _ later
      refine ⟨.more op next x, ?_, rfl⟩
      rw [Rest.tokens, token]
      exact .cons lexeme (takenNext.append takenLater)

theorem chain_sound (level : Level) {read : Reader Expression} (sound : Sound read level.operand)
    (bound : Nat) : Sound (chain bound level.operator? read) (.chain level) := by
  intro lexemes e rest gives
  obtain ⟨⟨left, between⟩, first, later⟩ := bind_eq_ok.1 gives
  obtain ⟨d, takenFirst, rfl⟩ := sound _ _ _ first
  obtain ⟨x, takenLater, rfl⟩ := extend_sound sound later
  exact ⟨.chain d x, takenFirst.append takenLater, rfl⟩

theorem disjunction_sound {read : Reader Expression} (sound : Sound read .unary) (bound : Nat) :
    Sound (disjunction bound read) (.chain .disjunction) := by
  apply chain_sound .disjunction
  apply chain_sound .conjunction
  exact chain_sound .comparison sound bound

theorem listItems_sound {items : List String} {e : Expression} {lexemes rest : List Lexeme}
    (gives : listItems items lexemes = .ok (e, rest)) :
    ∃ first more, Taken lexemes (.string first :: (itemTokens more ++ [.closeBracket])) rest ∧
      e = .literal (.list (items ++ first :: more)) := by
  fun_induction listItems items lexemes with
  | case2 items s text text' later ih =>
      obtain ⟨first, more, taken, rfl⟩ := ih gives
      refine ⟨s, first :: more, ?_, by simp⟩
      exact .cons ⟨.string s, text⟩ (.cons ⟨.comma, text'⟩ taken)
  | case3 items s text text' later =>
      cases gives
      exact ⟨s, [], .cons ⟨.string s, text⟩ (.cons ⟨.closeBracket, text'⟩ (.nil _)), rfl⟩
  | _ => cases gives

theorem listLiteral_sound {e : Expression} {lexemes rest : List Lexeme}
    (gives : listLiteral lexemes = .ok (e, rest)) (bracket : Lexeme)
    (isBracket : bracket.token = .openBracket) :
    ∃ d : Derivation .primary, Taken (bracket :: lexemes) d.tokens rest ∧ d.expression = e := by
  unfold listLiteral at gives
  split at gives
  · next text later =>
    cases gives
    refine ⟨.emptyList, ?_, rfl⟩
    rw [Derivation.tokens, ← isBracket]
    exact .cons bracket (.cons ⟨.closeBracket, text⟩ (.nil _))
  · obtain ⟨first, more, taken, rfl⟩ := listItems_sound gives
    refine ⟨.list first more, ?_, rfl⟩
    rw [Derivation.tokens, ← isBracket]
    exact .cons bracket taken

theorem closeParen_taken {lexemes rest : List Lexeme}
    (gives : closeParen lexemes = .ok ((), rest)) :
    Taken lexemes [.closeParen] rest := by
  unfold closeParen at gives
  split at gives
  · cases gives
  · next text later =>
    cases gives
    exact .cons ⟨.closeParen, text⟩ (.nil _)
  · cases gives

theorem operand_bang (n : Nat) (text : List Char) (rest : List Lexeme) :
    operand (n + 1) (⟨.bang, text⟩ :: rest) =
      (do let (e, rest) ← operand n rest
          .ok (.not e, rest)) := rfl

theorem operand_sizeOf (n : Nat) (text : List Char) (rest : List Lexeme) :
    operand (n + 1) (⟨.sizeOf, text⟩ :: rest) =
      (do let (e, rest) ← operand n rest
          .ok (.sizeOf e, rest)) := rfl

theorem operand_openParen (n : Nat) (text : List Char) (rest : List Lexeme) :
    operand (n + 1) (⟨.openParen, text⟩ :: rest) =
      (do let (e, rest) ← disjunction n (operand n) rest
          let ((), rest) ← closeParen rest
          .ok (e, rest)) := rfl

theorem operand_sound (bound : Nat) : Sound (operand bound) .unary := by
  intro lexemes e rest gives
  induction bound generalizing lexemes e rest with
  | zero => cases gives
  | succ n ih =>
      cases lexemes with
      | nil => cases gives
      | cons lexeme lexemes =>
          obtain ⟨token, text⟩ := lexeme
          cases token with
          | bang =>
              rw [operand_bang, bind_eq_ok] at gives
              obtain ⟨⟨e', between⟩, first, later⟩ := gives
              cases later
              obtain ⟨d, taken, rfl⟩ := ih _ _ _ first
              exact ⟨.not d, .cons ⟨.bang, text⟩ taken, rfl⟩
          | sizeOf =>
              rw [operand_sizeOf, bind_eq_ok] at gives
              obtain ⟨⟨e', between⟩, first, later⟩ := gives
              cases later
              obtain ⟨d, taken, rfl⟩ := ih _ _ _ first
              exact ⟨.sizeOf d, .cons ⟨.sizeOf, text⟩ taken, rfl⟩
          | truth b =>
              cases gives
              exact ⟨.primary (.truth b), .cons ⟨.truth b, text⟩ (.nil _), rfl⟩
          | int i =>
              cases gives
              exact ⟨.primary (.int i), .cons ⟨.int i, text⟩ (.nil _), rfl⟩
          | string s =>
              cases gives
              exact ⟨.primary (.string s), .cons ⟨.string s, text⟩ (.nil _), rfl⟩
          | var path =>
              cases gives
              exact ⟨.primary (.var path), .cons ⟨.var path, text⟩ (.nil _), rfl⟩
          | openParen =>
              rw [operand_openParen, bind_eq_ok] at gives
              obtain ⟨⟨e', between⟩, first, later⟩ := gives
              obtain ⟨⟨⟨⟩, after⟩, closed, same⟩ := bind_eq_ok.1 later
              cases same
              obtain ⟨d, taken, rfl⟩ := disjunction_sound ih n _ _ _ first
              refine ⟨.primary (.parens d), ?_, rfl⟩
              exact .cons ⟨.openParen, text⟩ (taken.append (closeParen_taken closed))
          | openBracket =>
              obtain ⟨d, taken, rfl⟩ := listLiteral_sound gives ⟨.openBracket, text⟩ rfl
              exact ⟨.primary d, taken, rfl⟩
          | _ => cases gives

/-! What has a derivation is accepted. -/

/-- The reader takes the tokens of every derivation shorter than the bound, wherever it ends. -/
def Complete (bound : Nat) (read : Reader Expression) (s : Symbol) : Prop :=
  ∀ (d : Derivation s) (lexemes rest : List Lexeme), d.tokens.length < bound →
    Taken lexemes d.tokens rest → s.EndsBefore (rest.map (·.token)) →
      read lexemes = .ok (d.expression, rest)

theorem extend_complete {level : Level} {read : Reader Expression} {bound : Nat}
    (complete : Complete bound read level.operand) {n : Nat} (x : Rest level) (left : Expression)
    {lexemes rest : List Lexeme} (short : x.tokens.length ≤ n) (within : x.tokens.length < bound)
    (taken : Taken lexemes x.tokens rest)
    (ends : (Symbol.chain level).EndsBefore (rest.map (·.token))) :
    extend level.operator? read n left lexemes = .ok (x.extend left, rest) := by
  induction n generalizing x left lexemes with
  | zero =>
      cases x with
      | done =>
          cases taken
          rfl
      | more op next later => exact absurd short (Nat.not_succ_le_zero _)
  | succ n ih =>
      cases x with
      | done =>
          cases taken
          cases rest with
          | nil => rfl
          | cons lexeme rest => simp only [extend, operator?_eq_none ends, Rest.extend]
      | more op next later =>
          obtain ⟨text, tail, rfl, takenTail⟩ := taken.of_cons
          obtain ⟨between, takenNext, takenLater⟩ := takenTail.of_append
          simp only [Rest.tokens, List.length_cons, List.length_append] at short within
          have nextEnds : level.operand.EndsBefore (between.map (·.token)) := by
            rw [takenLater.map_token_eq]
            exact later.operand_endsBefore ends
          have first := complete next tail between (by omega) takenNext nextEnds
          simp only [extend, op.operator?_token, first, Rest.extend]
          exact ih later _ (by omega) (by omega) takenLater

theorem chain_complete (level : Level) {read : Reader Expression} {bound : Nat}
    (complete : Complete bound read level.operand) :
    Complete bound (chain bound level.operator? read) (.chain level) := by
  intro d lexemes rest short taken ends
  cases d with
  | chain first more =>
      obtain ⟨between, takenFirst, takenMore⟩ := taken.of_append
      simp only [Derivation.tokens, List.length_append] at short
      have firstEnds : level.operand.EndsBefore (between.map (·.token)) := by
        rw [takenMore.map_token_eq]
        exact more.operand_endsBefore ends
      have left := complete first lexemes between (by omega) takenFirst firstEnds
      exact bind_eq_ok.2 ⟨_, left,
        extend_complete complete more _ (by omega) (by omega) takenMore ends⟩

theorem disjunction_complete {read : Reader Expression} {bound : Nat}
    (complete : Complete bound read .unary) :
    Complete bound (disjunction bound read) (.chain .disjunction) := by
  apply chain_complete .disjunction
  apply chain_complete .conjunction
  exact chain_complete .comparison complete

theorem listItems_complete {items more : List String} {first : String}
    {lexemes rest : List Lexeme}
    (taken : Taken lexemes (.string first :: (itemTokens more ++ [.closeBracket])) rest) :
    listItems items lexemes = .ok (.literal (.list (items ++ first :: more)), rest) := by
  induction more generalizing items first lexemes with
  | nil =>
      obtain ⟨text, tail, rfl, closing⟩ := taken.of_cons
      obtain ⟨text', tail', rfl, done⟩ := closing.of_cons
      cases done
      rfl
  | cons next more ih =>
      obtain ⟨text, tail, rfl, later⟩ := taken.of_cons
      obtain ⟨text', tail', rfl, later'⟩ := later.of_cons
      rw [listItems, ih later']
      simp

theorem operand_complete (bound : Nat) : Complete bound (operand bound) .unary := by
  induction bound with
  | zero => exact fun _ _ _ short => absurd short (Nat.not_lt_zero _)
  | succ n ih =>
      intro d lexemes rest short taken ends
      cases d with
      | not e =>
          obtain ⟨text, tail, rfl, inside⟩ := taken.of_cons
          have inner := ih e tail rest (Nat.lt_of_succ_lt_succ short) inside ends
          rw [operand_bang, inner]
          rfl
      | sizeOf e =>
          obtain ⟨text, tail, rfl, inside⟩ := taken.of_cons
          have inner := ih e tail rest (Nat.lt_of_succ_lt_succ short) inside ends
          rw [operand_sizeOf, inner]
          rfl
      | primary e =>
          cases e with
          | parens e =>
              obtain ⟨text, tail, rfl, inParens⟩ := taken.of_cons
              obtain ⟨between, inside, closing⟩ := inParens.of_append
              obtain ⟨text', tail', rfl, done⟩ := closing.of_cons
              cases done
              have fewer : e.tokens.length < n := by
                simp only [Derivation.tokens, List.length_cons, List.length_append] at short
                omega
              have inner := disjunction_complete ih e tail _ fewer inside
                (Symbol.endsBefore_of_level?_eq_none _ rfl)
              rw [operand_openParen, inner]
              rfl
          | emptyList =>
              obtain ⟨text, tail, rfl, closing⟩ := taken.of_cons
              obtain ⟨text', tail', rfl, done⟩ := closing.of_cons
              cases done
              rfl
          | list first more =>
              obtain ⟨text, tail, rfl, items⟩ := taken.of_cons
              have inner : listItems [] tail = .ok (.literal (.list (first :: more)), rest) :=
                listItems_complete items
              obtain ⟨text', tail', rfl, -⟩ := items.of_cons
              exact inner
          | _ =>
              obtain ⟨text, tail, rfl, done⟩ := taken.of_cons
              cases done
              rfl

/-- A derivation of all the tokens is what the parser finds. -/
theorem ofLexemes_complete (d : Derivation (.chain .disjunction)) {lexemes : List Lexeme}
    (tokens : lexemes.map (·.token) = d.tokens) : ofLexemes lexemes = .ok d.expression := by
  have short : d.tokens.length < lexemes.length + 1 := by
    rw [← tokens, List.length_map]
    exact Nat.lt_succ_self _
  have reads := disjunction_complete (operand_complete _) d lexemes [] short
    (tokens ▸ taken_all lexemes) (Symbol.endsBefore_nil _)
  simp only [ofLexemes, reads]
  rfl

theorem ofLexemes_sound {lexemes : List Lexeme} {e : Expression}
    (gives : ofLexemes lexemes = .ok e) :
    ∃ d : Derivation (.chain .disjunction),
      d.tokens = lexemes.map (·.token) ∧ d.expression = e := by
  obtain ⟨⟨e', rest⟩, reads, later⟩ := bind_eq_ok.1 gives
  cases rest with
  | nil =>
      cases later
      obtain ⟨d, taken, same⟩ := disjunction_sound (operand_sound _) _ _ _ _ reads
      refine ⟨d, ?_, same⟩
      rw [taken.map_token_eq, List.map_nil, List.append_nil]
  | cons other rest => cases later

theorem exists_derivation {source : String} {e : Expression} (h : parse source = .ok e) :
    ∃ found, lexemes source.toList = .ok found ∧
      ∃ d : Derivation (.chain .disjunction),
        d.tokens = found.map (·.token) ∧ d.expression = e := by
  unfold parse at h
  split at h
  · cases h
  · next found cut =>
    cases hread : ofLexemes found with
    | error _ => rw [hread] at h; cases h
    | ok read =>
        rw [hread] at h
        cases h
        exact ⟨found, cut, ofLexemes_sound hread⟩

/-! The bounds decide nothing. -/

def AgreeUpTo (k : Nat) (read read' : Reader Expression) : Prop :=
  ∀ lexemes, lexemes.length ≤ k → read lexemes = read' lexemes

theorem Sound.length_le {read : Reader Expression} {s : Symbol} (sound : Sound read s)
    {lexemes rest : List Lexeme} {e : Expression} (gives : read lexemes = .ok (e, rest)) :
    rest.length ≤ lexemes.length := by
  obtain ⟨d, taken, -⟩ := sound _ _ _ gives
  rw [taken.length_eq]
  exact Nat.le_add_left _ _

theorem extend_agree {level : Level} {read read' : Reader Expression} {k n m : Nat}
    (agree : AgreeUpTo k read read') (sound : Sound read level.operand) (left : Expression)
    {lexemes : List Lexeme} (short : lexemes.length ≤ k) (enough : lexemes.length ≤ n)
    (enough' : lexemes.length ≤ m) :
    extend level.operator? read n left lexemes = extend level.operator? read' m left lexemes := by
  induction n generalizing m left lexemes with
  | zero =>
      obtain rfl := List.length_eq_zero_iff.1 (Nat.le_zero.1 enough)
      cases m <;> rfl
  | succ n ih =>
      cases lexemes with
      | nil => cases m <;> rfl
      | cons lexeme lexemes =>
          cases m with
          | zero => exact absurd enough' (Nat.not_succ_le_zero _)
          | succ m =>
              rw [List.length_cons] at short enough enough'
              simp only [extend]
              cases level.operator? lexeme.token with
              | none => rfl
              | some combine =>
                  simp only [← agree lexemes (by omega)]
                  cases reads : read lexemes with
                  | error fault => rfl
                  | ok pair =>
                      have := sound.length_le reads
                      exact ih _ (by omega) (by omega) (by omega)

theorem chain_agree (level : Level) {read read' : Reader Expression} {k n m : Nat}
    (agree : AgreeUpTo k read read') (sound : Sound read level.operand) (enough : k ≤ n)
    (enough' : k ≤ m) :
    AgreeUpTo k (chain n level.operator? read) (chain m level.operator? read') := by
  intro lexemes short
  simp only [chain, ← agree lexemes short]
  cases reads : read lexemes with
  | error fault => rfl
  | ok pair =>
      have := sound.length_le reads
      exact extend_agree agree sound _ (by omega) (by omega) (by omega)

theorem disjunction_agree {read read' : Reader Expression} {k n m : Nat}
    (agree : AgreeUpTo k read read') (sound : Sound read .unary) (enough : k ≤ n)
    (enough' : k ≤ m) : AgreeUpTo k (disjunction n read) (disjunction m read') := by
  have comparison := chain_agree .comparison agree sound enough enough'
  have conjunction := chain_agree .conjunction comparison (chain_sound .comparison sound n)
    enough enough'
  exact chain_agree .disjunction conjunction
    (chain_sound .conjunction (chain_sound .comparison sound n) n) enough enough'

theorem operand_agree {k n m : Nat} (enough : k < n) (enough' : k < m) :
    AgreeUpTo k (operand n) (operand m) := by
  induction n generalizing k m with
  | zero => exact absurd enough (Nat.not_lt_zero k)
  | succ n ih =>
      cases m with
      | zero => exact absurd enough' (Nat.not_lt_zero k)
      | succ m =>
          intro lexemes short
          cases lexemes with
          | nil => rfl
          | cons lexeme lexemes =>
              rw [List.length_cons] at short
              have agree : AgreeUpTo lexemes.length (operand n) (operand m) :=
                ih (by omega) (by omega)
              obtain ⟨token, text⟩ := lexeme
              cases token with
              | bang => rw [operand_bang, operand_bang, agree lexemes (Nat.le_refl _)]
              | sizeOf => rw [operand_sizeOf, operand_sizeOf, agree lexemes (Nat.le_refl _)]
              | openParen =>
                  have inner := disjunction_agree agree (operand_sound n)
                    (by omega : lexemes.length ≤ n) (by omega : lexemes.length ≤ m)
                  rw [operand_openParen, operand_openParen, inner lexemes (Nat.le_refl _)]
              | _ => rfl

/-- The parser accepts a list of tokens with an expression exactly if the list has a derivation with
that expression, and then it has no other derivation. Any bounds above the number of tokens give the
same, so the parser never stops because one is used up. -/
theorem parser_accepts_exactly_its_grammar (lexemes : List Lexeme) :
    (∀ e, ofLexemes lexemes = .ok e ↔
      ∃ d : Derivation (.chain .disjunction), d.tokens = lexemes.map (·.token) ∧
        d.expression = e ∧
        ∀ d' : Derivation (.chain .disjunction), d'.tokens = lexemes.map (·.token) → d' = d) ∧
    ∀ extra, disjunction (lexemes.length + 1 + extra) (operand (lexemes.length + 1 + extra)) lexemes =
      disjunction (lexemes.length + 1) (operand (lexemes.length + 1)) lexemes := by
  constructor
  · intro e
    constructor
    · intro gives
      obtain ⟨d, tokens, same⟩ := ofLexemes_sound gives
      refine ⟨d, tokens, same, fun d' tokens' => ?_⟩
      have sameTokens : d'.tokens ++ [] = d.tokens ++ [] := by rw [tokens, tokens']
      exact (d'.unambiguous d (Symbol.endsBefore_nil _) (Symbol.endsBefore_nil _) sameTokens).1
    · rintro ⟨d, tokens, rfl, -⟩
      exact ofLexemes_complete d tokens.symm
  · intro extra
    have agree : AgreeUpTo lexemes.length (operand (lexemes.length + 1 + extra))
        (operand (lexemes.length + 1)) :=
      operand_agree (by omega) (Nat.lt_succ_self _)
    exact disjunction_agree agree (operand_sound _) (by omega) (Nat.le_succ _) lexemes
      (Nat.le_refl _)

end Archetype.Expression
