import Archetype.Expression.Printer
import Archetype.Proofs.Expression.Folding
import Archetype.Proofs.Expression.Grammar

/-!
Texts that spell tokens. A printed expression spells the tokens of a derivation of it, whatever
follows, as long as it does not run into an integer at its end.
-/

namespace Archetype.Expression

/-! The derivation of a printed expression. -/

namespace Derivation

/-- A prefixed operand with no comparison after it; likewise for the looser levels. -/
def comparison (d : Derivation .unary) : Derivation (.chain .comparison) := .chain d .done

def conjunction (d : Derivation .unary) : Derivation (.chain .conjunction) :=
  .chain d.comparison .done

def disjunction (d : Derivation .unary) : Derivation (.chain .disjunction) :=
  .chain d.conjunction .done

def operation {level : Level} (l r : Derivation .unary) :
    Operator level → Derivation (.chain .disjunction)
  | .or => .chain l.conjunction (.more .or r.conjunction .done)
  | .and => .chain (.chain l.comparison (.more .and r.comparison .done)) .done
  | .compare op => .chain (.chain (.chain l (.more (.compare op) r .done)) .done) .done

theorem tokens_operation {level : Level} (l r : Derivation .unary) (op : Operator level) :
    (operation l r op).tokens = l.tokens ++ op.token :: r.tokens := by
  cases op <;> simp [operation, conjunction, comparison, tokens, Rest.tokens] <;> rfl

theorem expression_operation {level : Level} (l r : Derivation .unary) (op : Operator level) :
    (operation l r op).expression = op.combine l.expression r.expression := by
  cases op <;> rfl

theorem tokens_disjunction (d : Derivation .unary) : d.disjunction.tokens = d.tokens := by
  simp [disjunction, conjunction, comparison, tokens, Rest.tokens]
  rfl

end Derivation

/-- How the text of an expression is derived. Null has the text of the empty string. -/
def derivation : Expression → Derivation .unary
  | .literal .null => .primary (.string "")
  | .literal (.string s) => .primary (.string s)
  | .literal (.bool b) => .primary (.truth b)
  | .literal (.int i) => .primary (.int i)
  | .literal (.list []) => .primary .emptyList
  | .literal (.list (first :: more)) => .primary (.list first more)
  | .var path => .primary (.var path)
  | .not e => .not e.derivation
  | .sizeOf e => .sizeOf e.derivation
  | .logic .or l r => .primary (.parens (.operation l.derivation r.derivation .or))
  | .logic .and l r => .primary (.parens (.operation l.derivation r.derivation .and))
  | .compare op l r => .primary (.parens (.operation l.derivation r.derivation (.compare op)))

theorem tokens_derivation_logic (op : Connective) (l r : Expression) :
    (logic op l r).derivation.tokens =
      .openParen :: (l.derivation.tokens ++ .logic op :: r.derivation.tokens ++ [.closeParen]) := by
  cases op <;>
    simp only [derivation, Derivation.tokens, Derivation.tokens_operation, Operator.token]

theorem tokens_derivation_compare (op : Comparison) (l r : Expression) :
    (compare op l r).derivation.tokens =
      .openParen ::
        (l.derivation.tokens ++ .compare op :: r.derivation.tokens ++ [.closeParen]) := by
  simp only [derivation, Derivation.tokens, Derivation.tokens_operation, Operator.token]

theorem expression_derivation {e : Expression} (nullFree : e.NullFree) :
    e.derivation.expression = e := by
  induction e with
  | literal v =>
      cases v with
      | null => exact absurd rfl nullFree
      | list items => cases items <;> rfl
      | _ => rfl
  | var path => rfl
  | not e ih => exact congrArg not (ih nullFree)
  | sizeOf e ih => exact congrArg sizeOf (ih nullFree)
  | logic op l r ihl ihr =>
      cases op <;>
        simp only [derivation, Derivation.expression, Derivation.expression_operation,
          Operator.combine, ihl nullFree.1, ihr nullFree.2]
  | compare op l r ihl ihr =>
      simp only [derivation, Derivation.expression, Derivation.expression_operation,
        Operator.combine, ihl nullFree.1, ihr nullFree.2]

/-! Texts that spell tokens. -/

/-- In front of this rest, the text is cut into these tokens. -/
def Spells (cs : List Char) (tokens : List Token) (rest : List Char) : Prop :=
  ∀ later, lexemes rest = .ok later →
    ∃ found, lexemes (cs ++ rest) = .ok (found ++ later) ∧ found.map (·.token) = tokens

theorem Spells.append {cs cs' rest : List Char} {tokens tokens' : List Token}
    (first : Spells cs tokens (cs' ++ rest)) (second : Spells cs' tokens' rest) :
    Spells (cs ++ cs') (tokens ++ tokens') rest := by
  intro later cut
  obtain ⟨found', cut', same'⟩ := second later cut
  obtain ⟨found, cut, same⟩ := first _ cut'
  refine ⟨found ++ found', ?_, ?_⟩
  · rw [List.append_assoc, cut, List.append_assoc]
  · rw [List.map_append, same, same']

theorem Spells.space (rest : List Char) : Spells [' '] [] rest := by
  intro later cut
  refine ⟨[], ?_, rfl⟩
  rw [List.cons_append, lexemes]
  exact cut

theorem Spells.token {c : Char} {cs rest : List Char} {t : Token}
    (word : isSeparator c = false) (reads : Token.read? (c :: cs ++ rest) = some (t, rest)) :
    Spells (c :: cs) [t] rest := by
  intro later cut
  refine ⟨[⟨t, c :: cs ++ rest⟩], ?_, rfl⟩
  rw [List.cons_append] at reads ⊢
  rw [lexemes, if_neg (Bool.eq_false_iff.1 word)]
  split
  · next missing => rw [reads] at missing; cases missing
  · next t' tail found =>
    rw [reads] at found
    cases found
    rw [cut]
    rfl

/-! Fixed tokens. -/

theorem fixed?_append {word : String} {t : Token} (listed : (word, t) ∈ Token.fixed)
    (notBang : t ≠ .bang) (rest : List Char) :
    Token.fixed? (word.toList ++ rest) = some (t, rest) := by
  simp only [Token.fixed, List.mem_cons, Prod.mk.injEq, List.not_mem_nil, or_false] at listed
  rcases listed with ⟨rfl, rfl⟩ | ⟨rfl, rfl⟩ | ⟨rfl, rfl⟩ | ⟨rfl, rfl⟩ | ⟨rfl, rfl⟩ | ⟨rfl, rfl⟩ |
    ⟨rfl, rfl⟩ | ⟨rfl, rfl⟩ | ⟨rfl, rfl⟩ | ⟨rfl, rfl⟩ | ⟨rfl, rfl⟩ | ⟨rfl, rfl⟩ | ⟨rfl, rfl⟩ |
    ⟨rfl, rfl⟩
  case inr.inr.inr.inr.inr.inr.inl => exact absurd rfl notBang
  all_goals simp [Token.fixed?, Token.fixed, Text.dropOpening?]

theorem fixed?_bang {c : Char} (apart : c ≠ '=') (rest : List Char) :
    Token.fixed? ('!' :: c :: rest) = some (.bang, c :: rest) := by
  simp [Token.fixed?, Token.fixed, Text.dropOpening?, apart.symm]

theorem fixed?_eq_none {c : Char} (other : ∀ entry ∈ Token.fixed, entry.1.toList.head? ≠ some c)
    (rest : List Char) : Token.fixed? (c :: rest) = none := by
  rw [Token.fixed?, List.findSome?_eq_none_iff]
  intro entry listed
  obtain ⟨word, t⟩ := entry
  cases drop : Text.dropOpening? word.toList (c :: rest) with
  | none => simp only [drop, Option.map_none]
  | some after =>
      have whole := Text.eq_append_of_dropOpening? drop
      have nonempty : ∀ entry ∈ Token.fixed, entry.1.toList ≠ [] := by decide
      cases chars : word.toList with
      | nil => exact absurd chars (nonempty _ listed)
      | cons o opening =>
          rw [chars, List.cons_append, List.cons.injEq] at whole
          exact absurd (by rw [chars, whole.1]; rfl) (other _ listed)

theorem read?_of_fixed {cs : List Char} {found : Token × List Char}
    (isFixed : Token.fixed? cs = some found) : Token.read? cs = some found := by
  unfold Token.read?
  rw [isFixed]

theorem spells_fixed {word : String} {t : Token} (listed : (word, t) ∈ Token.fixed)
    (notBang : t ≠ .bang) (rest : List Char) : Spells word.toList [t] rest := by
  have found := fixed?_append listed notBang rest
  have words : ∀ entry ∈ Token.fixed, ∃ c cs, entry.1.toList = c :: cs ∧ isSeparator c = false := by
    simp [Token.fixed, isSeparator]
  obtain ⟨c, cs, chars, word⟩ := words _ listed
  rw [chars] at found ⊢
  exact Spells.token word (read?_of_fixed found)

theorem spells_bang {c : Char} (apart : c ≠ '=') (rest : List Char) :
    Spells ['!'] [.bang] (c :: rest) := by
  exact Spells.token rfl (read?_of_fixed (fixed?_bang apart rest))

/-! Strings. -/

theorem quoted?_escaped (s rest : List Char) :
    quoted? '\'' (s.flatMap escaped ++ '\'' :: rest) = some (s, rest) := by
  induction s with
  | nil => simp [quoted?]
  | cons c s ih =>
      by_cases special : c = '\\' ∨ c = '\''
      · have line : c ≠ '\n' := by rcases special with rfl | rfl <;> decide
        simp [escaped, special, quoted?, line, ih]
      · rw [not_or] at special
        simp only [List.flatMap_cons, escaped, special.1, special.2, decide_false, Bool.or_self,
          Bool.false_eq_true, if_false, List.cons_append, List.nil_append]
        rw [quoted?]
        · simp [special.2, ih]
        · simp [special.1]

theorem spells_quote (s : String) (rest : List Char) :
    Spells (quote s).toList [.string s] rest := by
  have chars : (quote s).toList = '\'' :: (s.toList.flatMap escaped ++ ['\'']) := by
    simp [quote]
  rw [chars]
  apply Spells.token rfl
  rw [List.cons_append]
  unfold Token.read?
  rw [fixed?_eq_none (by decide)]
  simp [quoted?_escaped]

theorem spells_items (first : String) (more : List String) (rest : List Char) :
    Spells (", ".intercalate ((first :: more).map quote)).toList
      (.string first :: itemTokens more) rest := by
  induction more generalizing first with
  | nil =>
      rw [List.map_singleton, String.intercalate_singleton]
      exact spells_quote first rest
  | cons next more ih =>
      rw [List.map_cons, List.map_cons, String.intercalate_cons_cons, ← List.map_cons,
        String.toList_append, String.toList_append, List.append_assoc]
      have comma : ∀ rest, Spells ", ".toList [.comma] rest := fun rest =>
        (spells_fixed (by decide : (",", .comma) ∈ Token.fixed) nofun _).append (Spells.space rest)
      exact (spells_quote first _).append ((comma _).append (ih next))

/-! Variables. -/

structure ReadablePath (path : String) : Prop where
  trimmed : Text.trimmed path.toList = path.toList
  unclosed : '\x7d' ∉ path.toList

theorem spells_var {path : String} (readable : ReadablePath path) (rest : List Char) :
    Spells (text (.var path)).toList [.var path] rest := by
  have chars : (text (.var path)).toList = '$' :: '\x7b' :: (path.toList ++ ['\x7d']) := by
    simp [text]
  rw [chars]
  apply Spells.token rfl
  rw [List.cons_append]
  unfold Token.read?
  rw [fixed?_eq_none (by decide)]
  simp [Text.cutFirst?_eq_some_iff.2 ⟨rfl, readable.unclosed⟩, readable.trimmed]

/-! Integers. -/

theorem takeWhile_append {ds rest : List Char} (digits : ∀ c ∈ ds, c.isDigit = true)
    (apart : ∀ c ∈ rest.head?, c.isDigit = false) :
    (ds ++ rest).takeWhile Char.isDigit = ds ∧ (ds ++ rest).dropWhile Char.isDigit = rest := by
  induction ds with
  | nil =>
      cases rest with
      | nil => exact ⟨rfl, rfl⟩
      | cons c rest => simp [apart c rfl]
  | cons d ds ih =>
      rw [List.forall_mem_cons] at digits
      obtain ⟨take, drop⟩ := ih digits.2
      simp [digits.1, take, drop]

theorem integer?_append (i : Int64) {rest : List Char}
    (apart : ∀ c ∈ rest.head?, c.isDigit = false) :
    integer? ((Text.integer i.toInt).toList ++ rest) = some (i, rest) := by
  have digits : ∀ c ∈ Nat.toDigits 10 i.toInt.natAbs, c.isDigit = true :=
    fun c mem => Nat.isDigit_of_mem_toDigits (by omega) (by omega) mem
  obtain ⟨take, drop⟩ := takeWhile_append digits apart
  have reads := Text.readInt64?_integer i
  rw [Text.toList_integer] at reads ⊢
  split at reads
  · next negative =>
    rw [if_pos negative, List.cons_append, integer?, take, drop, reads, Option.map_some]
  · next positive =>
    rw [if_neg positive]
    unfold integer?
    split
    · next tail same =>
      cases chars : Nat.toDigits 10 i.toInt.natAbs with
      | nil => exact absurd chars Nat.toDigits_ne_nil
      | cons c ds =>
          rw [chars] at same digits
          cases same
          cases digits '-' (List.mem_cons_self ..)
    · rw [take, drop, reads, Option.map_some]

theorem head_integer (i : Int) :
    ∃ c cs, (Text.integer i).toList = c :: cs ∧ (c = '-' ∨ c.isDigit = true) := by
  rw [Text.toList_integer]
  split
  · exact ⟨_, _, rfl, .inl rfl⟩
  · cases chars : Nat.toDigits 10 i.natAbs with
    | nil => exact absurd chars Nat.toDigits_ne_nil
    | cons c ds =>
        have digit : c.isDigit = true :=
          Nat.isDigit_of_mem_toDigits (by omega) (by omega) (chars ▸ List.mem_cons_self ..)
        exact ⟨c, ds, rfl, .inr digit⟩

theorem read?_eq_integer? {c : Char} (start : c = '-' ∨ c.isDigit = true) (cs : List Char) :
    Token.read? (c :: cs) = (integer? (c :: cs)).map fun (i, rest) => (.int i, rest) := by
  have other : ∀ entry ∈ Token.fixed, entry.1.toList.head? ≠ some c := by
    have words : ∀ entry ∈ Token.fixed,
        entry.1.toList.head?.all fun o => o ≠ '-' && !o.isDigit := by
      decide
    intro entry listed same
    have first := words entry listed
    rw [same] at first
    rcases start with rfl | digit
    · cases first
    · simp [digit] at first
  unfold Token.read?
  rw [fixed?_eq_none other]
  dsimp only
  split
  · next same =>
    cases same
    rcases start with minus | digit <;> contradiction
  · next same =>
    cases same
    rcases start with minus | digit <;> contradiction
  · next same =>
    cases same
    rcases start with minus | digit <;> contradiction
  · rfl

theorem spells_integer (i : Int64) {rest : List Char}
    (apart : ∀ c ∈ rest.head?, c.isDigit = false) :
    Spells (Text.integer i.toInt).toList [.int i] rest := by
  have reads := integer?_append i apart
  obtain ⟨c, cs, chars, start⟩ := head_integer i.toInt
  rw [chars] at reads ⊢
  have word : isSeparator c = false := by
    rcases start with rfl | digit
    · rfl
    · rw [← Bool.not_eq_true]
      intro separates
      simp only [isSeparator, Bool.or_eq_true, decide_eq_true_eq] at separates
      rcases separates with ((rfl | rfl) | rfl) | rfl <;> cases digit
  apply Spells.token word
  rw [List.cons_append] at reads ⊢
  rw [read?_eq_integer? start, reads, Option.map_some]

/-! Printed expressions. -/

/-- No printed expression begins with an equals sign, so a negation before it stays one. -/
theorem head_text (e : Expression) : ∃ c cs, e.text.toList = c :: cs ∧ c ≠ '=' := by
  cases e with
  | literal v =>
      cases v with
      | null => exact ⟨'\'', ['\''], by simp [text, literalText], by decide⟩
      | string s => exact ⟨'\'', _, by simp [text, literalText, quote]; rfl, by decide⟩
      | bool b =>
          cases b <;>
            exact ⟨_, _, by
              simp [text, literalText, Value.text, truthWord]
              exact ⟨rfl, rfl⟩, by decide⟩
      | int i =>
          obtain ⟨c, cs, chars, start⟩ := head_integer i.toInt
          refine ⟨c, cs, chars, ?_⟩
          rintro rfl
          rcases start with minus | digit <;> contradiction
      | list items => exact ⟨'[', _, by simp [text, literalText]; rfl, by decide⟩
  | var path => exact ⟨'$', _, by simp [text]; rfl, by decide⟩
  | not e => exact ⟨'!', _, by simp [text]; rfl, by decide⟩
  | sizeOf e => exact ⟨'s', _, by simp [text]; rfl, by decide⟩
  | logic op l r => exact ⟨'(', _, by simp [text]; rfl, by decide⟩
  | compare op l r => exact ⟨'(', _, by simp [text]; rfl, by decide⟩

theorem spells_literal (v : Value) {rest : List Char}
    (apart : ∀ c ∈ rest.head?, c.isDigit = false) :
    Spells (literalText v).toList (literal v).derivation.tokens rest := by
  cases v with
  | null => exact spells_quote "" rest
  | string s => exact spells_quote s rest
  | bool b =>
      cases b with
      | true => exact spells_fixed (by decide : ("true", .truth true) ∈ Token.fixed) nofun rest
      | false => exact spells_fixed (by decide : ("false", .truth false) ∈ Token.fixed) nofun rest
  | int i => exact spells_integer i apart
  | list items =>
      have opening := spells_fixed (by decide : ("[", .openBracket) ∈ Token.fixed) nofun
      have closing := spells_fixed (by decide : ("]", .closeBracket) ∈ Token.fixed) nofun rest
      simp only [literalText, String.toList_append, List.append_assoc]
      cases items with
      | nil => exact (opening _).append closing
      | cons first more => exact (opening _).append ((spells_items first more _).append closing)

theorem spells_operation {left right word : String} {t : Token} {tokens tokens' : List Token}
    {rest : List Char} (listed : (word, t) ∈ Token.fixed) (notBang : t ≠ .bang)
    (first : ∀ rest, (∀ c ∈ rest.head?, c.isDigit = false) → Spells left.toList tokens rest)
    (second : ∀ rest, (∀ c ∈ rest.head?, c.isDigit = false) → Spells right.toList tokens' rest) :
    Spells ("(" ++ left ++ " " ++ word ++ " " ++ right ++ ")").toList
      (.openParen :: (tokens ++ t :: tokens' ++ [.closeParen])) rest := by
  have opening := spells_fixed (by decide : ("(", .openParen) ∈ Token.fixed) nofun
  have closing := spells_fixed (by decide : (")", .closeParen) ∈ Token.fixed) nofun rest
  have operands := (second _ (by simp)).append closing
  have operator := (Spells.space _).append ((spells_fixed listed notBang _).append
    ((Spells.space _).append operands))
  have whole := (opening _).append ((first _ (by simp)).append operator)
  simpa using whole

theorem spells_text (e : Expression) (readable : ∀ path ∈ e.paths, ReadablePath path)
    {rest : List Char} (apart : ∀ c ∈ rest.head?, c.isDigit = false) :
    Spells e.text.toList e.derivation.tokens rest := by
  induction e generalizing rest with
  | literal v => exact spells_literal v apart
  | var path => exact spells_var (readable path (List.mem_singleton_self path)) rest
  | not e ih =>
      obtain ⟨c, cs, chars, notEqual⟩ := head_text e
      have inner := ih readable apart
      simp only [text, String.toList_append, derivation, Derivation.tokens]
      rw [chars] at inner ⊢
      exact (spells_bang notEqual _).append inner
  | sizeOf e ih =>
      have word := spells_fixed (by decide : ("sizeof", .sizeOf) ∈ Token.fixed) nofun
      have whole := (word _).append ((Spells.space _).append (ih readable apart))
      simpa [text, derivation, Derivation.tokens] using whole
  | logic op l r ihl ihr =>
      have listed : ((Token.logic op).spelling, Token.logic op) ∈ Token.fixed := by
        cases op <;> decide
      rw [tokens_derivation_logic]
      apply spells_operation listed nofun
      · exact fun rest => ihl (fun path mem => readable path (List.mem_append_left _ mem))
      · exact fun rest => ihr (fun path mem => readable path (List.mem_append_right _ mem))
  | compare op l r ihl ihr =>
      have listed : ((Token.compare op).spelling, Token.compare op) ∈ Token.fixed := by
        cases op <;> decide
      rw [tokens_derivation_compare]
      apply spells_operation listed nofun
      · exact fun rest => ihl (fun path mem => readable path (List.mem_append_left _ mem))
      · exact fun rest => ihr (fun path mem => readable path (List.mem_append_right _ mem))

end Archetype.Expression
