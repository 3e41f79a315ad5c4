import Archetype.Flatten.Rebuild
import Archetype.Proofs.Expression.Normal
import Archetype.Proofs.Expression.Spelling
import Archetype.Proofs.Scope.Segments
import Mathlib.Data.List.DropRight

/-!
Printed expressions read back. Main statement: what a text is parsed to, and what that folds to,
are parsed from their own texts, so a condition can be stored as the text of its folded expression.
-/

namespace Archetype

theorem Text.trimmed_trimmed (cs : List Char) : trimmed (trimmed cs) = trimmed cs := by
  have prefixed : trimmed cs <+: cs.dropWhile isBlank := List.rdropWhile_prefix _ _
  have front : (trimmed cs).dropWhile isBlank = trimmed cs := by
    rw [List.dropWhile_eq_self_iff]
    intro nonempty blank
    obtain ⟨ending, whole⟩ := prefixed
    have first : (cs.dropWhile isBlank).head? = some (trimmed cs)[0] := by
      rw [← whole, List.head?_append_of_ne_nil _ (List.ne_nil_of_length_pos nonempty),
        List.head?_eq_getElem?, List.getElem?_eq_getElem nonempty]
    have stops := List.head?_dropWhile_not isBlank cs
    rw [first] at stops
    simp [blank] at stops
  have back : trimmed cs = (cs.dropWhile isBlank).rdropWhile isBlank := rfl
  calc trimmed (trimmed cs)
      = ((trimmed cs).dropWhile isBlank).rdropWhile isBlank := rfl
    _ = (trimmed cs).rdropWhile isBlank := by rw [front]
    _ = trimmed cs := by rw [back, List.rdropWhile_idempotent]

namespace Expression

/-! The variables of an expression stand in its text. -/

theorem readablePath_of_read? {cs rest : List Char} {path : String}
    (reads : Token.read? cs = some (.var path, rest)) : ReadablePath path := by
  unfold Token.read? at reads
  split at reads
  · next found isFixed =>
    cases reads
    obtain ⟨entry, listed, dropped⟩ := List.exists_of_findSome?_eq_some isFixed
    obtain ⟨tail, -, same⟩ := Option.map_eq_some_iff.1 dropped
    have plain : ∀ entry ∈ Token.fixed, ∀ path, entry.2 ≠ .var path := by
      simp [Token.fixed]
    exact absurd (congrArg Prod.fst same) (plain entry listed path)
  · split at reads
    · next tail =>
      obtain ⟨⟨before, after⟩, cut, same⟩ := Option.map_eq_some_iff.1 reads
      simp only [Prod.mk.injEq, Token.var.injEq] at same
      obtain ⟨rfl, rfl⟩ := same
      constructor
      · rw [String.toList_ofList, Text.trimmed_trimmed]
      · rw [String.toList_ofList]
        exact fun mem => (Text.cutFirst?_eq_some_iff.1 cut).2 (Text.trimmed_subset before mem)
    · obtain ⟨_, _, same⟩ := Option.map_eq_some_iff.1 reads
      cases same
    · obtain ⟨_, _, same⟩ := Option.map_eq_some_iff.1 reads
      cases same
    · obtain ⟨_, _, same⟩ := Option.map_eq_some_iff.1 reads
      cases same

theorem readablePath_of_lexemes {cs : List Char} {found : List Lexeme}
    (cut : lexemes cs = .ok found) {path : String} (mem : .var path ∈ found.map (·.token)) :
    ReadablePath path := by
  fun_induction lexemes cs generalizing found with
  | case1 =>
      cases cut
      cases mem
  | case2 c rest separates ih => exact ih cut mem
  | case3 c rest separates reads => cases cut
  | case4 c rest separates token tail reads ih =>
      cases later : lexemes tail with
      | error fault => rw [later] at cut; cases cut
      | ok more =>
          rw [later] at cut
          cases cut
          rcases List.mem_cons.1 mem with same | mem
          · cases same
            exact readablePath_of_read? reads
          · exact ih later mem

mutual

theorem Derivation.var_mem_tokens {s : Symbol} (d : Derivation s) {path : String}
    (mem : path ∈ d.expression.paths) : .var path ∈ d.tokens := by
  cases d with
  | chain first rest =>
      rcases rest.mem_paths_extend mem with left | right
      · exact List.mem_append_left _ (first.var_mem_tokens left)
      · exact List.mem_append_right _ right
  | not e => exact List.mem_cons_of_mem _ (e.var_mem_tokens mem)
  | sizeOf e => exact List.mem_cons_of_mem _ (e.var_mem_tokens mem)
  | primary e => exact e.var_mem_tokens mem
  | parens e =>
      exact List.mem_cons_of_mem _ (List.mem_append_left _ (e.var_mem_tokens mem))
  | var path' =>
      cases List.mem_singleton.1 mem
      exact List.mem_singleton_self _
  | _ => cases mem

theorem Rest.mem_paths_extend {level : Level} (x : Rest level) {left : Expression} {path : String}
    (mem : path ∈ (x.extend left).paths) : path ∈ left.paths ∨ .var path ∈ x.tokens := by
  match x with
  | .done => exact .inl mem
  | .more op next rest =>
      rcases rest.mem_paths_extend mem with combined | right
      · have split : path ∈ left.paths ++ next.expression.paths := by
          cases op <;> exact combined
        rcases List.mem_append.1 split with left | between
        · exact .inl left
        · exact .inr (List.mem_cons_of_mem _ (List.mem_append_left _ (next.var_mem_tokens between)))
      · exact .inr (List.mem_cons_of_mem _ (List.mem_append_right _ right))

end

theorem readablePath_of_parse {source : String} {e : Expression} (read : parse source = .ok e) :
    ∀ path ∈ e.paths, ReadablePath path := by
  obtain ⟨found, cut, d, tokens, rfl⟩ := exists_derivation read
  intro path mem
  exact readablePath_of_lexemes cut (tokens ▸ d.var_mem_tokens mem)

/-! Reading back. -/

theorem parse_text {e : Expression} (nullFree : e.NullFree)
    (readable : ∀ path ∈ e.paths, ReadablePath path) : parse e.text = .ok e := by
  have nothing : lexemes [] = .ok [] := by rw [lexemes]
  obtain ⟨found, cut, tokens⟩ := spells_text e readable (by simp) [] nothing
  have reads : ofLexemes found = .ok e.derivation.disjunction.expression := by
    apply ofLexemes_complete
    rw [tokens, Derivation.tokens_disjunction]
  have same : e.derivation.disjunction.expression = e := expression_derivation nullFree
  rw [List.append_nil, List.append_nil] at cut
  rw [parse, cut]
  simp only [reads, same]
  rfl

theorem parse_text_fold {source : String} {e : Expression} (read : parse source = .ok e) :
    parse e.fold.text = .ok e.fold :=
  parse_text (nullFree_fold (nullFree_of_parse read)) fun path mem =>
    readablePath_of_parse read path (paths_fold e mem)

end Expression

theorem Rebuild.parseExpression_foldedDeclaration {d : Declaration} {e : Expression}
    (reads : d.parseExpression = .ok (some e)) :
    (foldedDeclaration d (some e)).parseExpression = .ok (some e.fold) := by
  simp only [foldedDeclaration]
  split
  · next unchanged => rw [reads, unchanged]
  · unfold Declaration.parseExpression at reads
    split at reads
    · next source kind stored =>
      split at reads
      · next e' read =>
        cases reads
        simp only [Declaration.parseExpression, kind, Table.get?_insert_self,
          Expression.parse_text_fold read]
      · cases reads
    · cases reads

/-- What a text is parsed to is parsed from its own text, and so is what that folds to. A condition
that is stored with the text of its folded expression is therefore rebuilt with that expression. -/
theorem Expression.parse_text_of_parse {source : String} {e : Expression}
    (read : parse source = .ok e) :
    parse e.text = .ok e ∧ parse e.fold.text = .ok e.fold ∧
      ∀ d : Declaration, d.parseExpression = .ok (some e) →
        (Rebuild.foldedDeclaration d (some e)).parseExpression = .ok (some e.fold) := by
  refine ⟨?_, parse_text_fold read, fun d reads => ?_⟩
  · exact parse_text (nullFree_of_parse read) (readablePath_of_parse read)
  · exact Rebuild.parseExpression_foldedDeclaration reads

/-- A quote, a backslash, a negative integer and a padded path come back from the printed text, and
the double negation that folding removes is not missed. -/
theorem Expression.parse_text_of_parse_escaped :
    let source := "!!('it\\\\\\'s' == $\x7b a.b \x7d) && -5 != sizeof ['x', \"y\"]"
    let d : Declaration :=
      { kind := .condition, attributes := .ofList [("expression", .string source)] }
    ∃ e, parse source = .ok e ∧ parse e.text = .ok e ∧ parse e.fold.text = .ok e.fold ∧
      (Rebuild.foldedDeclaration d (some e)).parseExpression = .ok (some e.fold) ∧ e.fold ≠ e := by
  intro source d
  let left := compare .equal (literal (.string "it\\'s")) (var "a.b")
  let right := compare .notEqual (literal (.int (-5))) (sizeOf (literal (.list ["x", "y"])))
  have read : parse source = .ok (logic .and (not (not left)) right) :=
    parse_eq_ok (by decide +kernel)
  have stored : d.parseExpression = .ok (some (logic .and (not (not left)) right)) := by
    have kept : Table.get? d.attributes "expression" = some (.string source) := by
      decide +kernel
    have kind : d.kind = .condition := rfl
    simp only [Declaration.parseExpression, kind, kept, read]
  obtain ⟨same, folded, rebuilt⟩ := parse_text_of_parse read
  exact ⟨_, read, same, folded, rebuilt d stored, by decide +kernel⟩

end Archetype
