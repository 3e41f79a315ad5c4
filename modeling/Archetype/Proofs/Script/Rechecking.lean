import Archetype.Proofs.Expression.RoundTrip
import Archetype.Proofs.Flatten.Rebuilt
import Archetype.Proofs.Script.Checking

/-!
Checking declarations again: with other children, with the expression of a condition folded, and
where a method or a call is made up.
-/

namespace Archetype

namespace Declaration

def picks (d : Declaration) : List Value := (d.default?.map chosen).getD []

/-- What the checks ask of the children: each may stand there, and a node that takes options has
some, those that its default chooses among them. -/
structure Accommodates (d : Declaration) (children : List Node) : Prop where
  placed : ∀ child ∈ children, d.childFault? child.declaration = none
  offered : d.kind.takesOptions = true → ∃ option ∈ children, option.kind = .option
  picked : d.kind.takesOptions = true → ∀ value ∈ d.picks,
    ∃ option ∈ children, option.kind = .option ∧ option.declaration.value? = some value

variable {d : Declaration} {children others : List Node} {e : Option Expression}

theorem checkDefault_eq_ok : d.checkDefault children = .ok () ↔
    (d.kind.takesOptions = true → ∀ value ∈ d.picks,
      ∃ option ∈ children, option.kind = .option ∧ option.declaration.value? = some value) := by
  have offered : ∀ value,
      value ∈ (children.filter (·.kind = .option)).filterMap (·.declaration.value?) ↔
        ∃ option ∈ children, option.kind = .option ∧ option.declaration.value? = some value := by
    intro value
    simp only [List.mem_filterMap, List.mem_filter, decide_eq_true_eq, and_assoc]
  unfold checkDefault
  cases takes : d.kind.takesOptions with
  | false => simp
  | true =>
      simp only [if_true, forall_const]
      rw [← picks]
      cases found : d.picks.find?
          (· ∉ (children.filter (·.kind = .option)).filterMap (·.declaration.value?)) with
      | none =>
          refine iff_of_true rfl fun value member => (offered value).1 ?_
          exact of_not_not fun absent =>
            List.find?_eq_none.1 found value member (decide_eq_true absent)
      | some unknown =>
          refine iff_of_false nofun fun all => ?_
          have absent := List.find?_some found
          have there := (offered unknown).2 (all unknown (List.mem_of_find?_eq_some found))
          simp [there] at absent

theorem checkChildren_eq_ok : d.checkChildren children = .ok () ↔
    (∀ child ∈ children, d.childFault? child.declaration = none) ∧
      (d.kind.takesOptions = true → ∃ option ∈ children, option.kind = .option) := by
  unfold checkChildren
  by_cases without : d.kind.takesOptions = true ∧ ¬children.any (·.kind = .option)
  · rw [if_pos without]
    refine iff_of_false nofun fun ⟨_, offered⟩ => without.2 ?_
    simpa using offered without.1
  · rw [if_neg without]
    have offered : d.kind.takesOptions = true → ∃ option ∈ children, option.kind = .option := by
      simpa using without
    refine ⟨fun passes => ⟨fun child member => ?_, offered⟩, fun ⟨placed, _⟩ =>
      forM_eq_ok fun child member => ?_⟩
    · have here := ok_of_forM passes child member
      split at here
      · cases here
      · assumption
    · rw [placed child member]

theorem check_eq_ok_iff : d.check children = .ok e ↔ d.checkAttributes = .ok () ∧
    d.checkRequired = .ok () ∧ d.Accommodates children ∧ d.parseExpression = .ok e := by
  constructor
  · intro passes
    obtain ⟨attributes, required⟩ := checks_of_check passes
    obtain ⟨below, parsed⟩ := check_eq_ok passes
    obtain ⟨placed, offered⟩ := checkChildren_eq_ok.1 below
    refine ⟨attributes, required, ⟨placed, offered, checkDefault_eq_ok.1 ?_⟩, parsed⟩
    cases default : d.checkDefault children with
    | ok _ => rfl
    | error error => simp [check, attributes, required, default, bind, Except.bind] at passes
  · rintro ⟨attributes, required, ⟨placed, offered, picked⟩, parsed⟩
    rw [check, attributes, required, checkDefault_eq_ok.2 picked,
      checkChildren_eq_ok.2 ⟨placed, offered⟩, parsed]
    rfl

theorem accommodates_of_check (passes : d.check children = .ok e) : d.Accommodates children :=
  (check_eq_ok_iff.1 passes).2.2.1

/-- A declaration that passed its checks passes them with other children that it has room for. -/
theorem Accommodates.check (accommodates : d.Accommodates others)
    (passes : d.check children = .ok e) : d.check others = .ok e := by
  obtain ⟨attributes, required, -, parsed⟩ := check_eq_ok_iff.1 passes
  exact check_eq_ok_iff.2 ⟨attributes, required, accommodates, parsed⟩

/-- Without options to take, it is enough that every child may stand there. -/
theorem Accommodates.of_placed (takes : d.kind.takesOptions = false)
    (placed : ∀ child ∈ children, d.childFault? child.declaration = none) :
    d.Accommodates children where
  placed := placed
  offered := by simp [takes]
  picked := by simp [takes]

/-! Declarations that flattening makes. -/

theorem check_generated {kind : NodeKind} (generated : kind = .method ∨ kind = .invokeCall)
    (name : String) (location : Option Location)
    (placed : ∀ child ∈ children, childFault?
      { kind, attributes := .ofList [("name", .string name)], location } child.declaration = none) :
    check { kind, attributes := .ofList [("name", .string name)], location } children =
      .ok none := by
  have takes : kind.takesOptions = false := by rcases generated with rfl | rfl <;> rfl
  refine check_eq_ok_iff.2 ⟨rfl, ?_, .of_placed takes placed, ?_⟩
  · rcases generated with rfl | rfl <;> rfl
  · rcases generated with rfl | rfl <;> rfl

theorem checkAttributes_insert {name : String} {value : Value}
    (passes : d.checkAttributes = .ok ()) (fits : checkAttribute d.kind name value = .ok ()) :
    checkAttributes { d with attributes := d.attributes.insert name value } = .ok () := by
  refine forM_eq_ok fun entry member => ?_
  rcases Table.mem_insertEntry member with rfl | member
  · exact fits
  · exact ok_of_forM passes entry member

theorem childFault?_below_condition (kind : d.kind = .condition) {twin : Declaration}
    (kind' : twin.kind = .condition) (child : Declaration) :
    twin.childFault? child = d.childFault? child := by
  simp only [childFault?, kind, kind']

theorem check_folded (kind : d.kind = .condition) (passes : d.check children = .ok e)
    (placed : ∀ child ∈ others, d.childFault? child.declaration = none) :
    ∃ folded, (Rebuild.foldedDeclaration d e).check others = .ok folded := by
  obtain ⟨attributes, required, -, parsed⟩ := check_eq_ok_iff.1 passes
  have takes : d.kind.takesOptions = false := by
    rw [kind]
    rfl
  have same : d.check others = .ok e := (Accommodates.of_placed takes placed).check passes
  cases e with
  | none => exact ⟨_, same⟩
  | some expression =>
      have parsed := Rebuild.parseExpression_foldedDeclaration parsed
      unfold Rebuild.foldedDeclaration at parsed ⊢
      by_cases unchanged : expression.fold = expression
      · simp only [unchanged, if_true]
        exact ⟨_, same⟩
      · simp only [unchanged, if_false] at parsed ⊢
        refine ⟨some expression.fold, check_eq_ok_iff.2
          ⟨checkAttributes_insert attributes ?_, ?_, .of_placed takes fun child member => ?_,
            parsed⟩⟩
        · rw [kind]
          rfl
        · simp only [checkRequired, Declaration.required, kind, Table.contains]
          refine forM_eq_ok fun name member => ?_
          rw [List.mem_singleton.1 member, Table.get?_insert_self]
          rfl
        · rw [childFault?_below_condition kind]
          · exact placed child member
          · exact kind

/-! Where nodes may stand. -/

variable {child other : Declaration}

theorem childFault?_condition (kind : child.kind = .condition) (kind' : other.kind = .condition) :
    d.childFault? other = d.childFault? child := by
  simp [childFault?, isContainer, needsName, NodeKind.isModel, NodeKind.isBinding, kind, kind']

structure Portable (d : Declaration) : Prop where
  inner : d.kind ≠ .script
  single : d.kind ≠ .option
  named : d.kind.isModel = true → d.name? ≠ none

theorem Portable.of_invocation (invokes : d.kind = .invokeCall ∨ d.kind = .invokeSource) :
    d.Portable := by
  rcases invokes with kind | kind
  · exact ⟨by simp [kind], by simp [kind], by simp [kind, NodeKind.isModel]⟩
  · exact ⟨by simp [kind], by simp [kind], by simp [kind, NodeKind.isModel]⟩

/-- What may stand at the top of a script or in a method is portable. -/
theorem Portable.of_top (top : d.kind = .script ∨ d.kind = .method)
    (placed : d.childFault? child = none) : child.Portable := by
  have takes : d.kind.takesOptions = false := by rcases top with top | top <;> rw [top] <;> rfl
  refine ⟨fun script => ?_, fun option => ?_, fun model => ?_⟩
  · simp [childFault?, script] at placed
  · simp [childFault?, option, takes] at placed
  · have inner : child.kind ≠ .script := fun kind => by simp [kind, NodeKind.isModel] at model
    have single : child.kind ≠ .option := fun kind => by simp [kind, NodeKind.isModel] at model
    rcases top with top | top <;>
      simpa [childFault?, inner, single, top, needsName, model] using placed

theorem Portable.childFault? (portable : other.Portable)
    (invokes : child.kind = .invokeCall ∨ child.kind = .invokeSource)
    (placed : d.childFault? child = none) : d.childFault? other = none := by
  obtain ⟨inner, single, named⟩ := portable
  have needs : ∀ kind, needsName kind other = false := by
    intro kind
    cases model : other.kind.isModel with
    | false => simp [needsName, model]
    | true =>
        have name := Option.isNone_eq_false_iff.2 (Option.isSome_iff_ne_none.2 (named model))
        simp [needsName, name]
  have model : child.kind.isModel = false := by
    rcases invokes with kind | kind <;> rw [kind] <;> rfl
  -- Groups of bindings hold no invocations, whether or not they have a name.
  have unbound : d.kind ≠ .preset ∧ d.kind ≠ .var := by
    constructor <;> intro parent <;>
      cases group : d.attributes.contains "name" <;> rcases invokes with kind | kind <;>
        simp_all [Declaration.childFault?]
  cases parent : d.kind <;> rcases invokes with kind | kind <;>
    simp_all [Declaration.childFault?]

end Declaration

end Archetype
