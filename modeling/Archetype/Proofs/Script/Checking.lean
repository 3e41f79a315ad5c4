import Archetype.Script.Builder

/-!
What the checks on a declaration say about its children once they pass.
-/

namespace Archetype

def Node.Checked (node : Node) : Prop :=
  node.declaration.check node.children = .ok node.expression

theorem ok_of_forM {check : α → Except ε Unit} {items : List α}
    (passes : items.forM check = .ok ()) :
    ∀ item ∈ items, check item = .ok () := by
  induction items with
  | nil => simp
  | cons first rest ih =>
      intro item member
      cases head : check first with
      | error error => simp [head, bind, Except.bind] at passes
      | ok _ =>
          simp only [List.forM_eq_forM, List.forM_cons, head, bind, Except.bind] at passes
          rcases List.mem_cons.1 member with rfl | member
          · exact head
          · exact ih passes item member

theorem forM_eq_ok {α ε : Type} {check : α → Except ε Unit} {items : List α}
    (each : ∀ item ∈ items, check item = .ok ()) : items.forM check = .ok () := by
  induction items with
  | nil => rfl
  | cons first rest ih =>
      have later := ih fun item member => each item (List.mem_cons_of_mem _ member)
      simp only [List.forM_eq_forM, List.forM_cons] at later ⊢
      rw [each first (List.mem_cons_self ..), later]
      rfl

namespace Declaration

variable {d : Declaration} {children : List Node} {e : Option Expression}

theorem check_eq_ok (passes : d.check children = .ok e) :
    d.checkChildren children = .ok () ∧ d.parseExpression = .ok e := by
  unfold check at passes
  cases attributes : d.checkAttributes with
  | error error => simp [attributes, bind, Except.bind] at passes
  | ok _ =>
      cases required : d.checkRequired with
      | error error => simp [attributes, required, bind, Except.bind] at passes
      | ok _ =>
          cases default : d.checkDefault children with
          | error error => simp [attributes, required, default, bind, Except.bind] at passes
          | ok _ =>
              cases below : d.checkChildren children with
              | error error =>
                  simp [attributes, required, default, below, bind, Except.bind] at passes
              | ok _ =>
                  simp only [attributes, required, default, below, bind, Except.bind] at passes
                  exact ⟨rfl, passes⟩

theorem checks_of_check (passes : d.check children = .ok e) :
    d.checkAttributes = .ok () ∧ d.checkRequired = .ok () := by
  unfold check at passes
  cases attributes : d.checkAttributes with
  | error error => simp [attributes, bind, Except.bind] at passes
  | ok _ =>
      cases required : d.checkRequired with
      | error error => simp [attributes, required, bind, Except.bind] at passes
      | ok _ => exact ⟨rfl, rfl⟩

theorem checkAttribute_of_check (passes : d.check children = .ok e) {name : String} {value : Value}
    (found : d.attributes.get? name = some value) : checkAttribute d.kind name value = .ok () := by
  obtain ⟨entry, there, rfl⟩ := Option.map_eq_some_iff.1 found
  have named : entry.1 = name := by simpa using List.find?_some there
  rw [← named]
  exact ok_of_forM (checks_of_check passes).1 entry (List.mem_of_find?_eq_some there)

theorem exists_name (passes : d.check children = .ok e) (needs : "name" ∈ d.required) :
    ∃ name, d.name? = some name := by
  have there := ok_of_forM (checks_of_check passes).2 "name" needs
  have contains : d.attributes.contains "name" = true := by
    split at there
    · assumption
    · cases there
  obtain ⟨value, found⟩ := Option.isSome_iff_exists.1 contains
  have checked := checkAttribute_of_check passes found
  have type : attributeType? d.kind "name" = some (some .string) := by simp [attributeType?]
  simp only [checkAttribute, type] at checked
  split at checked
  · next typed =>
      cases value with
      | string name => exact ⟨name, by simp [name?, Attributes.string?, found]⟩
      | null => simp [Value.isNull] at typed
      | bool b => simp [Value.type] at typed
      | int i => simp [Value.type] at typed
      | list items => simp [Value.type] at typed
  · cases checked

theorem childFault?_eq_none (passes : d.check children = .ok e) {child : Node}
    (member : child ∈ children) : d.childFault? child.declaration = none := by
  have below := (check_eq_ok passes).1
  unfold checkChildren at below
  split at below
  · cases below
  · have clean := ok_of_forM below child member
    split at clean
    · cases clean
    · assumption

theorem childless_of_call (passes : d.check children = .ok e) (kind : d.kind = .invokeCall) :
    children = [] := by
  cases children with
  | nil => rfl
  | cons child rest =>
      have clean := childFault?_eq_none passes (List.mem_cons_self ..)
      unfold childFault? at clean
      split at clean
      · cases clean
      · split at clean
        · simp [kind, NodeKind.takesOptions] at clean
        · simp [kind] at clean

theorem exists_option (passes : d.check children = .ok e) (takes : d.kind.takesOptions = true) :
    ∃ option ∈ children, option.kind = .option := by
  have below := (check_eq_ok passes).1
  unfold checkChildren at below
  split at below
  · cases below
  · next some =>
      simpa [takes] using some

/-- Options stand below the inputs that they are for, and nowhere else. -/
theorem takesOptions_of_option (passes : d.check children = .ok e) {option : Node}
    (member : option ∈ children) (kind : option.kind = .option) : d.kind.takesOptions = true := by
  have clean := childFault?_eq_none passes member
  simpa [childFault?, kind] using clean

end Declaration

end Archetype
