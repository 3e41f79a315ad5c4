import Archetype.Proofs.Lockstep
import Archetype.Proofs.Script.Checking
import Archetype.Proofs.Script.Matched

/-!
What the checks on a declaration do not look at: what its name says, and all but a few things of
its children.
-/

namespace Archetype

def Attributes.SameButName (attributes other : Attributes) : Prop :=
  List.Forall₂ (fun entry entry' => entry.1 = entry'.1 ∧ (entry.2 = entry'.2 ∨
    entry.1 = "name" ∧ ∃ name name', entry.2 = .string name ∧ entry'.2 = .string name'))
    attributes.entries other.entries

/-- What the checks on a declaration look at in a child: its kind, whether it has a name, and the
value of an option. -/
structure Declaration.LooksLike (child other : Declaration) : Prop where
  kind : other.kind = child.kind
  value : other.value? = child.value?
  nameless : child.kind ≠ .script → other.name?.isNone = child.name?.isNone

theorem forM_eq_of_forall₂ {α β ε : Type} {check : α → Except ε Unit} {check' : β → Except ε Unit}
    {items : List α} {items' : List β}
    (same : List.Forall₂ (fun item item' => check' item' = check item) items items') :
    items'.forM check' = items.forM check := by
  induction same with
  | nil => rfl
  | cons here _ ih =>
      simp only [List.forM_eq_forM, List.forM_cons] at ih ⊢
      rw [here, ih]

namespace Attributes.SameButName

theorem refl (attributes : Attributes) : attributes.SameButName attributes :=
  List.forall₂_same.2 fun _ _ => ⟨rfl, .inl rfl⟩

theorem names (name name' : String) :
    SameButName (.ofList [("name", .string name)]) (.ofList [("name", .string name')]) :=
  .cons ⟨rfl, .inr ⟨rfl, name, name', rfl, rfl⟩⟩ .nil

variable {attributes other : Attributes} (same : attributes.SameButName other)
include same

theorem get?_rel (name : String) :
    Option.Rel (fun value value' => value = value' ∨
      name = "name" ∧ ∃ text text', value = .string text ∧ value' = .string text')
      (attributes.get? name) (other.get? name) := by
  have found : Option.Rel (fun entry entry' : String × Value => entry.2 = entry'.2 ∨
      name = "name" ∧ ∃ text text', entry.2 = .string text ∧ entry'.2 = .string text')
      (attributes.entries.find? (·.1 = name)) (other.entries.find? (·.1 = name)) := by
    have entries := List.rel_filter (p := fun entry : String × Value => entry.1 = name)
      (q := fun entry => entry.1 = name) (fun entry entry' here => by simp only [here.1]) same
    rw [← List.head?_filter, ← List.head?_filter]
    have named : ∀ entry ∈ attributes.entries.filter (·.1 = name), entry.1 = name :=
      fun _ member => of_decide_eq_true (List.mem_filter.1 member).2
    generalize attributes.entries.filter (·.1 = name) = left,
      other.entries.filter (·.1 = name) = right at entries named ⊢
    cases entries with
    | nil => exact .none
    | cons here _ =>
        obtain rfl := named _ (List.mem_cons_self ..)
        exact .some here.2
  unfold Table.get?
  generalize attributes.entries.find? (·.1 = name) = left,
    other.entries.find? (·.1 = name) = right at found
  cases found with
  | none => exact .none
  | some here => exact .some here

theorem get?_eq {name : String} (differs : name ≠ "name") :
    other.get? name = attributes.get? name := by
  have found := same.get?_rel name
  generalize attributes.get? name = left, other.get? name = right at found
  cases found with
  | none => rfl
  | some here =>
      rcases here with rfl | ⟨called, -⟩
      · rfl
      · exact absurd called differs

theorem contains_eq (name : String) : other.contains name = attributes.contains name := by
  have found := same.get?_rel name
  unfold Table.contains
  generalize attributes.get? name = left, other.get? name = right at found
  cases found <;> rfl

theorem nameless_eq : (other.string? "name").isNone = (attributes.string? "name").isNone := by
  have found := same.get?_rel "name"
  unfold Attributes.string?
  generalize attributes.get? "name" = left, other.get? "name" = right at found
  cases found with
  | none => rfl
  | some here =>
      rcases here with rfl | ⟨-, text, text', rfl, rfl⟩
      · rfl
      · rfl

theorem forM_checkAttribute (kind : NodeKind) :
    (other.entries.forM fun (name, value) => Declaration.checkAttribute kind name value) =
      attributes.entries.forM fun (name, value) => Declaration.checkAttribute kind name value := by
  have text : ∀ text, Declaration.checkAttribute kind "name" (.string text) = .ok () := by
    intro text
    simp [Declaration.checkAttribute, Declaration.attributeType?, Value.type, Value.isNull]
  refine forM_eq_of_forall₂ (same.imp fun entry entry' here => ?_)
  obtain ⟨name, value⟩ := entry
  obtain ⟨name', value'⟩ := entry'
  obtain ⟨rfl, rfl | ⟨rfl, told, told', rfl, rfl⟩⟩ := here
  · rfl
  · exact (text told').trans (text told).symm

end Attributes.SameButName

namespace Declaration

variable {d twin : Declaration} {children others : List Node}

theorem LooksLike.of_sameButName (kind : twin.kind = d.kind)
    (same : d.attributes.SameButName twin.attributes) : d.LooksLike twin where
  kind
  value := same.get?_eq (by decide)
  nameless _ := same.nameless_eq

/-- No check looks at the text of a name. -/
theorem check_eq_of_sameButName (kind : twin.kind = d.kind)
    (same : d.attributes.SameButName twin.attributes) : twin.check children = d.check children := by
  have attributes : twin.checkAttributes = d.checkAttributes := by
    unfold checkAttributes
    rw [kind]
    exact same.forM_checkAttribute d.kind
  have required : twin.checkRequired = d.checkRequired := by
    simp only [checkRequired, Declaration.required, kind, same.contains_eq]
  have default : twin.checkDefault children = d.checkDefault children := by
    simp only [checkDefault, kind, default?, same.get?_eq (by decide : "default" ≠ "name")]
  have fault : twin.childFault? = d.childFault? := by
    funext child
    simp only [childFault?, kind, same.contains_eq]
  have below : twin.checkChildren children = d.checkChildren children := by
    simp only [checkChildren, kind, fault]
  have expression : twin.parseExpression = d.parseExpression := by
    simp only [parseExpression, kind, same.get?_eq (by decide : "expression" ≠ "name")]
  simp only [check, attributes, required, default, below, expression]

theorem LooksLike.childFault?_eq {child other : Declaration} (here : child.LooksLike other)
    (d : Declaration) : d.childFault? other = d.childFault? child := by
  unfold childFault?
  rw [here.kind]
  by_cases script : child.kind = .script
  · simp only [script, if_true]
  · have container : other.isContainer = child.isContainer := by
      rw [isContainer, isContainer, here.kind, here.nameless script]
    have needs : ∀ kind, needsName kind other = needsName kind child := by
      intro kind
      rw [needsName, needsName, here.kind, here.nameless script]
    simp only [container, needs]

section Children

variable (same : List.Forall₂ (fun child other => child.declaration.LooksLike other.declaration)
  children others)
include same

theorem optionValues_eq_of_children :
    (others.filter (·.kind = .option)).filterMap (·.declaration.value?) =
      (children.filter (·.kind = .option)).filterMap (·.declaration.value?) := by
  induction same with
  | nil => rfl
  | cons here _ ih =>
      simp only [List.filter_cons, Node.kind, here.kind]
      split
      · rw [List.filterMap_cons, List.filterMap_cons, here.value, ih]
      · exact ih

theorem any_option_eq_of_children :
    others.any (·.kind = .option) = children.any (·.kind = .option) := by
  induction same with
  | nil => rfl
  | cons here _ ih => rw [List.any_cons, List.any_cons, ih, Node.kind, here.kind]

theorem check_eq_of_children : d.check others = d.check children := by
  have default : d.checkDefault others = d.checkDefault children := by
    simp only [checkDefault, optionValues_eq_of_children same]
  have below : d.checkChildren others = d.checkChildren children := by
    unfold checkChildren
    rw [any_option_eq_of_children same]
    split
    · rfl
    · refine forM_eq_of_forall₂ (same.imp fun child other here => ?_)
      rw [here.childFault?_eq d, Node.kind, here.kind]
  simp only [check, default, below]

end Children

end Declaration

end Archetype
