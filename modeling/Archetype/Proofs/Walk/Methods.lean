import Archetype.Walk

/-!
The methods that a script root declares: under distinct names each of them is found, and there are
no others.
-/

namespace Archetype

def Script.declares (script : Script) (name : String) : Bool :=
  script.root.methods.any (·.name? = some name)

namespace Methods

def add (methods : Methods) (node : Node) : Methods :=
  match node.name? with
  | some name => (name, node) :: methods
  | none => methods

theorem declare_eq (methods : Methods) (root : Node) :
    methods.declare root = root.methods.foldl add methods := rfl

/-- Of the methods that are added under one name the last is found. -/
theorem lookup_foldl (declared : List Node) (base : Methods) (name : String) :
    (declared.foldl add base).lookup name =
      (declared.filter (·.name? = some name)).getLast?.or (base.lookup name) := by
  induction declared generalizing base with
  | nil => rfl
  | cons first rest ih =>
      rw [List.foldl_cons, ih]
      by_cases named : first.name? = some name
      · rw [List.filter_cons_of_pos (by simpa using named), List.getLast?_cons]
        simp only [add, named, List.lookup_cons_self]
        cases (rest.filter (·.name? = some name)).getLast? <;> rfl
      · rw [List.filter_cons_of_neg (by simpa using named)]
        have skipped : (add base first).lookup name = base.lookup name := by
          unfold add
          split
          · next other found =>
              have differ : name ≠ other := by
                rintro rfl
                exact named found
              rw [List.lookup_cons, beq_eq_false_iff_ne.2 differ]
          · rfl
        rw [skipped]

theorem lookup_foldl_of_not_mem {declared : List Node} {name : String}
    (absent : name ∉ declared.filterMap (·.name?)) (base : Methods) :
    (declared.foldl add base).lookup name = base.lookup name := by
  have none : declared.filter (·.name? = some name) = [] :=
    List.filter_eq_nil_iff.2 fun method member named =>
      absent (List.mem_filterMap.2 ⟨method, member, of_decide_eq_true named⟩)
  rw [lookup_foldl, none]
  rfl

theorem lookup_foldl_of_mem {declared : List Node}
    (distinct : (declared.filterMap (·.name?)).Nodup) {method : Node} (member : method ∈ declared)
    {name : String} (named : method.name? = some name) (base : Methods) :
    (declared.foldl add base).lookup name = some method := by
  induction declared generalizing base with
  | nil => cases member
  | cons first rest ih =>
      rw [List.foldl_cons]
      rcases List.mem_cons.1 member with rfl | member
      · rw [List.filterMap_cons_some named] at distinct
        rw [lookup_foldl_of_not_mem (List.nodup_cons.1 distinct).1]
        simp only [add, named, List.lookup_cons_self]
      · refine ih ?_ member _
        cases other : first.name? with
        | none => rwa [List.filterMap_cons_none other] at distinct
        | some other' =>
            rw [List.filterMap_cons_some other] at distinct
            exact (List.nodup_cons.1 distinct).2

theorem forall_declare {P : Node → Prop} {methods : Methods} {root : Node}
    (old : ∀ entry ∈ methods, P entry.2) (new : ∀ method ∈ root.methods, P method) :
    ∀ entry ∈ methods.declare root, P entry.2 := by
  rw [declare_eq]
  generalize root.methods = declared at new
  induction declared generalizing methods with
  | nil => exact old
  | cons method rest ih =>
      refine ih ?_ fun other member => new other (List.mem_cons_of_mem _ member)
      unfold add
      split
      · intro entry member
        rcases List.mem_cons.1 member with rfl | member
        · exact new method (List.mem_cons_self ..)
        · exact old entry member
      · exact old

def Declared (methods : Methods) : Prop := ∀ entry ∈ methods, entry.2.kind = .method

theorem Declared.declare {methods : Methods} (declared : methods.Declared) (root : Node) :
    (methods.declare root).Declared :=
  @forall_declare (·.kind = .method) _ _ declared fun method member => by
    simpa using (List.mem_filter.1 member).2

theorem declared_of_root (root : Node) : (declare [] root).Declared :=
  Declared.declare (fun _ member => absurd member List.not_mem_nil) root

theorem Declared.kind_of_lookup {methods : Methods} (declared : methods.Declared)
    {name : String} {method : Node} (found : methods.lookup name = some method) :
    method.kind = .method := by
  obtain ⟨before, after, rfl, _⟩ := List.lookup_eq_some_iff.1 found
  exact declared (name, method) (by simp)

end Methods

end Archetype
