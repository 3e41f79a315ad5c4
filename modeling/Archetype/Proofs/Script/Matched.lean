import Archetype.Proofs.Flatten.Rebuilt
import Mathlib.Data.List.Forall2

/-!
Trees of one shape: their nodes correspond one by one, from the root down.
-/

namespace Archetype

inductive Matched (R : Node → Node → Prop) : List Node → List Node → Prop
  | nil : Matched R [] []
  | cons (here : R node twin) (below : Matched R node.children twin.children)
      (rest : Matched R nodes twins) : Matched R (node :: nodes) (twin :: twins)

namespace Matched

variable {R S : Node → Node → Prop} {nodes twins : List Node} {node twin : Node}

theorem single_iff : Matched R [node] [twin] ↔
    R node twin ∧ Matched R node.children twin.children := by
  constructor
  · rintro ⟨⟩
    next here below _ => exact ⟨here, below⟩
  · rintro ⟨here, below⟩
    exact .cons here below .nil

theorem forall₂_iff : Matched R nodes twins ↔
    List.Forall₂ (fun node twin => Matched R [node] [twin]) nodes twins := by
  constructor
  · intro matched
    induction matched with
    | nil => exact .nil
    | cons here below _ _ ih => exact .cons (.cons here below .nil) ih
  · intro related
    induction related with
    | nil => exact .nil
    | cons first _ ih => exact .cons (single_iff.1 first).1 (single_iff.1 first).2 ih

theorem symm (matched : Matched R nodes twins) :
    Matched (fun twin node => R node twin) twins nodes := by
  induction matched with
  | nil => exact .nil
  | cons here _ _ ihBelow ih => exact .cons here ihBelow ih

theorem comp {others : List Node} {T : Node → Node → Prop}
    (both : ∀ node twin other, R node twin → S twin other → T node other)
    (first : Matched R nodes twins) (second : Matched S twins others) : Matched T nodes others := by
  induction first generalizing others with
  | nil =>
      cases second
      exact .nil
  | cons here _ _ ihBelow ih =>
      cases second with
      | cons here' below' rest' => exact .cons (both _ _ _ here here') (ihBelow below') (ih rest')

theorem append {more others : List Node} (first : Matched R nodes twins)
    (second : Matched R more others) : Matched R (nodes ++ more) (twins ++ others) :=
  forall₂_iff.2 (List.rel_append (forall₂_iff.1 first) (forall₂_iff.1 second))

theorem filter {p q : Node → Bool} (same : ∀ node twin, R node twin → p node = q twin)
    (matched : Matched R nodes twins) : Matched R (nodes.filter p) (twins.filter q) := by
  induction matched with
  | nil => exact .nil
  | cons here below _ _ ih =>
      rw [List.filter_cons, List.filter_cons, same _ _ here]
      split
      · exact .cons here below ih
      · exact ih

theorem methods {root other : Node} (kinds : ∀ node twin, R node twin → twin.kind = node.kind)
    (matched : Matched R [root] [other]) : List.Forall₂ (fun method method' =>
      method.kind = .method ∧ Matched R [method] [method']) root.methods other.methods := by
  have all : Matched R root.methods other.methods :=
    (single_iff.1 matched).2.filter fun node twin here => by rw [kinds node twin here]
  exact (List.forall₂_and_left _ _).2
    ⟨fun _ member => of_decide_eq_true (List.mem_filter.1 member).2, forall₂_iff.1 all⟩

theorem any_eq {p q : Node → Bool} (same : ∀ node twin, R node twin → p node = q twin)
    (matched : Matched R nodes twins) : nodes.any p = twins.any q := by
  induction matched with
  | nil => rfl
  | cons here _ _ _ ih => rw [List.any_cons, List.any_cons, same _ _ here, ih]

theorem isEmpty_eq (matched : Matched R nodes twins) : nodes.isEmpty = twins.isEmpty := by
  cases matched <;> rfl

theorem length_preorderAll (matched : Matched R nodes twins) :
    (Node.preorderAll nodes).length = (Node.preorderAll twins).length := by
  induction matched with
  | nil => rfl
  | cons _ _ _ ihBelow ih =>
      simp only [Node.preorderAll_cons, List.length_cons, List.length_append, ihBelow, ih]

theorem exists_left (matched : Matched R nodes twins) :
    ∀ node ∈ nodes, ∃ twin ∈ twins, R node twin ∧ Matched R node.children twin.children := by
  induction matched with
  | nil => nofun
  | cons here below _ _ ih =>
      refine List.forall_mem_cons.2 ⟨⟨_, List.mem_cons_self .., here, below⟩, fun node member => ?_⟩
      obtain ⟨twin, inside, related⟩ := ih node member
      exact ⟨twin, List.mem_cons_of_mem _ inside, related⟩

theorem exists_right (matched : Matched R nodes twins) :
    ∀ twin ∈ Node.preorderAll twins, ∃ node ∈ Node.preorderAll nodes, R node twin := by
  induction matched with
  | nil => exact fun _ member => absurd member List.not_mem_nil
  | cons here _ _ ihBelow ih =>
      intro twin member
      simp only [Node.preorderAll_cons, List.mem_cons, List.mem_append] at member ⊢
      rcases member with rfl | member | member
      · exact ⟨_, .inl rfl, here⟩
      · obtain ⟨node, inside, related⟩ := ihBelow twin member
        exact ⟨node, .inr (.inl inside), related⟩
      · obtain ⟨node, inside, related⟩ := ih twin member
        exact ⟨node, .inr (.inr inside), related⟩

end Matched

end Archetype
