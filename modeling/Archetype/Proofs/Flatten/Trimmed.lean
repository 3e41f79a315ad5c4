import Archetype.Proofs.Flatten.Rebuilt

/-!
What is left of trees when some of their nodes are dropped with all that is below them, and the
others stay in order.
-/

namespace Archetype

inductive Trimmed (dropped : Node → Prop) (R : Node → Node → Prop) : List Node → List Node → Prop
  | nil : Trimmed dropped R [] []
  | drop (here : dropped node) (rest : Trimmed dropped R nodes kept) :
      Trimmed dropped R (node :: nodes) kept
  | keep (here : R node twin) (below : Trimmed dropped R node.children twin.children)
      (rest : Trimmed dropped R nodes kept) : Trimmed dropped R (node :: nodes) (twin :: kept)

namespace Trimmed

variable {dropped : Node → Prop} {R S : Node → Node → Prop} {nodes kept : List Node}

theorem refl (same : ∀ node, R node node) : ∀ nodes : List Node, Trimmed dropped R nodes nodes
  | [] => .nil
  | ⟨_, _, _, children⟩ :: rest => .keep (same _) (refl same children) (refl same rest)

theorem forall_dropped (none : Trimmed dropped R nodes []) : ∀ node ∈ nodes, dropped node := by
  induction nodes with
  | nil => simp
  | cons node rest ih =>
      cases none with
      | drop here later => exact List.forall_mem_cons.2 ⟨here, ih later⟩

theorem exists_right (trimmed : Trimmed dropped R nodes kept) {node : Node} (member : node ∈ nodes)
    (stays : ¬dropped node) :
    ∃ twin ∈ kept, R node twin ∧ Trimmed dropped R node.children twin.children := by
  induction trimmed with
  | nil => cases member
  | drop here _ ih =>
      rcases List.mem_cons.1 member with rfl | member
      · exact absurd here stays
      · exact ih member
  | keep here below _ _ ih =>
      rcases List.mem_cons.1 member with rfl | member
      · exact ⟨_, List.mem_cons_self .., here, below⟩
      · obtain ⟨twin, inside, same⟩ := ih member
        exact ⟨twin, List.mem_cons_of_mem _ inside, same⟩

theorem exists_left (trimmed : Trimmed dropped R nodes kept) {twin : Node} (member : twin ∈ kept) :
    ∃ node ∈ nodes, R node twin ∧ Trimmed dropped R node.children twin.children := by
  induction trimmed with
  | nil => cases member
  | drop _ _ ih =>
      obtain ⟨node, inside, same⟩ := ih member
      exact ⟨node, List.mem_cons_of_mem _ inside, same⟩
  | keep here below _ _ ih =>
      rcases List.mem_cons.1 member with rfl | member
      · exact ⟨_, List.mem_cons_self .., here, below⟩
      · obtain ⟨node, inside, same⟩ := ih member
        exact ⟨node, List.mem_cons_of_mem _ inside, same⟩

theorem strengthen (trimmed : Trimmed dropped R nodes kept)
    (more : ∀ node ∈ Node.preorderAll nodes, ∀ twin ∈ Node.preorderAll kept, R node twin →
      Trimmed dropped R node.children twin.children → S node twin) :
    Trimmed dropped S nodes kept := by
  induction trimmed with
  | nil => exact .nil
  | drop here _ ih =>
      refine .drop here (ih fun node inside => more node ?_)
      rw [Node.preorderAll_cons]
      exact List.mem_cons_of_mem _ (List.mem_append_right _ inside)
  | keep here below _ ihBelow ih =>
      simp only [Node.preorderAll_cons] at more
      refine .keep ?_ (ihBelow ?_) (ih ?_)
      · exact more _ (List.mem_cons_self ..) _ (List.mem_cons_self ..) here below
      · exact fun node inside twin there =>
          more node (List.mem_cons_of_mem _ (List.mem_append_left _ inside))
            twin (List.mem_cons_of_mem _ (List.mem_append_left _ there))
      · exact fun node inside twin there =>
          more node (List.mem_cons_of_mem _ (List.mem_append_right _ inside))
            twin (List.mem_cons_of_mem _ (List.mem_append_right _ there))

/-- What is dropped from what is left could have been dropped at once. -/
theorem comp {also : Node → Prop} {fewer : List Node} {T : Node → Node → Prop}
    (first : Trimmed dropped R nodes kept) (second : Trimmed also S kept fewer)
    (drop : ∀ node, ∀ twin ∈ Node.preorderAll kept, R node twin →
      Trimmed dropped R node.children twin.children → also twin → dropped node)
    (both : ∀ node twin other, R node twin → S twin other → T node other) :
    Trimmed dropped T nodes fewer := by
  induction first generalizing fewer with
  | nil =>
      cases second
      exact .nil
  | drop here _ ih => exact .drop here (ih second drop)
  | keep here below _ ihBelow ih =>
      simp only [Node.preorderAll_cons] at drop
      have later := fun node twin inside =>
        drop node twin (List.mem_cons_of_mem _ (List.mem_append_right _ inside))
      cases second with
      | drop gone rest =>
          exact .drop (drop _ _ (List.mem_cons_self ..) here below gone) (ih rest later)
      | keep here' below' rest =>
          refine .keep (both _ _ _ here here') (ihBelow below' ?_) (ih rest later)
          exact fun node twin inside =>
            drop node twin (List.mem_cons_of_mem _ (List.mem_append_left _ inside))

end Trimmed

end Archetype
