import Archetype.Proofs.Expression.Agreement
import Archetype.Proofs.Scope.Renaming
import Archetype.Proofs.Walk.Comparison
import Archetype.Proofs.Walk.Methods

/-!
How the events of a trace hang together. Between a condition that does not hold and the next node
entered nothing happens to the scopes, so the same condition is not the next node entered in the
same scope. Two traces that part at a condition therefore enter different nodes.
-/

namespace Archetype

open Visit (Gives)

/-- The truth value of a condition depends on the scopes and the current scope alone. -/
theorem Node.holdsIn_congr (node : Node) {tree other : ScopeTree} (nodes : other.nodes = tree.nodes)
    (current : other.current = tree.current) :
    (node.holdsIn other).toOption = (node.holdsIn tree).toOption := by
  unfold Node.holdsIn
  cases node.expression with
  | none => rfl
  | some e =>
      exact e.holds_agree fun path _ =>
        (ScopeTree.Alike.of_nodes nodes).lookup current fun _ _ => rfl

/-- A condition that holds is entered at once; one that does not leaves the scopes as they are. -/
inductive Linked : Array ScopeNode → List Event → Array ScopeNode → Prop
  | nil : Linked nodes [] nodes
  | untaken (kind : node.kind = .condition) (holds : node.holdsIn tree = .ok false)
      (rest : Linked tree.nodes trace after) :
      Linked tree.nodes (.decided node tree false :: trace) after
  | taken (kind : node.kind = .condition) (holds : node.holdsIn tree = .ok true)
      (rest : Linked between trace after) :
      Linked tree.nodes (.decided node tree true :: .entered node tree :: trace) after
  | entered (kind : node.kind ≠ .condition) (rest : Linked between trace after) :
      Linked before (.entered node tree :: trace) after

namespace Linked

variable {before between after : Array ScopeNode} {trace later : List Event} {node : Node}
  {tree : ScopeTree}

theorem append (first : Linked before trace between) (second : Linked between later after) :
    Linked before (trace ++ later) after := by
  induction first with
  | nil => exact second
  | untaken kind holds _ ih => exact .untaken kind holds (ih second)
  | taken kind holds _ ih => exact .taken kind holds (ih second)
  | entered kind _ ih => exact .entered kind (ih second)

theorem after_decided {start : List Event} {truth : Bool}
    (linked : Linked before (start ++ .decided node tree truth :: later) after) :
    node.kind = .condition ∧ node.holdsIn tree = .ok truth ∧
      if truth then ∃ rest, later = .entered node tree :: rest
      else Linked tree.nodes later after := by
  generalize whole : start ++ .decided node tree truth :: later = trace at linked
  induction linked generalizing start with
  | nil => simp at whole
  | untaken kind holds rest ih =>
      cases start with
      | nil =>
          cases whole
          exact ⟨kind, holds, rest⟩
      | cons event start =>
          obtain ⟨-, same⟩ := List.cons.inj whole
          exact ih same
  | taken kind holds rest ih =>
      cases start with
      | nil =>
          cases whole
          exact ⟨kind, holds, _, rfl⟩
      | cons event start =>
          obtain ⟨-, same⟩ := List.cons.inj whole
          cases start with
          | nil => cases same
          | cons event start => exact ih (List.cons.inj same).2
  | entered kind rest ih =>
      cases start with
      | nil => cases whole
      | cons event start => exact ih (List.cons.inj whole).2

/-- A condition that is the next node entered holds in the scopes as they are. -/
theorem holdsIn_of_entries {here : ScopeId} {more : List (Node × ScopeId)}
    (linked : Linked before trace after) (kind : node.kind = .condition)
    (next : entries trace = (node, here) :: more) :
    ∃ tree : ScopeTree, tree.nodes = before ∧ tree.current = here ∧
      node.holdsIn tree = .ok true := by
  induction linked with
  | nil => cases next
  | untaken _ _ _ ih => exact ih next
  | taken _ holds _ _ =>
      cases next
      exact ⟨_, rfl, rfl, holds⟩
  | entered differs _ _ =>
      cases next
      exact absurd kind differs

end Linked

theorem Node.kind_ne_condition {node : Node} (role : node.role ≠ .condition) :
    node.kind ≠ .condition := by
  intro kind
  exact role (by simp only [Node.role, kind])

variable {visitor : Visitor σ} {library : Library}

theorem Walked.linked (extending : visitor.Extends)
    (walked : Walked visitor library methods list c trace c') (declared : methods.Declared) :
    Linked c.1.nodes trace c'.1.nodes := by
  induction walked with
  | nil => exact .nil
  | declaration role rest ih => exact ih declared
  | untaken role holds rest ih =>
      exact .untaken (Node.role_eq_condition role) holds (ih declared)
  | taken role holds enter below leave rest ihBelow ihRest =>
      have rested := ihRest declared
      rw [extending.leave leave] at rested
      exact .taken (Node.role_eq_condition role) holds ((ihBelow declared).append rested)
  | block role enter below leave rest ihBelow ihRest =>
      have rested := ihRest declared
      simp only [ScopeTree.nodes_closed, extending.leave leave] at rested
      exact .entered (Node.kind_ne_condition (by rw [role]; exact Role.noConfusion))
        ((ihBelow declared).append rested)
  | call role found enter enterMethod below leaveMethod leave rest ihBelow ihRest =>
      have rested := ihRest declared
      simp only [extending.leave leave, ScopeTree.nodes_closed, extending.leave leaveMethod]
        at rested
      have method := declared.kind_of_lookup found
      exact .entered (Node.kind_ne_condition (by rw [role]; exact Role.noConfusion))
        (@Linked.entered _ _ _ #[] _ _ (by rw [method]; decide) ((ihBelow declared).append rested))
  | source role found enter below leave rest ihBelow ihRest =>
      have rested := ihRest declared
      simp only [extending.leave leave, ScopeTree.nodes_closed] at rested
      exact .entered (Node.kind_ne_condition (by rw [role]; exact Role.noConfusion))
        ((ihBelow (declared.declare _)).append rested)

namespace Compared

variable {settled : Array ScopeNode} {first second : List Event}

/-- The condition that two walks decide differently. -/
theorem exists_split (split : Compared settled false first second) :
    ∃ start start' node tree truth later later',
      entries start = entries start' ∧ first = start ++ .decided node tree truth :: later ∧
        second = start' ++ .decided node ⟨settled, tree.frames⟩ (!truth) :: later' := by
  generalize goal : false = alike at split
  induction split with
  | nil => cases goal
  | @decided _ _ _ node tree truth holds _ ih =>
      obtain ⟨start, start', other, tree', truth', later, later', same, rfl, rfl⟩ := ih goal
      exact ⟨.decided node tree truth :: start,
        .decided node ⟨settled, tree.frames⟩ truth :: start',
        other, tree', truth', later, later', same, rfl, rfl⟩
  | @entered _ _ _ node tree tree' current _ ih =>
      obtain ⟨start, start', other, tree'', truth', later, later', same, rfl, rfl⟩ := ih goal
      exact ⟨.entered node tree :: start, .entered node tree' :: start', other, tree'', truth',
        later, later', by rw [entries_entered, entries_entered, current, same], rfl, rfl⟩
  | @split first second node tree truth =>
      exact ⟨[], [], node, tree, truth, first, second, rfl, rfl, rfl⟩

/-- Walks that part enter different nodes, or the same in different scopes. -/
theorem entries_ne (split : Compared settled false first second)
    (linked : Linked before first after) (linked' : Linked before' second after') :
    entries first ≠ entries second := by
  intro same
  obtain ⟨start, start', node, tree, truth, later, later', sameStart, rfl, rfl⟩ :=
    split.exists_split
  obtain ⟨kind, holds, next⟩ := linked.after_decided
  obtain ⟨-, holds', next'⟩ := linked'.after_decided
  have sameLater : entries later = entries later' := by
    simpa [sameStart] using same
  have refuted : ∀ {nodes : Array ScopeNode} {tree tree' : ScopeTree}, tree.nodes = nodes →
      tree.current = tree'.current → tree'.nodes = nodes → node.holdsIn tree = .ok true →
      node.holdsIn tree' = .ok false → False := by
    intro nodes tree tree' eq current eq' yes no
    have agree := node.holdsIn_congr (eq.trans eq'.symm) current
    rw [yes, no] at agree
    cases agree
  cases truth with
  | true =>
      obtain ⟨rest, rfl⟩ := next
      have first : entries later' = (node, tree.current) :: _ := sameLater.symm
      obtain ⟨found, nodes, current, yes⟩ := Linked.holdsIn_of_entries next' kind first
      exact @refuted settled found ⟨settled, tree.frames⟩ nodes current rfl yes holds'
  | false =>
      obtain ⟨rest, rfl⟩ := next'
      have first : entries later = (node, tree.current) :: _ := sameLater
      obtain ⟨found, nodes, current, yes⟩ := Linked.holdsIn_of_entries next kind first
      exact @refuted tree.nodes found tree nodes current rfl yes holds

end Compared

end Archetype
