import Archetype.Proofs.Walk.Trace

/-!
Visitors that note what they enter. The notes of a walk are the entries of its trace, so they can be
computed.
-/

namespace Archetype

namespace Visit

def beside (work : Visit σ α) : Visit (σ × List (Node × ScopeId)) α := fun (tree, s, notes) =>
  (work (tree, s)).map fun (result, tree, s) => (result, tree, s, notes)

def note (node : Node) : Visit (σ × List (Node × ScopeId)) Unit :=
  modify fun (tree, s, notes) => (tree, s, notes ++ [(node, tree.current)])

theorem gives_beside {work : Visit σ α} {c c' : ScopeTree × σ × List (Node × ScopeId)} {value : α} :
    Gives work.beside c value c' ↔
      Gives work (c.1, c.2.1) value (c'.1, c'.2.1) ∧ c'.2.2 = c.2.2 := by
  obtain ⟨tree, s, notes⟩ := c
  obtain ⟨tree', s', notes'⟩ := c'
  simp only [Gives, beside]
  cases work (tree, s) with
  | none => simp
  | some pair =>
      simp only [Option.map_some, Option.some.injEq, Prod.mk.injEq]
      constructor
      · rintro ⟨result, rfl, rfl, rfl⟩
        exact ⟨Prod.ext result rfl, rfl⟩
      · rintro ⟨rfl, rfl⟩
        exact ⟨rfl, rfl, rfl, rfl⟩

end Visit

open Visit (Gives gives_bind gives_beside)

/-- The visitor that also notes every node it enters. -/
def Visitor.noting (visitor : Visitor σ) : Visitor (σ × List (Node × ScopeId)) where
  enter node := do
    Visit.note node
    (visitor.enter node).beside
  leave node := (visitor.leave node).beside

theorem Visitor.gives_enter_noting {visitor : Visitor σ} {node : Node}
    {c c' : ScopeTree × σ × List (Node × ScopeId)} :
    Gives (visitor.noting.enter node) c () c' ↔
      Gives (visitor.enter node) (c.1, c.2.1) () (c'.1, c'.2.1) ∧
        c'.2.2 = c.2.2 ++ [(node, c.1.current)] := by
  unfold noting
  simp only [gives_bind, gives_beside]
  constructor
  · rintro ⟨_, between, noted, enter, same⟩
    cases noted
    exact ⟨enter, same⟩
  · rintro ⟨enter, same⟩
    exact ⟨(), _, rfl, enter, same⟩

theorem Walked.of_noting {visitor : Visitor σ} {library : Library}
    {c c' : ScopeTree × σ × List (Node × ScopeId)}
    (walked : Walked visitor.noting library methods nodes c trace c') :
    Walked visitor library methods nodes (c.1, c.2.1) trace (c'.1, c'.2.1) ∧
      c'.2.2 = c.2.2 ++ entries trace := by
  induction walked with
  | nil => exact ⟨.nil, by simp⟩
  | declaration role _ ih => exact ⟨.declaration role ih.1, ih.2⟩
  | untaken role holds _ ih => exact ⟨.untaken role holds ih.1, ih.2⟩
  | taken role holds enter _ leave _ ihBelow ihRest =>
      obtain ⟨enter, noted⟩ := Visitor.gives_enter_noting.1 enter
      obtain ⟨leave, kept⟩ := gives_beside.1 leave
      refine ⟨.taken role holds enter ihBelow.1 leave ihRest.1, ?_⟩
      rw [ihRest.2, kept, ihBelow.2, noted]
      simp
  | block role enter _ leave _ ihBelow ihRest =>
      obtain ⟨enter, noted⟩ := Visitor.gives_enter_noting.1 enter
      obtain ⟨leave, kept⟩ := gives_beside.1 leave
      refine ⟨.block role enter ihBelow.1 leave ihRest.1, ?_⟩
      rw [ihRest.2, kept, ihBelow.2, noted]
      simp
  | call role found enter enterMethod _ leaveMethod leave _ ihBelow ihRest =>
      obtain ⟨enter, noted⟩ := Visitor.gives_enter_noting.1 enter
      obtain ⟨enterMethod, notedMethod⟩ := Visitor.gives_enter_noting.1 enterMethod
      obtain ⟨leaveMethod, keptMethod⟩ := gives_beside.1 leaveMethod
      obtain ⟨leave, kept⟩ := gives_beside.1 leave
      refine ⟨.call role found enter enterMethod ihBelow.1 leaveMethod leave ihRest.1, ?_⟩
      rw [ihRest.2, kept, keptMethod, ihBelow.2, notedMethod, noted]
      simp
  | source role found enter _ leave _ ihBelow ihRest =>
      obtain ⟨enter, noted⟩ := Visitor.gives_enter_noting.1 enter
      obtain ⟨leave, kept⟩ := gives_beside.1 leave
      refine ⟨.source role found enter ihBelow.1 leave ihRest.1, ?_⟩
      rw [ihRest.2, kept, ihBelow.2, noted]
      simp

theorem exists_walked_noted {visitor : Visitor σ} {library : Library} {limit : Nat}
    {methods : Methods} {root : Node} {tree tree' : ScopeTree} {s s' : σ}
    {notes : List (Node × ScopeId)}
    (gives : Gives (walk visitor.noting library limit methods root) (tree, s, []) ()
      (tree', s', notes)) :
    ∃ trace, Walked visitor library (methods.declare root) [root] (tree, s) trace (tree', s') ∧
      entries trace = notes := by
  obtain ⟨trace, walked⟩ := exists_walked gives
  obtain ⟨walked, noted⟩ := walked.of_noting
  exact ⟨trace, walked, by simpa using noted.symm⟩

end Archetype
