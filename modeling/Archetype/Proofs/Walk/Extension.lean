import Archetype.Proofs.Scope.WellFormed
import Archetype.Proofs.Walk.Trace

/-!
What walks do to a scope tree. If entering a node keeps the tree in shape and only lets it grow,
and leaving a node does nothing to it, then so does the whole walk, and it leaves the open frames
as it found them. A property that holds of such walks as they are put together holds of all of them:
what entering a node keeps of the scopes, the whole walk keeps.
-/

namespace Archetype

open Visit (Gives)

/-- The later tree has grown from the earlier one, is in shape and has the same open frames. -/
structure ScopeTree.Extends (before after : ScopeTree) : Prop where
  wellFormed : after.WellFormed
  grows : before.Grows after
  frames : after.frames = before.frames

namespace ScopeTree.Extends

variable {a b c : ScopeTree}

theorem refl (wf : a.WellFormed) : a.Extends a := ⟨wf, .refl a, rfl⟩

theorem trans (first : a.Extends b) (second : b.Extends c) : a.Extends c :=
  ⟨second.wellFormed, first.grows.trans second.grows, second.frames.trans first.frames⟩

theorem current (grown : a.Extends b) : b.current = a.current := by
  simp only [ScopeTree.current, grown.frames]

theorem leave {name : String} {frame : FrameKind} (inner : (a.push name frame).2.Extends b) :
    a.Extends (b.leaveTo a.frames.length) where
  wellFormed := inner.wellFormed.leaveTo _
  grows := ((a.grows_push name frame).trans inner.grows).of_nodes rfl rfl
  frames := frames_leaveTo_of_push inner.frames

theorem closed {frame : Option (String × FrameKind)} (inner : (a.opened frame).Extends b) :
    a.Extends (a.closed b frame) := by
  cases frame with
  | none => exact inner
  | some frame => exact inner.leave

end ScopeTree.Extends

theorem ScopeTree.WellFormed.opened {tree : ScopeTree} (wf : tree.WellFormed)
    (frame : Option (String × FrameKind)) : (tree.opened frame).WellFormed := by
  cases frame with
  | none => exact wf
  | some frame => exact wf.push frame.1 frame.2

structure Visitor.Extends (visitor : Visitor σ) : Prop where
  enter : ∀ {node c c'}, Gives (visitor.enter node) c () c' → c.1.WellFormed → c.1.Extends c'.1
  leave : ∀ {node c c'}, Gives (visitor.leave node) c () c' → c'.1 = c.1

structure Visitor.Reads (visitor : Visitor σ) : Prop where
  enter : ∀ {node c c'}, Gives (visitor.enter node) c () c' → c'.1 = c.1
  leave : ∀ {node c c'}, Gives (visitor.leave node) c () c' → c'.1 = c.1

variable {visitor : Visitor σ} {library : Library}

theorem Visitor.Reads.extends (reads : visitor.Reads) : visitor.Extends where
  enter entered wf := (reads.enter entered).symm ▸ .refl wf
  leave := reads.leave

theorem Walked.extends (extending : visitor.Extends)
    (walked : Walked visitor library methods list c trace c') (wf : c.1.WellFormed) :
    c.1.Extends c'.1 := by
  induction walked with
  | nil => exact .refl wf
  | declaration role rest ih => exact ih wf
  | untaken role holds rest ih => exact ih wf
  | taken role holds enter below leave rest ihBelow ihRest =>
      have entered := extending.enter enter wf
      have worked := ihBelow entered.wellFormed
      rw [← extending.leave leave] at worked
      exact (entered.trans worked).trans (ihRest worked.wellFormed)
  | block role enter below leave rest ihBelow ihRest =>
      have entered := extending.enter enter (wf.opened _)
      have worked := ihBelow entered.wellFormed
      rw [← extending.leave leave] at worked
      have closed := (entered.trans worked).closed
      exact closed.trans (ihRest closed.wellFormed)
  | @call _ node _ _ _ _ _ _ _ _ _ _ _ role found enter enterMethod below leaveMethod leave rest
      ihBelow ihRest =>
      have entered := extending.enter enter wf
      have inside := extending.enter enterMethod
        (entered.wellFormed.opened (node.bodyFrame node.target))
      simp only at inside
      have worked := ihBelow inside.wellFormed
      rw [← extending.leave leaveMethod] at worked
      have left := (inside.trans worked).closed
      have kept := extending.leave leave
      simp only at kept
      rw [← kept] at left
      exact (entered.trans left).trans (ihRest left.wellFormed)
  | @source script node _ _ _ _ _ _ _ _ _ role found enter below leave rest ihBelow ihRest =>
      have entered := extending.enter enter wf
      have worked := ihBelow (entered.wellFormed.opened (node.bodyFrame script.identity))
      simp only at worked
      have left := worked.closed
      have kept := extending.leave leave
      simp only at kept
      rw [← kept] at left
      exact (entered.trans left).trans (ihRest left.wellFormed)

/-- A visitor enters a node and takes the scope tree to a later one. -/
structure Visitor.Enters (visitor : Visitor σ) (node : Node) (tree inner : ScopeTree) : Prop where
  wellFormed : tree.WellFormed
  gives : ∃ s s', Gives (visitor.enter node) (tree, s) () (inner, s')
  extended : tree.Extends inner

/-- A property of walks that extend the scope tree, which holds of every walk as it is put together
from the trees that it passes through. -/
structure Walked.Lifts (visitor : Visitor σ) (library : Library)
    (Along : Methods → List Node → ScopeTree → List Event → ScopeTree → Prop) : Prop where
  nil : ∀ {methods tree}, Along methods [] tree [] tree
  declaration : ∀ {methods node nodes tree later after}, node.role = .declaration →
    Along methods nodes tree later after → Along methods (node :: nodes) tree later after
  untaken : ∀ {methods node nodes tree later after}, node.role = .condition →
    Along methods nodes tree later after →
      Along methods (node :: nodes) tree (.decided node tree false :: later) after
  taken : ∀ {methods node nodes tree inner left after trace later}, node.role = .condition →
    visitor.Enters node tree inner → inner.Extends left → left.Extends after →
    Along methods node.children inner trace left → Along methods nodes left later after →
      Along methods (node :: nodes) tree
        (.decided node tree true :: .entered node tree :: (trace ++ later)) after
  block : ∀ {methods node nodes tree inner left after trace later frame},
    node.role = .block frame → tree.WellFormed → visitor.Enters node (tree.opened frame) inner →
    inner.Extends left → (tree.closed left frame).Extends after →
    Along methods node.children inner trace left →
    Along methods nodes (tree.closed left frame) later after →
      Along methods (node :: nodes) tree
        (.entered node (tree.opened frame) :: (trace ++ later)) after
  call : ∀ {methods node nodes tree entry inner left after trace later method},
    node.role = .call → methods.lookup node.target = some method →
    visitor.Enters node tree entry →
    visitor.Enters method (entry.opened (node.bodyFrame node.target)) inner → inner.Extends left →
    (entry.closed left (node.bodyFrame node.target)).Extends after →
    Along methods method.children inner trace left →
    Along methods nodes (entry.closed left (node.bodyFrame node.target)) later after →
      Along methods (node :: nodes) tree
        (.entered node tree :: .entered method (entry.opened (node.bodyFrame node.target)) ::
          (trace ++ later)) after
  source : ∀ {methods node nodes tree entry left after trace later script},
    node.role = .source → library.load node.origin = .ok script → visitor.Enters node tree entry →
    (entry.opened (node.bodyFrame script.identity)).Extends left →
    (entry.closed left (node.bodyFrame script.identity)).Extends after →
    Along (methods.declare script.root) script.root.children
      (entry.opened (node.bodyFrame script.identity)) trace left →
    Along methods nodes (entry.closed left (node.bodyFrame script.identity)) later after →
      Along methods (node :: nodes) tree (.entered node tree :: (trace ++ later)) after

theorem Visitor.Extends.enters (extending : visitor.Extends) {node : Node} {c c' : ScopeTree × σ}
    (enter : Gives (visitor.enter node) c () c') (wf : c.1.WellFormed) :
    visitor.Enters node c.1 c'.1 where
  wellFormed := wf
  gives := ⟨_, _, enter⟩
  extended := extending.enter enter wf

theorem Walked.lift {Along : Methods → List Node → ScopeTree → List Event → ScopeTree → Prop}
    (extending : visitor.Extends) (lifts : Walked.Lifts visitor library Along)
    (walked : Walked visitor library methods list c trace c') (wf : c.1.WellFormed) :
    Along methods list c.1 trace c'.1 := by
  induction walked with
  | nil => exact lifts.nil
  | declaration role _ ih => exact lifts.declaration role (ih wf)
  | untaken role _ _ ih => exact lifts.untaken role (ih wf)
  | taken role _ enter below leave rest ihBelow ihRest =>
      have entered := extending.enters enter wf
      have worked := below.extends extending entered.extended.wellFormed
      have inner := ihBelow entered.extended.wellFormed
      rw [← extending.leave leave] at worked inner
      exact lifts.taken role entered worked (rest.extends extending worked.wellFormed) inner
        (ihRest worked.wellFormed)
  | block role enter below leave rest ihBelow ihRest =>
      have entered := extending.enters enter (wf.opened _)
      have worked := below.extends extending entered.extended.wellFormed
      have inner := ihBelow entered.extended.wellFormed
      rw [← extending.leave leave] at worked inner
      have closed := (entered.extended.trans worked).closed
      exact lifts.block role wf entered worked (rest.extends extending closed.wellFormed) inner
        (ihRest closed.wellFormed)
  | @call _ node _ _ _ _ _ _ _ _ _ _ _ role found enter enterMethod below leaveMethod leave rest
      ihBelow ihRest =>
      have entered := extending.enters enter wf
      have inside := extending.enters enterMethod
        (entered.extended.wellFormed.opened (node.bodyFrame node.target))
      simp only at inside
      have worked := below.extends extending inside.extended.wellFormed
      have inner := ihBelow inside.extended.wellFormed
      rw [← extending.leave leaveMethod] at worked inner
      have closed := (inside.extended.trans worked).closed
      have finished := rest.extends extending
      rw [extending.leave leave] at finished ihRest
      exact lifts.call role found entered inside worked (finished closed.wellFormed) inner
        (ihRest closed.wellFormed)
  | @source script node _ _ _ _ _ _ _ _ _ role found enter below leave rest ihBelow ihRest =>
      have entered := extending.enters enter wf
      have opened := entered.extended.wellFormed.opened (node.bodyFrame script.identity)
      have worked := below.extends extending opened
      simp only at worked
      have closed := worked.closed
      have finished := rest.extends extending
      rw [extending.leave leave] at finished ihRest
      exact lifts.source role found entered worked (finished closed.wellFormed) (ihBelow opened)
        (ihRest closed.wellFormed)

/-- A property of a scope tree and of the events so far that the visitor keeps at good nodes and
that goes neither by the open frames nor by how conditions were decided. -/
structure Visitor.Keeps (visitor : Visitor σ) (good : Node → Prop)
    (P : ScopeTree → List Event → Prop) : Prop where
  opened : ∀ {tree past} frame, P tree past → P (tree.opened frame) past
  closed : ∀ {tree past} (outer : ScopeTree) frame, P tree past → P (outer.closed tree frame) past
  decided : ∀ {tree past} node before truth, P tree past →
    P tree (past ++ [.decided node before truth])
  enter : ∀ {node c c' past}, good node → c.1.WellFormed → P c.1 past →
    Gives (visitor.enter node) c () c' → P c'.1 (past ++ [.entered node c.1])

namespace Visitor.Keeps

variable {good : Node → Prop} {P : ScopeTree → List Event → Prop}

/-- Where only good nodes are entered, a walk keeps the property whatever came before it. -/
def Along (good : Node → Prop) (P : ScopeTree → List Event → Prop) (_ : Methods) (_ : List Node)
    (tree : ScopeTree) (trace : List Event) (after : ScopeTree) : Prop :=
  (∀ visit ∈ entries trace, good visit.1) → ∀ past, P tree past → P after (past ++ trace)

theorem entered (keeps : visitor.Keeps good P) {node : Node} {tree inner : ScopeTree}
    {past : List Event} (enters : visitor.Enters node tree inner) (here : good node)
    (holds : P tree past) : P inner (past ++ [.entered node tree]) := by
  obtain ⟨s, s', enter⟩ := enters.gives
  exact keeps.enter here enters.wellFormed holds enter

theorem lifts (keeps : visitor.Keeps good P) : Walked.Lifts visitor library (Along good P) where
  nil := by
    intro _ tree _ past holds
    rwa [List.append_nil]
  declaration _ rest := rest
  untaken := by
    intro _ node _ tree later after _ rest entered_good past holds
    rw [List.append_cons]
    exact rest entered_good _ (keeps.decided _ _ _ holds)
  taken := by
    intro _ node _ tree inner left after trace later _ enters _ _ below rest entered_good past holds
    simp only [entries_decided, entries_entered, entries_append, List.forall_mem_cons,
      List.forall_mem_append] at entered_good
    obtain ⟨here, goodBelow, goodRest⟩ := entered_good
    have holdsHere := keeps.entered enters here (keeps.decided node tree true holds)
    simpa using rest goodRest _ (below goodBelow _ holdsHere)
  block := by
    intro _ node _ tree inner left after trace later frame _ _ enters _ _ below rest entered_good
      past holds
    simp only [entries_entered, entries_append, List.forall_mem_cons, List.forall_mem_append]
      at entered_good
    obtain ⟨here, goodBelow, goodRest⟩ := entered_good
    have holdsHere := keeps.entered enters here (keeps.opened frame holds)
    simpa using rest goodRest _ (keeps.closed _ frame (below goodBelow _ holdsHere))
  call := by
    intro _ node _ tree entry inner left after trace later method _ _ enters entersMethod _ _ below
      rest entered_good past holds
    simp only [entries_entered, entries_append, List.forall_mem_cons, List.forall_mem_append]
      at entered_good
    obtain ⟨here, hereMethod, goodBelow, goodRest⟩ := entered_good
    have holdsHere := keeps.opened (node.bodyFrame node.target) (keeps.entered enters here holds)
    have holdsBelow := below goodBelow _ (keeps.entered entersMethod hereMethod holdsHere)
    simpa using rest goodRest _ (keeps.closed _ (node.bodyFrame node.target) holdsBelow)
  source := by
    intro _ node _ tree entry left after trace later script _ _ enters _ _ below rest entered_good
      past holds
    simp only [entries_entered, entries_append, List.forall_mem_cons, List.forall_mem_append]
      at entered_good
    obtain ⟨here, goodBelow, goodRest⟩ := entered_good
    have holdsHere := keeps.opened (node.bodyFrame script.identity)
      (keeps.entered enters here holds)
    have holdsBelow := below goodBelow _ holdsHere
    simpa using rest goodRest _ (keeps.closed _ (node.bodyFrame script.identity) holdsBelow)

end Visitor.Keeps

theorem Walked.keeps {good : Node → Prop} {P : ScopeTree → List Event → Prop}
    (extending : visitor.Extends) (keeps : visitor.Keeps good P)
    (walked : Walked visitor library methods list c trace c') (wf : c.1.WellFormed)
    (entered_good : ∀ visit ∈ entries trace, good visit.1) {past : List Event}
    (holds : P c.1 past) : P c'.1 (past ++ trace) :=
  walked.lift extending keeps.lifts wf entered_good past holds

end Archetype
