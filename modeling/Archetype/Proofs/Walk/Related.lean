import Archetype.Proofs.Walk.Lifting
import Archetype.Proofs.Walk.Outcome

/-!
Walks side by side. Two visitors that walk the same script do work that is put together in the same
ways, so a relation that each of these ways keeps holds between the two walks.
-/

namespace Archetype

/-- A relation that walks of two visitors keep: it holds for what the visitors do at a node, and
putting related work together gives related work. -/
structure Visitor.Related (visitor : Visitor σ) (other : Visitor τ)
    (R : Visit σ Unit → Visit τ Unit → Prop) : Prop where
  enter : ∀ node, R (visitor.enter node) (other.enter node)
  leave : ∀ node, R (visitor.leave node) (other.leave node)
  pure : R (Pure.pure ()) (Pure.pure ())
  throw : ∀ error, R (MonadExcept.throw error) (MonadExcept.throw error)
  outOfBounds : R Bounded.outOfBounds Bounded.outOfBounds
  bind : ∀ {work next : Visit σ Unit} {work' next' : Visit τ Unit}, R work work' → R next next' →
    R (work >>= fun _ => next) (work' >>= fun _ => next')
  within : ∀ {work : Visit σ Unit} {work' : Visit τ Unit} (name : String) (frame : FrameKind),
    R work work' → R (Visit.within name frame work) (Visit.within name frame work')
  condition : ∀ {work : Visit σ Unit} {work' : Visit τ Unit} (node : Node), R work work' →
    R (do if ← Walk.holds node then work) (do if ← Walk.holds node then work')

namespace Visitor.Related

variable {visitor : Visitor σ} {other : Visitor τ} {R : Visit σ Unit → Visit τ Unit → Prop}
  {library : Library}

theorem around (related : visitor.Related other R) (node : Node) {work : Visit σ Unit}
    {work' : Visit τ Unit} (inner : R work work') :
    R (Walk.around visitor node work) (Walk.around other node work') :=
  related.bind (related.enter node) (related.bind inner (related.leave node))

theorem inFrame (related : visitor.Related other R) {frame : Option (String × FrameKind)}
    {work : Visit σ Unit} {work' : Visit τ Unit} (inner : R work work') :
    R (Visit.inFrame frame work) (Visit.inFrame frame work') := by
  cases frame with
  | none => exact inner
  | some frame => exact related.within frame.1 frame.2 inner

theorem lifts (related : visitor.Related other R) :
    Walk.Lifts visitor library
      (fun limit methods node work =>
        R work (Walk.node other library (Walk.bodies other library limit) methods node))
      (fun limit methods list work => R work (Walk.bodies other library limit methods list)) where
  outOfBounds := related.outOfBounds
  nil := related.pure
  cons := related.bind
  declaration role := by
    rw [Walk.node_eq, role]
    exact related.pure
  condition role below := by
    rw [Walk.node_eq, role]
    exact related.condition _ (related.around _ below)
  block role below := by
    rw [Walk.node_eq, role]
    exact related.inFrame (related.around _ below)
  unresolved role found := by
    simp only [Walk.node_eq, role, Walk.call_eq, found]
    exact related.throw _
  call role found body := by
    simp only [Walk.node_eq, role, Walk.call_eq, found]
    exact related.around _ (related.within _ _ (related.around _ body))
  unloaded role loaded := by
    simp only [Walk.node_eq, role, Walk.source_eq, loaded]
    exact related.throw _
  source role loaded body := by
    simp only [Walk.node_eq, role, Walk.source_eq, loaded]
    exact related.around _ (related.within _ _ body)

theorem walk (related : visitor.Related other R) (library : Library) (limit : Nat)
    (methods : Methods) (root : Node) :
    R (Archetype.walk visitor library limit methods root)
      (Archetype.walk other library limit methods root) :=
  related.lifts.walk limit methods root

end Visitor.Related

end Archetype
