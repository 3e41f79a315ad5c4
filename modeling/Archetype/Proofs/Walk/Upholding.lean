import Archetype.Proofs.Walk.Lifting
import Archetype.Proofs.Walk.Outcome

/-!
What holds of a whole walk. A property of work that holds of what a visitor does at a node, and that
every way in which a walk puts work together keeps, holds of the walk of any script.
-/

namespace Archetype

/-- A property that holds of the work of the visitor and of all that a walk makes of it. -/
structure Visitor.Upholds (visitor : Visitor σ) (P : Visit σ Unit → Prop) : Prop where
  enter : ∀ node, P (visitor.enter node)
  leave : ∀ node, P (visitor.leave node)
  pure : P (Pure.pure ())
  throw : ∀ error, P (MonadExcept.throw error)
  outOfBounds : P Bounded.outOfBounds
  bind : ∀ {work next : Visit σ Unit}, P work → P next → P (work >>= fun _ => next)
  within : ∀ {work : Visit σ Unit} {frame : FrameKind} (name : String), frame.isBlock = true →
    P work → P (Visit.within name frame work)
  condition : ∀ {work : Visit σ Unit} (node : Node), P work →
    P (do if ← Walk.holds node then work)

namespace Visitor.Upholds

variable {visitor : Visitor σ} {P : Visit σ Unit → Prop} {library : Library}

theorem around (upholds : visitor.Upholds P) (node : Node) {work : Visit σ Unit} (inner : P work) :
    P (Walk.around visitor node work) :=
  upholds.bind (upholds.enter node) (upholds.bind inner (upholds.leave node))

theorem lifts (upholds : visitor.Upholds P) :
    Walk.Lifts visitor library (fun _ _ _ work => P work) (fun _ _ _ work => P work) where
  outOfBounds := upholds.outOfBounds
  nil := upholds.pure
  cons := upholds.bind
  declaration _ := upholds.pure
  condition _ below := upholds.condition _ (upholds.around _ below)
  block {_ _ _ frame _} role below := by
    cases frame with
    | none => exact upholds.around _ below
    | some frame => exact upholds.within _ (Node.isBlock_of_role role) (upholds.around _ below)
  unresolved _ _ := upholds.throw _
  call _ _ body := upholds.around _ (upholds.within _ rfl (upholds.around _ body))
  unloaded _ _ := upholds.throw _
  source _ _ body := upholds.around _ (upholds.within _ rfl body)

theorem walk (upholds : visitor.Upholds P) (library : Library) (limit : Nat) (methods : Methods)
    (root : Node) : P (Archetype.walk visitor library limit methods root) :=
  upholds.lifts.walk limit methods root

end Visitor.Upholds

end Archetype
