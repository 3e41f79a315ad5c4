import Archetype.Walk

/-!
What the walk makes of a node, read off its kind: a declaration is passed over, a condition is
decided, calls and sources are followed, and every other node is a block, with a frame or without.
-/

namespace Archetype

/-- The kinds of the scopes that blocks and invocations open. -/
def FrameKind.isBlock : FrameKind → Bool
  | .step | .input | .invocation => true
  | .root | .value => false

inductive Role where
  | declaration
  | condition
  | call
  | source
  | block (frame : Option (String × FrameKind))
  deriving DecidableEq

namespace Node

def role (node : Node) : Role :=
  match node.kind with
  | .method => .declaration
  | .condition => .condition
  | .invokeCall => .call
  | .invokeSource => .source
  | kind =>
      match kind.frame?, node.name? with
      | some frame, some name => .block (some (name, frame))
      | _, _ => .block none

def target (node : Node) : String := node.name?.getD ""

def origin (node : Node) : String := node.declaration.src?.getD ""

def holdsIn (node : Node) (tree : ScopeTree) : Except RunError Bool :=
  match node.expression with
  | none => .ok false
  | some e => e.holds tree.lookup

theorem role_eq_condition {node : Node} (role : node.role = .condition) :
    node.kind = .condition := by
  unfold Node.role at role
  split at role
  · cases role
  · assumption
  · cases role
  · cases role
  · split at role <;> cases role

theorem role_eq_call {node : Node} : node.role = .call ↔ node.kind = .invokeCall := by
  unfold Node.role
  cases node.kind <;> simp only [NodeKind.frame?] <;> cases node.name? <;> simp

theorem role_eq_declaration {node : Node} : node.role = .declaration ↔ node.kind = .method := by
  unfold Node.role
  cases node.kind <;> simp only [NodeKind.frame?] <;> cases node.name? <;> simp

theorem role_eq_source {node : Node} : node.role = .source ↔ node.kind = .invokeSource := by
  unfold Node.role
  cases node.kind <;> simp only [NodeKind.frame?] <;> cases node.name? <;> simp

theorem eq_of_role_block {node : Node} {name : String} {frame : FrameKind}
    (role : node.role = .block (some (name, frame))) :
    node.kind.frame? = some frame ∧ node.name? = some name := by
  unfold Node.role at role
  split at role
  · cases role
  · cases role
  · cases role
  · cases role
  · split at role
    · next opened named =>
        cases role
        exact ⟨opened, named⟩
    · cases role

theorem isBlock_of_role {node : Node} {name : String} {frame : FrameKind}
    (role : node.role = .block (some (name, frame))) : frame.isBlock = true := by
  have opens := (eq_of_role_block role).1
  revert opens
  cases node.kind <;> rintro ⟨⟩ <;> rfl

theorem frame_ne_value {node : Node} {name : String} {frame : FrameKind}
    (role : node.role = .block (some (name, frame))) : frame ≠ .value := by
  rintro rfl
  cases isBlock_of_role role

end Node

def Visit.inFrame (frame : Option (String × FrameKind)) (work : Visit σ Unit) : Visit σ Unit :=
  match frame with
  | some (name, frame) => Visit.within name frame work
  | none => work

namespace Walk

variable {visitor : Visitor σ} {library : Library} {body : Methods → List Node → Visit σ Unit}
  {methods : Methods}

theorem holds_eq (node : Node) :
    (holds node : Visit σ Bool) =
      Visit.scope >>= fun tree => Bounded.ofExcept (node.holdsIn tree) := by
  unfold holds Node.holdsIn
  cases node.expression <;> rfl

theorem call_eq (node : Node) :
    call visitor body methods node =
      match methods.lookup node.target with
      | none => throw (.unresolvedInvocation node.target)
      | some method =>
          around visitor node <|
            Visit.within (invocationFrame node.target node.id) .invocation <|
              around visitor method (body methods method.children) := rfl

theorem source_eq (node : Node) :
    source visitor library body methods node =
      match library.load node.origin with
      | .error error => throw error
      | .ok script =>
          around visitor node <|
            Visit.within (invocationFrame script.identity node.id) .invocation <|
              body (methods.declare script.root) script.root.children := rfl

/-- The walk of a node by its role. -/
theorem node_eq (node : Node) :
    Walk.node visitor library body methods node =
      match node.role with
      | .declaration => pure ()
      | .condition => do
          if ← holds node then
            around visitor node (nodes visitor library body methods node.children)
      | .call => call visitor body methods node
      | .source => source visitor library body methods node
      | .block frame =>
          Visit.inFrame frame
            (around visitor node (nodes visitor library body methods node.children)) := by
  obtain ⟨id, d, e, children⟩ := node
  unfold Walk.node Node.role
  simp only [Node.kind, Node.name?]
  cases d.kind <;> cases d.name? <;> rfl

end Walk

end Archetype
