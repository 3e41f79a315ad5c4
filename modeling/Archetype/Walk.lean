import Archetype.Bounded
import Archetype.Library
import Archetype.Scope.Lookup

/-!
Walking a script depth first. The walk opens and leaves frames, decides conditions and follows
invocations; what happens at a node is left to a visitor. Frames are left on every way out, also
when a visitor fails.
-/

namespace Archetype

/-- What a visitor does: it may look at and change the scope tree and a state of its own, and it
may fail. -/
abbrev Visit (σ : Type) := Bounded (ScopeTree × σ)

namespace Visit

def scope : Visit σ ScopeTree := do return (← get).1

def state : Visit σ σ := do return (← get).2

def setScope (tree : ScopeTree) : Visit σ Unit := modify fun (_, s) => (tree, s)

def setState (s : σ) : Visit σ Unit := modify fun (tree, _) => (tree, s)

def modifyScope (f : ScopeTree → ScopeTree) : Visit σ Unit := modify fun (tree, s) => (f tree, s)

/-- Does the work inside a frame of the current scope and then leaves the frame, together with any
frame that the work left open. -/
def within (name : String) (frame : FrameKind) (work : Visit σ Unit) : Visit σ Unit :=
  fun (tree, s) => do
    let (result, (inner, s)) ← work ((tree.push name frame).2, s)
    return (result, (inner.leaveTo tree.frames.length, s))

end Visit

/-- What a pass does when the walk enters and leaves a node. For a node with a frame the current
scope is the frame. -/
structure Visitor (σ : Type) where
  enter : Node → Visit σ Unit := fun _ => pure ()
  leave : Node → Visit σ Unit := fun _ => pure ()

/-- The methods that can be called, the innermost declarations first. -/
abbrev Methods := List (String × Node)

/-- Adds the methods that a script root declares. Of two under one name the later counts. -/
def Methods.declare (methods : Methods) (root : Node) : Methods :=
  root.methods.foldl
    (fun methods node =>
      match node.name? with
      | some name => (name, node) :: methods
      | none => methods)
    methods

/-- The name of the frame of an invocation: what it invokes and its construction number, so that no
two invocations share a frame. -/
def invocationFrame (target : String) (id : NodeId) : String :=
  ScopePath.sanitize target ++ "#" ++ id.text

namespace Walk

variable (visitor : Visitor σ) (library : Library)

def around (node : Node) (work : Visit σ Unit) : Visit σ Unit := do
  visitor.enter node
  work
  visitor.leave node

def call (body : Methods → List Node → Visit σ Unit) (methods : Methods) (node : Node) :
    Visit σ Unit := do
  let target := node.name?.getD ""
  match methods.lookup target with
  | none => throw (.unresolvedInvocation target)
  | some method =>
      around visitor node <|
        Visit.within (invocationFrame target node.id) .invocation <|
          around visitor method (body methods method.children)

def source (body : Methods → List Node → Visit σ Unit) (methods : Methods) (node : Node) :
    Visit σ Unit := do
  match library.load (node.declaration.src?.getD "") with
  | .error error => throw error
  | .ok script =>
      around visitor node <|
        Visit.within (invocationFrame script.identity node.id) .invocation <|
          body (methods.declare script.root) script.root.children

def holds (node : Node) : Visit σ Bool := do
  match node.expression with
  | none => return false
  | some e => Bounded.ofExcept (e.holds (← Visit.scope).lookup)

mutual
/-- Walks a node; `body` walks the nodes that an invocation leads to. -/
def node (body : Methods → List Node → Visit σ Unit) (methods : Methods) : Node → Visit σ Unit
  | ⟨id, d, e, children⟩ =>
      let this : Node := ⟨id, d, e, children⟩
      match d.kind with
      | .method => pure ()
      | .condition => do
          if ← holds this then around visitor this (nodes body methods children)
      | .invokeCall => call visitor body methods this
      | .invokeSource => source visitor library body methods this
      | kind =>
          match kind.frame?, d.name? with
          | some frame, some name =>
              Visit.within name frame (around visitor this (nodes body methods children))
          | _, _ => around visitor this (nodes body methods children)

def nodes (body : Methods → List Node → Visit σ Unit) (methods : Methods) :
    List Node → Visit σ Unit
  | [] => pure ()
  | first :: rest => do
      node body methods first
      nodes body methods rest
end

def bodies : Nat → Methods → List Node → Visit σ Unit
  | 0, _, _ => Bounded.outOfBounds
  | limit + 1, methods, list => nodes visitor library (bodies limit) methods list

end Walk

/-- Walks a script from its root; gives nothing if more invocations are nested than the limit. -/
def walk (visitor : Visitor σ) (library : Library) (limit : Nat) (methods : Methods)
    (root : Node) : Visit σ Unit :=
  Walk.node visitor library (Walk.bodies visitor library limit) (methods.declare root) root

end Archetype
