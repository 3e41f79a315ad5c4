import Archetype.Proofs.Walk.Outcome

/-!
A walker with one table of methods, which it changes in place: it adds the methods of a script
before it walks it, and puts the table back afterwards.
-/

namespace Archetype

namespace Walker

def table : Visit (σ × Methods) Methods := do return (← Visit.state).2

/-- Does the work with the methods of a script in the table as well. The table is put back on every
way out. -/
def declaring (root : Node) (work : Visit (σ × Methods) Unit) : Visit (σ × Methods) Unit :=
  fun (tree, s, saved) => do
    let (result, (tree, s, _)) ← work (tree, s, saved.declare root)
    return (result, (tree, s, saved))

theorem declaring_eq (root : Node) (work : Visit (σ × Methods) Unit) (tree : ScopeTree) (s : σ)
    (methods : Methods) :
    declaring root work (tree, s, methods) =
      (work (tree, s, methods.declare root)).bind fun (result, tree', s', _) =>
        some (result, (tree', s', methods)) := rfl

variable (visitor : Visitor (σ × Methods)) (library : Library)

def call (body : List Node → Visit (σ × Methods) Unit) (node : Node) :
    Visit (σ × Methods) Unit := do
  match (← table).lookup node.target with
  | none => throw (.unresolvedInvocation node.target)
  | some method =>
      Walk.around visitor node <|
        Visit.within (invocationFrame node.target node.id) .invocation <|
          Walk.around visitor method (body method.children)

theorem call_eq (body : List Node → Visit (σ × Methods) Unit) (node : Node) (tree : ScopeTree)
    (s : σ) (methods : Methods) :
    call visitor body node (tree, s, methods) =
      (match methods.lookup node.target with
        | none => throw (.unresolvedInvocation node.target)
        | some method =>
            Walk.around visitor node <|
              Visit.within (invocationFrame node.target node.id) .invocation <|
                Walk.around visitor method (body method.children) :
        Visit (σ × Methods) Unit) (tree, s, methods) := by
  have found : (table : Visit (σ × Methods) Methods) (tree, s, methods) =
      some (.ok methods, (tree, s, methods)) := rfl
  unfold call
  rw [Visit.bind_eq, found]
  rfl

def source (body : List Node → Visit (σ × Methods) Unit) (node : Node) :
    Visit (σ × Methods) Unit := do
  match library.load node.origin with
  | .error error => throw error
  | .ok script =>
      Walk.around visitor node <|
        declaring script.root <|
          Visit.within (invocationFrame script.identity node.id) .invocation <|
            body script.root.children

mutual
def node (body : List Node → Visit (σ × Methods) Unit) : Node → Visit (σ × Methods) Unit
  | ⟨id, d, e, children⟩ =>
      let this : Node := ⟨id, d, e, children⟩
      match this.role with
      | .declaration => pure ()
      | .condition => do
          if ← Walk.holds this then Walk.around visitor this (nodes body children)
      | .call => call visitor body this
      | .source => source visitor library body this
      | .block frame => Visit.inFrame frame (Walk.around visitor this (nodes body children))

def nodes (body : List Node → Visit (σ × Methods) Unit) : List Node → Visit (σ × Methods) Unit
  | [] => pure ()
  | first :: rest => do
      node body first
      nodes body rest
end

theorem node_eq (body : List Node → Visit (σ × Methods) Unit) (this : Node) :
    node visitor library body this =
      match this.role with
      | .declaration => pure ()
      | .condition => do
          if ← Walk.holds this then
            Walk.around visitor this (nodes visitor library body this.children)
      | .call => call visitor body this
      | .source => source visitor library body this
      | .block frame =>
          Visit.inFrame frame
            (Walk.around visitor this (nodes visitor library body this.children)) := by
  obtain ⟨id, d, e, children⟩ := this
  rw [node]

def bodies : Nat → List Node → Visit (σ × Methods) Unit
  | 0, _ => Bounded.outOfBounds
  | limit + 1, list => nodes visitor library (bodies limit) list

def walk (limit : Nat) (root : Node) : Visit (σ × Methods) Unit := do
  modify fun (tree, s, methods) => (tree, s, methods.declare root)
  node visitor library (bodies visitor library limit) root

end Walker

end Archetype
