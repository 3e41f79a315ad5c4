import Archetype.Proofs.Walk.Lifting
import Archetype.Proofs.Walk.Methods
import Archetype.Proofs.Walk.Outcome

/-!
The calls that a walk executes, each with the method that it is resolved to and the point of the
walk at which it stands. A walk that notes its calls does what the walk does, also when it fails,
and each call that it notes can be derived from the scripts alone, whatever the conditions are.
-/

namespace Archetype

structure Point where
  methods : Methods
  /-- The script whose nodes are walked. There is none while a call is open that names no method of
  the script that it stands in. -/
  home : Option Script
  /-- The nodes on the way here below the root, the innermost first. -/
  way : List Node

namespace Point

def atRoot (methods : Methods) (script : Script) : Point :=
  ⟨methods.declare script.root, some script, []⟩

def on (point : Point) (node : Node) : Point := { point with way := node :: point.way }

/-- The script that a call stands in, if that script declares a method of the name. -/
def owner? (point : Point) (call : Node) : Option Script :=
  point.home.filter (·.declares call.target)

def called (point : Point) (call : Node) : Point := { point with home := point.owner? call }

def sourced (point : Point) (script : Script) : Point :=
  { point with methods := point.methods.declare script.root, home := some script }

end Point

structure ExecutedCall where
  point : Point
  node : Node
  method : Node

/-- The script that the call stands in, if the call and every call that is open around it since
that script was sourced name methods that the script declares. -/
def ExecutedCall.owner? (call : ExecutedCall) : Option Script := call.point.owner? call.node

/-- A walk of the node from the point may execute the call. -/
inductive Executes (library : Library) : Point → Node → ExecutedCall → Prop
  | call (role : node.role = .call) (found : point.methods.lookup node.target = some method) :
      Executes library point node ⟨point, node, method⟩
  | inside (role : node.role = .condition ∨ ∃ frame, node.role = .block frame)
      (member : child ∈ node.children) (inner : Executes library (point.on child) child call) :
      Executes library point node call
  | called (role : node.role = .call) (found : point.methods.lookup node.target = some method)
      (member : child ∈ method.children)
      (inner : Executes library ((point.called node).on child) child call) :
      Executes library point node call
  | sourced (role : node.role = .source) (loaded : library.load node.origin = .ok script)
      (member : child ∈ script.root.children)
      (inner : Executes library ((point.sourced script).on child) child call) :
      Executes library point node call

def ExecutesAmong (library : Library) (point : Point) (nodes : List Node) (call : ExecutedCall) :
    Prop :=
  ∃ node ∈ nodes, Executes library (point.on node) node call

/-! The walk that notes its calls. -/

def Visit.besideCalls (work : Visit σ α) : Visit (σ × List ExecutedCall) α :=
  fun (tree, s, calls) => (work (tree, s)).map fun (result, tree, s) => (result, tree, s, calls)

def Visit.noteCall (call : ExecutedCall) : Visit (σ × List ExecutedCall) Unit :=
  modify fun (tree, s, calls) => (tree, s, calls ++ [call])

def Visitor.besideCalls (visitor : Visitor σ) : Visitor (σ × List ExecutedCall) where
  enter node := (visitor.enter node).besideCalls
  leave node := (visitor.leave node).besideCalls

namespace CallWalk

variable (visitor : Visitor σ) (library : Library)

def call (body : Point → List Node → Visit (σ × List ExecutedCall) Unit) (point : Point)
    (node : Node) : Visit (σ × List ExecutedCall) Unit := do
  match point.methods.lookup node.target with
  | none => throw (.unresolvedInvocation node.target)
  | some method => do
      Visit.noteCall ⟨point, node, method⟩
      Walk.around visitor.besideCalls node <|
        Visit.within (invocationFrame node.target node.id) .invocation <|
          Walk.around visitor.besideCalls method (body (point.called node) method.children)

def source (body : Point → List Node → Visit (σ × List ExecutedCall) Unit) (point : Point)
    (node : Node) : Visit (σ × List ExecutedCall) Unit := do
  match library.load node.origin with
  | .error error => throw error
  | .ok script =>
      Walk.around visitor.besideCalls node <|
        Visit.within (invocationFrame script.identity node.id) .invocation <|
          body (point.sourced script) script.root.children

mutual
def node (body : Point → List Node → Visit (σ × List ExecutedCall) Unit) (point : Point) :
    Node → Visit (σ × List ExecutedCall) Unit
  | ⟨id, d, e, children⟩ =>
      let this : Node := ⟨id, d, e, children⟩
      match this.role with
      | .declaration => pure ()
      | .condition => do
          if ← Walk.holds this then
            Walk.around visitor.besideCalls this (nodes body point children)
      | .call => call visitor body point this
      | .source => source visitor library body point this
      | .block frame =>
          Visit.inFrame frame (Walk.around visitor.besideCalls this (nodes body point children))

def nodes (body : Point → List Node → Visit (σ × List ExecutedCall) Unit) (point : Point) :
    List Node → Visit (σ × List ExecutedCall) Unit
  | [] => pure ()
  | first :: rest => do
      node body (point.on first) first
      nodes body point rest
end

theorem node_eq (body : Point → List Node → Visit (σ × List ExecutedCall) Unit) (point : Point)
    (this : Node) :
    node visitor library body point this =
      match this.role with
      | .declaration => pure ()
      | .condition => do
          if ← Walk.holds this then
            Walk.around visitor.besideCalls this (nodes visitor library body point this.children)
      | .call => call visitor body point this
      | .source => source visitor library body point this
      | .block frame =>
          Visit.inFrame frame
            (Walk.around visitor.besideCalls this
              (nodes visitor library body point this.children)) := by
  obtain ⟨id, d, e, children⟩ := this
  rw [node]

def bodies : Nat → Point → List Node → Visit (σ × List ExecutedCall) Unit
  | 0, _, _ => Bounded.outOfBounds
  | limit + 1, point, list => nodes visitor library (bodies limit) point list

def walk (limit : Nat) (methods : Methods) (script : Script) :
    Visit (σ × List ExecutedCall) Unit :=
  node visitor library (bodies visitor library limit) (.atRoot methods script) script.root

end CallWalk

/-- Outcomes of plain work and of work that notes calls: all the same but for the notes, and each
call that is added is one of those expected. -/
inductive NotedOutcome (expected : ExecutedCall → Prop) (calls : List ExecutedCall) :
    Option (Except RunError Unit × (ScopeTree × σ)) →
      Option (Except RunError Unit × (ScopeTree × (σ × List ExecutedCall))) → Prop
  | outOfBounds : NotedOutcome expected calls none none
  | ended {tree : ScopeTree} {s : σ} {made : List ExecutedCall} {result : Except RunError Unit}
      (each : ∀ call ∈ made, expected call) :
      NotedOutcome expected calls (some (result, (tree, s)))
        (some (result, (tree, (s, calls ++ made))))

def Notes (expected : ExecutedCall → Prop) (work : Visit σ Unit)
    (noting : Visit (σ × List ExecutedCall) Unit) : Prop :=
  ∀ tree s calls, NotedOutcome expected calls (work (tree, s)) (noting (tree, (s, calls)))

namespace Notes

variable {expected : ExecutedCall → Prop} {work : Visit σ Unit}
  {noting : Visit (σ × List ExecutedCall) Unit}

theorem of_ended {result : Except RunError Unit}
    (plain : ∀ tree s, work (tree, s) = some (result, (tree, s)))
    (noted : ∀ tree s calls, noting (tree, (s, calls)) = some (result, (tree, (s, calls)))) :
    Notes expected work noting := by
  intro tree s calls
  have ended : NotedOutcome expected calls (some (result, (tree, s)))
      (some (result, (tree, (s, calls ++ [])))) := .ended nofun
  rw [List.append_nil] at ended
  rwa [plain, noted]

theorem pure : Notes expected (Pure.pure () : Visit σ Unit) (Pure.pure ()) :=
  of_ended (fun _ _ => rfl) fun _ _ _ => rfl

theorem throw (error : RunError) :
    Notes expected (MonadExcept.throw error : Visit σ Unit) (MonadExcept.throw error) :=
  of_ended (fun _ _ => rfl) fun _ _ _ => rfl

theorem besideCalls (work : Visit σ Unit) : Notes expected work work.besideCalls := by
  intro tree s calls
  have beside : work.besideCalls (tree, (s, calls)) =
      (work (tree, s)).map fun outcome =>
        (outcome.1, outcome.2.1, outcome.2.2, calls) := rfl
  rw [beside]
  cases work (tree, s) with
  | none => exact .outOfBounds
  | some outcome =>
      obtain ⟨result, tree', s'⟩ := outcome
      have ended : NotedOutcome expected calls (some (result, (tree', s')))
          (some (result, (tree', (s', calls ++ [])))) := .ended nofun
      rwa [List.append_nil] at ended

theorem mono {more : ExecutedCall → Prop} (notes : Notes expected work noting)
    (larger : ∀ call, expected call → more call) : Notes more work noting := by
  intro tree s calls
  have outcome := notes tree s calls
  generalize work (tree, s) = plain at outcome ⊢
  generalize noting (tree, (s, calls)) = noted at outcome ⊢
  cases outcome with
  | outOfBounds => exact .outOfBounds
  | ended each => exact .ended fun call member => larger call (each call member)

theorem bind {next : Visit σ Unit} {next' : Visit (σ × List ExecutedCall) Unit}
    (first : Notes expected work noting) (rest : Notes expected next next') :
    Notes expected (work >>= fun _ => next) (noting >>= fun _ => next') := by
  intro tree s calls
  have outcome := first tree s calls
  rw [Visit.bind_eq, Visit.bind_eq]
  generalize work (tree, s) = plain at outcome ⊢
  generalize noting (tree, (s, calls)) = noted at outcome ⊢
  cases outcome with
  | outOfBounds => exact .outOfBounds
  | @ended tree' s' made result each =>
      cases result with
      | error error => exact .ended each
      | ok =>
          simp only [Option.bind_some]
          have further := rest tree' s' (calls ++ made)
          generalize next (tree', s') = plain at further ⊢
          generalize next' (tree', (s', calls ++ made)) = noted at further ⊢
          cases further with
          | outOfBounds => exact .outOfBounds
          | ended each' =>
              rw [List.append_assoc]
              exact .ended (List.forall_mem_append.2 ⟨each, each'⟩)

theorem noteCall {call : ExecutedCall} (here : expected call) (inner : Notes expected work noting) :
    Notes expected work (Visit.noteCall call >>= fun _ => noting) := by
  intro tree s calls
  have added : (Visit.noteCall call >>= fun _ => noting) (tree, (s, calls)) =
      noting (tree, (s, calls ++ [call])) := rfl
  have outcome := inner tree s (calls ++ [call])
  rw [added]
  generalize work (tree, s) = plain at outcome ⊢
  generalize noting (tree, (s, calls ++ [call])) = noted at outcome ⊢
  cases outcome with
  | outOfBounds => exact .outOfBounds
  | ended each =>
      rw [List.append_assoc]
      exact .ended (List.forall_mem_cons.2 ⟨here, each⟩)

theorem within {name : String} {frame : FrameKind} (inner : Notes expected work noting) :
    Notes expected (Visit.within name frame work) (Visit.within name frame noting) := by
  intro tree s calls
  have outcome := inner (tree.push name frame).2 s calls
  rw [Visit.within_eq, Visit.within_eq]
  simp only
  generalize work ((tree.push name frame).2, s) = plain at outcome ⊢
  generalize noting ((tree.push name frame).2, (s, calls)) = noted at outcome ⊢
  cases outcome with
  | outOfBounds => exact .outOfBounds
  | ended each => exact .ended each

theorem inFrame {frame : Option (String × FrameKind)} (inner : Notes expected work noting) :
    Notes expected (Visit.inFrame frame work) (Visit.inFrame frame noting) := by
  cases frame with
  | none => exact inner
  | some frame => exact inner.within

theorem around (visitor : Visitor σ) (node : Node) (inner : Notes expected work noting) :
    Notes expected (Walk.around visitor node work)
      (Walk.around visitor.besideCalls node noting) :=
  bind (besideCalls (visitor.enter node)) (bind inner (besideCalls (visitor.leave node)))

theorem condition (node : Node) (inner : Notes expected work noting) :
    Notes expected (do if ← Walk.holds node then work) (do if ← Walk.holds node then noting) := by
  intro tree s calls
  exact Visit.condition_alike node rfl (fun error => throw error tree s calls) (pure tree s calls)
    (inner tree s calls)

end Notes

namespace Notes

variable {library : Library}

/-- Walks from a point note calls that they may execute. -/
theorem lifts (visitor : Visitor σ) : Walk.Lifts visitor library
    (fun limit methods node work => ∀ point : Point, point.methods = methods →
      Notes (Executes library point node) work
        (CallWalk.node visitor library (CallWalk.bodies visitor library limit) point node))
    (fun limit methods list work => ∀ point : Point, point.methods = methods →
      Notes (ExecutesAmong library point list) work
        (CallWalk.bodies visitor library limit point list)) where
  outOfBounds _ _ _ _ _ := .outOfBounds
  nil _ _ := pure
  cons {_ _ first _ _ _} here later point known := by
    refine bind ((here (point.on first) known).mono fun call executes => ?_)
      ((later point known).mono ?_)
    · exact ⟨first, List.mem_cons_self .., executes⟩
    · rintro call ⟨child, member, executes⟩
      exact ⟨child, List.mem_cons_of_mem _ member, executes⟩
  declaration role point _ := by
    rw [CallWalk.node_eq, role]
    exact pure
  condition {_ _ node _} role below point known := by
    rw [CallWalk.node_eq, role]
    refine condition node (around visitor node ((below point known).mono ?_))
    rintro call ⟨child, member, inner⟩
    exact .inside (.inl role) member inner
  block {_ _ node frame _} role below point known := by
    rw [CallWalk.node_eq, role]
    refine inFrame (around visitor node ((below point known).mono ?_))
    rintro call ⟨child, member, inner⟩
    exact .inside (.inr ⟨frame, role⟩) member inner
  unresolved role found point known := by
    subst known
    simp only [CallWalk.node_eq, role, CallWalk.call, found]
    exact throw _
  call {_ _ node method _} role found body point known := by
    subst known
    simp only [CallWalk.node_eq, role, CallWalk.call, found]
    refine noteCall (.call role found) ?_
    refine around visitor node (within (around visitor method ?_))
    refine (body (point.called node) rfl).mono ?_
    rintro call ⟨child, member, inner⟩
    exact .called role found member inner
  unloaded role loaded point _ := by
    simp only [CallWalk.node_eq, role, CallWalk.source, loaded]
    exact throw _
  source {_ _ node script _} role loaded body point known := by
    subst known
    simp only [CallWalk.node_eq, role, CallWalk.source, loaded]
    refine around visitor node (within ((body (point.sourced script) rfl).mono ?_))
    rintro call ⟨child, member, inner⟩
    exact .sourced role loaded member inner

theorem walk (visitor : Visitor σ) (library : Library) (limit : Nat) (methods : Methods)
    (script : Script) :
    Notes (Executes library (.atRoot methods script) script.root)
      (Archetype.walk visitor library limit methods script.root)
      (CallWalk.walk visitor library limit methods script) :=
  (lifts visitor).walk limit methods script.root (.atRoot methods script) rfl

end Notes

/-- A walk that notes its calls ends as the walk does, also when it fails, and the calls that it
notes are among those that may be executed. -/
theorem exists_calls {visitor : Visitor σ} {library : Library} {limit : Nat} {methods : Methods}
    {script : Script} {tree tree' : ScopeTree} {s s' : σ} {result : Except RunError Unit}
    (walks : walk visitor library limit methods script.root (tree, s) =
      some (result, (tree', s'))) :
    ∃ calls, CallWalk.walk visitor library limit methods script (tree, (s, [])) =
        some (result, (tree', (s', calls))) ∧
      ∀ call ∈ calls, Executes library (.atRoot methods script) script.root call := by
  have outcome := Notes.walk visitor library limit methods script tree s []
  rw [walks] at outcome
  generalize CallWalk.walk visitor library limit methods script (tree, (s, [])) = noted
    at outcome ⊢
  cases outcome with
  | @ended _ _ made _ each => exact ⟨made, rfl, each⟩

end Archetype
