import Archetype.Proofs.Scope.Growth
import Archetype.Proofs.Walk.Lifting
import Archetype.Proofs.Walk.Outcome
import Archetype.Proofs.Walk.Table

/-!
Walks are balanced. Whatever fails on the way, a walk leaves the frames that it opened and puts the
table of methods back after each script that it sourced; each node is left in the scope and with the
table that it was entered with, the latest that is still open first.
-/

namespace Archetype

structure Site where
  node : Node
  scope : ScopeId
  methods : Methods

inductive Call where
  | enter (site : Site)
  | leave (site : Site)

/-- Calls that nest, with the sites that are open before and after them, the innermost first. -/
inductive Nests : List Site → List Call → List Site → Prop
  | nil : Nests stack [] stack
  | enter (rest : Nests (site :: stack) calls left) : Nests stack (.enter site :: calls) left
  | leave (rest : Nests stack calls left) : Nests (site :: stack) (.leave site :: calls) left

theorem Nests.append {stack between left : List Site} {calls more : List Call}
    (first : Nests stack calls between) (second : Nests between more left) :
    Nests stack (calls ++ more) left := by
  induction first with
  | nil => exact second
  | enter _ ih => exact .enter (ih second)
  | leave _ ih => exact .leave (ih second)

/-- Work of a visitor in a walker with a table, with a record of the calls. -/
abbrev Recording (σ : Type) := Visit ((σ × List Call) × Methods)

def Visit.recorded (call : Site → Call) (node : Node) (work : Visit σ Unit) : Recording σ Unit :=
  fun (tree, (s, calls), methods) =>
    (work (tree, s)).map fun (result, tree', s') =>
      (result, tree', (s', calls ++ [call ⟨node, tree.current, methods⟩]), methods)

def Visitor.recording (visitor : Visitor σ) : Visitor ((σ × List Call) × Methods) where
  enter node := (visitor.enter node).recorded .enter node
  leave node := (visitor.leave node).recorded .leave node

structure Visitor.KeepsFrames (visitor : Visitor σ) : Prop where
  enter : ∀ {node c result c'}, visitor.enter node c = some (result, c') →
    c'.1.frames = c.1.frames
  leave : ∀ {node c result c'}, visitor.leave node c = some (result, c') →
    c'.1.frames = c.1.frames

/-- Outcomes of plain and of recorded work from the same tree: the frames and the table are as
before, and the calls nest and are all closed, unless the work fails. -/
inductive BalancedOutcome (methods : Methods) (tree : ScopeTree) (calls : List Call) :
    Option (Except RunError Unit × (ScopeTree × σ)) →
      Option (Except RunError Unit × (ScopeTree × (σ × List Call) × Methods)) → Prop
  | outOfBounds : BalancedOutcome methods tree calls none none
  | ok {tree' : ScopeTree} {s : σ} {made : List Call} (frames : tree'.frames = tree.frames)
      (nests : ∀ stack, Nests stack made stack) :
      BalancedOutcome methods tree calls (some (.ok (), (tree', s)))
        (some (.ok (), (tree', (s, calls ++ made), methods)))
  | error {tree' : ScopeTree} {s : σ} {made : List Call} {error : RunError} (left : List Site)
      (frames : tree'.frames = tree.frames) (nests : ∀ stack, Nests stack made (left ++ stack)) :
      BalancedOutcome methods tree calls (some (.error error, (tree', s)))
        (some (.error error, (tree', (s, calls ++ made), methods)))

def Balanced (methods : Methods) (work : Visit σ Unit) (recorded : Recording σ Unit) : Prop :=
  ∀ tree s calls,
    BalancedOutcome methods tree calls (work (tree, s)) (recorded (tree, (s, calls), methods))

variable {methods : Methods} {work : Visit σ Unit} {recorded : Recording σ Unit}

namespace Balanced

theorem pure : Balanced methods (Pure.pure () : Visit σ Unit) (Pure.pure ()) := by
  intro tree s calls
  have unchanged : BalancedOutcome methods tree calls (some (.ok (), (tree, s)))
      (some (.ok (), (tree, (s, calls ++ []), methods))) := .ok rfl fun _ => .nil
  rwa [List.append_nil] at unchanged

theorem throw (error : RunError) :
    Balanced methods (MonadExcept.throw error : Visit σ Unit) (MonadExcept.throw error) := by
  intro tree s calls
  have unchanged : BalancedOutcome methods tree calls (some (.error error, (tree, s)))
      (some (.error error, (tree, (s, calls ++ []), methods))) :=
    .error [] rfl fun _ => .nil
  rwa [List.append_nil] at unchanged

theorem bind {next : Visit σ Unit} {next' : Recording σ Unit}
    (first : Balanced methods work recorded) (rest : Balanced methods next next') :
    Balanced methods (work >>= fun _ => next) (recorded >>= fun _ => next') := by
  intro tree s calls
  have outcome := first tree s calls
  rw [Visit.bind_eq, Visit.bind_eq]
  generalize work (tree, s) = plain at outcome ⊢
  generalize recorded (tree, (s, calls), methods) = noted at outcome ⊢
  cases outcome with
  | outOfBounds => exact .outOfBounds
  | error left frames nests => exact .error left frames nests
  | @ok tree' s' made frames nests =>
      have further := rest tree' s' (calls ++ made)
      simp only [Option.bind_some]
      generalize next (tree', s') = plain at further ⊢
      generalize next' (tree', (s', calls ++ made), methods) = noted at further ⊢
      cases further with
      | outOfBounds => exact .outOfBounds
      | ok frames' nests' =>
          rw [List.append_assoc]
          exact .ok (frames'.trans frames) fun stack => (nests stack).append (nests' stack)
      | error left frames' nests' =>
          rw [List.append_assoc]
          exact .error left (frames'.trans frames) fun stack => (nests stack).append (nests' stack)

theorem within {name : String} {frame : FrameKind} (inner : Balanced methods work recorded) :
    Balanced methods (Visit.within name frame work) (Visit.within name frame recorded) := by
  intro tree s calls
  have outcome := inner (tree.push name frame).2 s calls
  rw [Visit.within_eq, Visit.within_eq]
  simp only
  generalize work ((tree.push name frame).2, s) = plain at outcome ⊢
  generalize recorded ((tree.push name frame).2, (s, calls), methods) = noted at outcome ⊢
  cases outcome with
  | outOfBounds => exact .outOfBounds
  -- The work leaves the frames open that it started in, and the new one is the innermost of them.
  | ok frames nests => exact .ok (ScopeTree.frames_leaveTo_of_push frames) nests
  | error left frames nests =>
      exact .error left (ScopeTree.frames_leaveTo_of_push frames) nests

theorem inFrame {frame : Option (String × FrameKind)} (inner : Balanced methods work recorded) :
    Balanced methods (Visit.inFrame frame work) (Visit.inFrame frame recorded) := by
  cases frame with
  | none => exact inner
  | some frame => exact inner.within

theorem declaring {root : Node} (inner : Balanced (methods.declare root) work recorded) :
    Balanced methods work (Walker.declaring root recorded) := by
  intro tree s calls
  have outcome := inner tree s calls
  rw [Walker.declaring_eq]
  generalize work (tree, s) = plain at outcome ⊢
  generalize recorded (tree, (s, calls), methods.declare root) = noted at outcome ⊢
  cases outcome with
  | outOfBounds => exact .outOfBounds
  | ok frames nests => exact .ok frames nests
  | error left frames nests => exact .error left frames nests

/-- A node that is entered is left in the same scope and with the same table, once everything that
was entered inside is left. -/
theorem around {visitor : Visitor σ} (keeps : visitor.KeepsFrames) (node : Node)
    (inner : Balanced methods work recorded) :
    Balanced methods (Walk.around visitor node work)
      (Walk.around visitor.recording node recorded) := by
  intro tree s calls
  let site : Site := ⟨node, tree.current, methods⟩
  have enter : visitor.recording.enter node (tree, (s, calls), methods) =
      (visitor.enter node (tree, s)).map fun (result, tree', s') =>
        (result, tree', (s', calls ++ [.enter site]), methods) := rfl
  unfold Walk.around
  rw [Visit.bind_eq, Visit.bind_eq, enter]
  cases entered : visitor.enter node (tree, s) with
  | none => exact .outOfBounds
  | some pair =>
      obtain ⟨result, tree₁, s₁⟩ := pair
      have frames₁ : tree₁.frames = tree.frames := keeps.enter entered
      cases result with
      | error error =>
          -- The node is open, as the visitor was called for it.
          exact .error [site] frames₁ fun stack => .enter .nil
      | ok =>
          simp only [Option.map_some, Option.bind_some]
          have outcome := inner tree₁ s₁ (calls ++ [.enter site])
          rw [Visit.bind_eq, Visit.bind_eq]
          generalize work (tree₁, s₁) = plain at outcome ⊢
          generalize recorded (tree₁, (s₁, calls ++ [.enter site]), methods) = noted at outcome ⊢
          cases outcome with
          | outOfBounds => exact .outOfBounds
          | error left frames nests =>
              rw [List.append_assoc]
              -- What was left open inside lies above the node.
              refine .error (left ++ [site]) (frames.trans frames₁) fun stack => ?_
              have inside := nests (site :: stack)
              rw [List.append_cons] at inside
              exact .enter inside
          | @ok tree₂ s₂ made frames nests =>
              -- The frames are as they were, so the node is left in the scope it was entered in.
              have frames₂ := frames.trans frames₁
              have same : (⟨node, tree₂.current, methods⟩ : Site) = site := by
                simp only [site, ScopeTree.current, frames₂]
              have leave : visitor.recording.leave node
                    (tree₂, (s₂, calls ++ [.enter site] ++ made), methods) =
                  (visitor.leave node (tree₂, s₂)).map fun (result, tree', s') =>
                    (result, tree', (s', calls ++ [.enter site] ++ made ++
                      [.leave ⟨node, tree₂.current, methods⟩]), methods) := rfl
              rw [same] at leave
              have closes : ∀ stack, Nests stack ([.enter site] ++ (made ++ [.leave site])) stack :=
                fun stack => .enter ((nests (site :: stack)).append (.leave .nil))
              simp only [Option.bind_some]
              rw [leave, List.append_assoc, List.append_assoc]
              cases left : visitor.leave node (tree₂, s₂) with
              | none => exact .outOfBounds
              | some pair =>
                  obtain ⟨result, tree₃, s₃⟩ := pair
                  have frames₃ : tree₃.frames = tree.frames := (keeps.leave left).trans frames₂
                  cases result with
                  | error error => exact .error [] frames₃ closes
                  | ok => exact .ok frames₃ closes

theorem condition (node : Node) (inner : Balanced methods work recorded) :
    Balanced methods (do if ← Walk.holds node then work)
      (do if ← Walk.holds node then recorded) := by
  intro tree s calls
  exact Visit.condition_alike node rfl (fun error => throw error tree s calls) (pure tree s calls)
    (inner tree s calls)

variable {visitor : Visitor σ} {library : Library}

theorem lifts (keeps : visitor.KeepsFrames) : Walk.Lifts visitor library
    (fun limit methods node work => Balanced methods work
      (Walker.node visitor.recording library (Walker.bodies visitor.recording library limit) node))
    (fun limit methods list work =>
      Balanced methods work (Walker.bodies visitor.recording library limit list)) where
  outOfBounds _ _ _ := .outOfBounds
  nil := pure
  cons := bind
  declaration role := by
    rw [Walker.node_eq, role]
    exact pure
  condition {_ _ node _} role below := by
    rw [Walker.node_eq, role]
    exact condition node (around keeps node below)
  block {_ _ node _ _} role below := by
    rw [Walker.node_eq, role]
    exact inFrame (around keeps node below)
  unresolved {_ _ node} role found := by
    intro tree s calls
    simp only [Walker.node_eq, role, Walker.call_eq, found]
    exact throw _ tree s calls
  call {_ _ node method _} role found body := by
    intro tree s calls
    simp only [Walker.node_eq, role, Walker.call_eq, found]
    exact around keeps node (within (around keeps method body)) tree s calls
  unloaded role loaded := by
    simp only [Walker.node_eq, role, Walker.source, loaded]
    exact throw _
  source {_ _ node _ _} role loaded body := by
    simp only [Walker.node_eq, role, Walker.source, loaded]
    exact around keeps node (declaring (within body))

theorem walk (keeps : visitor.KeepsFrames) (library : Library) (limit : Nat) (methods : Methods)
    (root : Node) :
    Balanced (methods.declare root) (Archetype.walk visitor library limit methods root)
      (Walker.node visitor.recording library (Walker.bodies visitor.recording library limit)
        root) :=
  (lifts keeps).walk limit methods root

end Balanced

/-- Whether a walk succeeds or fails, it leaves the open frames as they were. A walker with a table
walks alike; it puts the table back, and its calls of the visitor nest, each leaving the latest node
that is still open, in the same scope and with the same table; if the walk succeeds, no node is left
open. -/
theorem walk_balanced {visitor : Visitor σ} (keeps : visitor.KeepsFrames) {library : Library}
    {limit : Nat} {methods : Methods} {root : Node} {tree tree' : ScopeTree} {s s' : σ}
    {result : Except RunError Unit}
    (walks : walk visitor library limit methods root (tree, s) = some (result, (tree', s'))) :
    tree'.frames = tree.frames ∧
      ∃ calls left,
        Walker.walk visitor.recording library limit root (tree, (s, []), methods) =
          some (result, (tree', (s', calls), methods.declare root)) ∧
        Nests [] calls left ∧ (result = .ok () → left = []) := by
  have outcome := Balanced.walk keeps library limit methods root tree s []
  have declared : Walker.walk visitor.recording library limit root (tree, (s, []), methods) =
      Walker.node visitor.recording library (Walker.bodies visitor.recording library limit) root
        (tree, (s, []), methods.declare root) := rfl
  rw [walks] at outcome
  rw [declared]
  generalize Walker.node visitor.recording library _ root _ = noted at outcome ⊢
  cases outcome with
  | @ok _ _ made frames nests =>
      exact ⟨frames, made, [], rfl, nests [], fun _ => rfl⟩
  | @error _ _ made error left frames nests =>
      have nests := nests []
      rw [List.append_nil] at nests
      exact ⟨frames, made, left, rfl, nests, nofun⟩

def Visitor.refusing (name : String) : Visitor Unit where
  enter node := if node.name? = some name then throw (.output name) else pure ()

theorem Visitor.keepsFrames_refusing (name : String) : (Visitor.refusing name).KeepsFrames where
  enter {node c result c'} entered := by
    have refuses : (Visitor.refusing name).enter node =
        if node.name? = some name then throw (.output name) else pure () := rfl
    rw [refuses] at entered
    split at entered <;> (cases entered; rfl)
  leave left := by
    cases left
    rfl

/-! A step that sources a script, which calls a method of its own with a step inside. -/

def steppingScript : Script where
  identity := "b"
  root :=
    let inner : Node := ⟨⟨1⟩, ⟨.step, .ofList [("name", .string "inner")], none⟩, none, []⟩
    let method : Node := ⟨⟨2⟩, ⟨.method, .ofList [("name", .string "m")], none⟩, none, [inner]⟩
    let call : Node := ⟨⟨3⟩, ⟨.invokeCall, .ofList [("name", .string "m")], none⟩, none, []⟩
    ⟨⟨4⟩, ⟨.script, .empty, none⟩, none, [method, call]⟩

def outerScript : Script where
  identity := "a"
  root :=
    let source : Node := ⟨⟨5⟩, ⟨.invokeSource, .ofList [("src", .string "b")], none⟩, none, []⟩
    let outer : Node := ⟨⟨6⟩, ⟨.step, .ofList [("name", .string "outer")], none⟩, none, [source]⟩
    ⟨⟨7⟩, ⟨.script, .empty, none⟩, none, [outer]⟩

/-- A failure six nodes deep leaves the step that the walk started in. -/
theorem walk_balanced_of_refusal :
    let tree := (ScopeTree.push {} "start" .step).2
    ∃ tree', walk (.refusing "inner") (.ofScripts [steppingScript]) 5 [] outerScript.root
        (tree, ()) = some (.error (.output "inner"), (tree', ())) ∧
      tree'.frames = tree.frames ∧ tree'.size = 6 := by
  intro tree
  have fails : (walk (.refusing "inner") (.ofScripts [steppingScript]) 5 [] outerScript.root
      (tree, ())).any fun (result, tree', _) => decide (tree'.size = 6) &&
        match result with
        | .ok _ => false
        | .error error => decide (error = .output "inner") := by
    decide +kernel
  cases walks : walk (.refusing "inner") (.ofScripts [steppingScript]) 5 [] outerScript.root
      (tree, ()) with
  | none => simp [walks] at fails
  | some pair =>
      obtain ⟨result, tree', _⟩ := pair
      cases result with
      | ok => simp [walks] at fails
      | error error =>
          have refused : tree'.size = 6 ∧ error = .output "inner" := by simpa [walks] using fails
          obtain ⟨size, rfl⟩ := refused
          obtain ⟨frames, -⟩ := walk_balanced (Visitor.keepsFrames_refusing "inner") walks
          exact ⟨tree', rfl, frames, size⟩

end Archetype
