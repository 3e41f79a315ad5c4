import Archetype.Proofs.Walk.Lifting
import Archetype.Proofs.Walk.Outcome

/-!
Traces of walks. A walk that ends without an error decides conditions and enters nodes in some
order; the trace keeps this order together with the scope tree at each point.
-/

namespace Archetype

inductive Event where
  | decided (node : Node) (tree : ScopeTree) (holds : Bool)
  | entered (node : Node) (tree : ScopeTree)

def Event.entry? : Event → Option (Node × ScopeId)
  | .decided _ _ _ => none
  | .entered node tree => some (node, tree.current)

def entries (trace : List Event) : List (Node × ScopeId) := trace.filterMap Event.entry?

@[simp] theorem entries_nil : entries [] = [] := rfl

@[simp] theorem entries_decided (node : Node) (tree : ScopeTree) (holds : Bool)
    (trace : List Event) : entries (.decided node tree holds :: trace) = entries trace := rfl

@[simp] theorem entries_entered (node : Node) (tree : ScopeTree) (trace : List Event) :
    entries (.entered node tree :: trace) = (node, tree.current) :: entries trace := rfl

@[simp] theorem entries_append (first second : List Event) :
    entries (first ++ second) = entries first ++ entries second :=
  List.filterMap_append ..

namespace ScopeTree

def opened (tree : ScopeTree) : Option (String × FrameKind) → ScopeTree
  | none => tree
  | some (name, frame) => (tree.push name frame).2

def closed (tree inner : ScopeTree) : Option (String × FrameKind) → ScopeTree
  | none => inner
  | some _ => inner.leaveTo tree.frames.length

end ScopeTree

/-- The frame of what a node invokes under some name. -/
def Node.bodyFrame (node : Node) (target : String) : Option (String × FrameKind) :=
  some (invocationFrame target node.id, .invocation)

namespace Visit

theorem gives_inFrame {frame : Option (String × FrameKind)} {work : Visit σ Unit}
    {c c' : ScopeTree × σ} :
    Gives (inFrame frame work) c () c' ↔
      ∃ inner, Gives work (c.1.opened frame, c.2) () inner ∧
        c' = (c.1.closed inner.1 frame, inner.2) := by
  cases frame with
  | none =>
      constructor
      · intro gives
        exact ⟨c', gives, rfl⟩
      · rintro ⟨inner, gives, rfl⟩
        exact gives
  | some frame => exact gives_within

theorem gives_around {visitor : Visitor σ} {node : Node} {work : Visit σ Unit}
    {c c' : ScopeTree × σ} :
    Gives (Walk.around visitor node work) c () c' ↔
      ∃ entered worked, Gives (visitor.enter node) c () entered ∧ Gives work entered () worked ∧
        Gives (visitor.leave node) worked () c' := by
  unfold Walk.around
  simp only [gives_bind]
  constructor
  · rintro ⟨_, entered, enter, _, worked, work, leave⟩
    exact ⟨entered, worked, enter, work, leave⟩
  · rintro ⟨entered, worked, enter, work, leave⟩
    exact ⟨(), entered, enter, (), worked, work, leave⟩

end Visit

open Visit (Gives gives_bind gives_pure gives_inFrame gives_around gives_within gives_holds)

/-- A walk of nodes that ends without an error, from a scope tree and a state of the visitor to
others, with its trace. -/
inductive Walked (visitor : Visitor σ) (library : Library) :
    Methods → List Node → ScopeTree × σ → List Event → ScopeTree × σ → Prop
  | nil : Walked visitor library methods [] c [] c
  | declaration (role : node.role = .declaration)
      (rest : Walked visitor library methods nodes c later c') :
      Walked visitor library methods (node :: nodes) c later c'
  | untaken (role : node.role = .condition) (holds : node.holdsIn c.1 = .ok false)
      (rest : Walked visitor library methods nodes c later c') :
      Walked visitor library methods (node :: nodes) c (.decided node c.1 false :: later) c'
  | taken (role : node.role = .condition) (holds : node.holdsIn c.1 = .ok true)
      (enter : Gives (visitor.enter node) c () entered)
      (below : Walked visitor library methods node.children entered trace worked)
      (leave : Gives (visitor.leave node) worked () left)
      (rest : Walked visitor library methods nodes left later c') :
      Walked visitor library methods (node :: nodes) c
        (.decided node c.1 true :: .entered node c.1 :: (trace ++ later)) c'
  | block (role : node.role = .block frame)
      (enter : Gives (visitor.enter node) (c.1.opened frame, c.2) () entered)
      (below : Walked visitor library methods node.children entered trace worked)
      (leave : Gives (visitor.leave node) worked () left)
      (rest : Walked visitor library methods nodes (c.1.closed left.1 frame, left.2) later c') :
      Walked visitor library methods (node :: nodes) c
        (.entered node (c.1.opened frame) :: (trace ++ later)) c'
  | call (role : node.role = .call) (found : methods.lookup node.target = some method)
      (enter : Gives (visitor.enter node) c () entered)
      (enterMethod : Gives (visitor.enter method)
        (entered.1.opened (node.bodyFrame node.target), entered.2) () inside)
      (below : Walked visitor library methods method.children inside trace worked)
      (leaveMethod : Gives (visitor.leave method) worked () outside)
      (leave : Gives (visitor.leave node)
        (entered.1.closed outside.1 (node.bodyFrame node.target), outside.2) () left)
      (rest : Walked visitor library methods nodes left later c') :
      Walked visitor library methods (node :: nodes) c
        (.entered node c.1 ::
          .entered method (entered.1.opened (node.bodyFrame node.target)) :: (trace ++ later)) c'
  | source (role : node.role = .source) (found : library.load node.origin = .ok script)
      (enter : Gives (visitor.enter node) c () entered)
      (below : Walked visitor library (methods.declare script.root) script.root.children
        (entered.1.opened (node.bodyFrame script.identity), entered.2) trace worked)
      (leave : Gives (visitor.leave node)
        (entered.1.closed worked.1 (node.bodyFrame script.identity), worked.2) () left)
      (rest : Walked visitor library methods nodes left later c') :
      Walked visitor library methods (node :: nodes) c
        (.entered node c.1 :: (trace ++ later)) c'

variable {visitor : Visitor σ} {library : Library}

/-! The walk of a first node by its role. -/

theorem Walked.of_condition (role : node.role = .condition)
    (walked : Walked visitor library methods (node :: nodes) c trace c') :
    (∃ later, node.holdsIn c.1 = .ok false ∧ trace = .decided node c.1 false :: later ∧
      Walked visitor library methods nodes c later c') ∨
    ∃ entered inner worked left later, node.holdsIn c.1 = .ok true ∧
      trace = .decided node c.1 true :: .entered node c.1 :: (inner ++ later) ∧
      Gives (visitor.enter node) c () entered ∧
      Walked visitor library methods node.children entered inner worked ∧
      Gives (visitor.leave node) worked () left ∧
      Walked visitor library methods nodes left later c' := by
  cases walked with
  | untaken _ holds rest => exact .inl ⟨_, holds, rfl, rest⟩
  | taken _ holds enter below leave rest =>
      exact .inr ⟨_, _, _, _, _, holds, rfl, enter, below, leave, rest⟩
  | _ => simp_all

theorem Walked.of_block {frame : Option (String × FrameKind)} (role : node.role = .block frame)
    (walked : Walked visitor library methods (node :: nodes) c trace c') :
    ∃ entered inner worked left later,
      trace = .entered node (c.1.opened frame) :: (inner ++ later) ∧
      Gives (visitor.enter node) (c.1.opened frame, c.2) () entered ∧
      Walked visitor library methods node.children entered inner worked ∧
      Gives (visitor.leave node) worked () left ∧
      Walked visitor library methods nodes (c.1.closed left.1 frame, left.2) later c' := by
  cases walked with
  | block role' enter below leave rest =>
      obtain rfl := Role.block.inj (role.symm.trans role')
      exact ⟨_, _, _, _, _, rfl, enter, below, leave, rest⟩
  | _ => simp_all

theorem Walked.of_nil (walked : Walked visitor library methods [] c trace c') :
    trace = [] ∧ c' = c := by
  cases walked
  exact ⟨rfl, rfl⟩

/-! Every walk that ends without an error has a trace. -/

def WalkedHere (visitor : Visitor σ) (library : Library) (methods : Methods) (node : Node)
    (work : Visit σ Unit) : Prop :=
  ∀ {c between nodes later c'}, Gives work c () between →
    Walked visitor library methods nodes between later c' →
      ∃ trace, Walked visitor library methods (node :: nodes) c trace c'

theorem walked_lifts : Walk.Lifts visitor library
    (fun _ methods node work => WalkedHere visitor library methods node work)
    (fun _ methods list work => ∀ {c c'}, Gives work c () c' →
      ∃ trace, Walked visitor library methods list c trace c') where
  outOfBounds gives := by cases gives
  nil gives := by
    obtain ⟨_, rfl⟩ := gives_pure.1 gives
    exact ⟨[], .nil⟩
  cons first rest := by
    intro c c' gives
    obtain ⟨_, between, gives, gives'⟩ := gives_bind.1 gives
    obtain ⟨later, walked⟩ := rest gives'
    exact first gives walked
  declaration role := by
    intro c between nodes later c' gives rest
    obtain ⟨_, rfl⟩ := gives_pure.1 gives
    exact ⟨later, .declaration role rest⟩
  condition role below := by
    intro c between nodes later c' gives rest
    obtain ⟨holds, decided, decide, work⟩ := gives_bind.1 gives
    obtain ⟨truth, rfl⟩ := gives_holds.1 decide
    cases holds with
    | false =>
        obtain ⟨_, rfl⟩ := gives_pure.1 work
        exact ⟨_, .untaken role truth rest⟩
    | true =>
        obtain ⟨entered, worked, enter, work, leave⟩ := gives_around.1 work
        obtain ⟨trace, work⟩ := below work
        exact ⟨_, .taken role truth enter work leave rest⟩
  block role below := by
    intro c between nodes later c' gives rest
    obtain ⟨left, work, rfl⟩ := gives_inFrame.1 gives
    obtain ⟨entered, worked, enter, work, leave⟩ := gives_around.1 work
    obtain ⟨trace, work⟩ := below work
    exact ⟨_, .block role enter work leave rest⟩
  unresolved _ _ := by
    intro c between nodes later c' gives rest
    exact absurd gives Visit.not_gives_throw
  call role found body := by
    intro c between nodes later c' gives rest
    obtain ⟨entered, _, enter, framed, leave⟩ := gives_around.1 gives
    obtain ⟨outside, visited, rfl⟩ := gives_within.1 framed
    obtain ⟨inside, worked, enterMethod, work, leaveMethod⟩ := gives_around.1 visited
    obtain ⟨trace, below⟩ := body work
    exact ⟨_, .call role found enter enterMethod below leaveMethod leave rest⟩
  unloaded _ _ := by
    intro c between nodes later c' gives rest
    exact absurd gives Visit.not_gives_throw
  source role found body := by
    intro c between nodes later c' gives rest
    obtain ⟨entered, _, enter, framed, leave⟩ := gives_around.1 gives
    obtain ⟨worked, work, rfl⟩ := gives_within.1 framed
    obtain ⟨trace, below⟩ := body work
    exact ⟨_, .source role found enter below leave rest⟩

theorem exists_walked {limit : Nat} {methods : Methods} {root : Node} {c c' : ScopeTree × σ}
    (gives : Gives (walk visitor library limit methods root) c () c') :
    ∃ trace, Walked visitor library (methods.declare root) [root] c trace c' :=
  walked_lifts.walk limit methods root gives .nil

end Archetype
