import Archetype.Expression.Printer
import Archetype.Flatten.CallTable

/-!
Rebuilding a scanned script without its invocations of scripts. Rejected nodes are left out,
conditions that always hold give way to what is below them, and every other invocation becomes a
call by canonical name; each body that is called becomes one method. A body that is invoked once
takes the place of its invocation instead, if that changes no scope.
-/

namespace Archetype

/-- Does a node bind nothing in the scope it is walked in? Everything it binds is then below a
scope of its own. -/
def Node.bindsNothing : Node → Bool
  | ⟨_, d, _, children⟩ =>
      match d.kind with
      | .inputText | .inputBoolean | .inputEnum | .inputList | .preset | .var => false
      | .script | .condition => allBindNothing children
      | _ => true
where
  allBindNothing : List Node → Bool
    | [] => true
    | node :: rest => node.bindsNothing && allBindNothing rest

def SharedBody.isInlinable (body : SharedBody) : Bool :=
  body.nodes.all (·.bindsNothing)

mutual
/-- The names of the frames that a node opens in the scope it is walked in. -/
def Node.frameNames : Node → List String
  | ⟨_, d, _, children⟩ =>
      match d.kind with
      | .condition => Node.allFrameNames children
      | .method => []
      | kind => if kind.frame?.isSome then d.name?.toList else []

def Node.allFrameNames : List Node → List String
  | [] => []
  | node :: rest => node.frameNames ++ Node.allFrameNames rest
end

namespace Rebuild

/-- The next construction number, the methods so far by name (a method is there before its body
is), and the names of the frames in the scope of the nodes at hand. -/
structure State where
  next : NodeId
  methods : List (String × Option Node) := []
  taken : List String := []

end Rebuild

abbrev Rebuild := StateT Rebuild.State (Except CompileError)

namespace Rebuild

def build (d : Declaration) (children : List Node) : Rebuild Node := fun state =>
  match d.build children state.next with
  | .ok (node, next) => .ok (node, { state with next })
  | .error error => .error (.construction error)

def inScope (nodes : List Node) (work : Rebuild (List Node)) : Rebuild (List Node) := do
  let outer := (← get).taken
  modify fun state => { state with taken := Node.allFrameNames nodes }
  let rebuilt ← work
  modify fun state => { state with taken := outer }
  return rebuilt

/-- Reserves the names of frames in the scope at hand, unless one of them is taken. -/
def reserve (names : List String) : Rebuild Bool := do
  let state ← get
  if names.any (· ∈ state.taken) then return false
  set { state with taken := names ++ state.taken }
  return true

variable (table : CallTable) (filter : Node → Bool) (inlineSingleUse : Bool)

/-- Puts the method of a shared body among the methods, unless it is there. -/
def emit (rebuildNodes : Script → List Node → Rebuild (List Node)) (body : SharedBody) :
    Rebuild Unit := do
  if ((← get).methods.lookup body.canonical).isSome then return
  modify fun state => { state with methods := state.methods ++ [(body.canonical, none)] }
  let children ← inScope body.nodes (rebuildNodes body.script body.nodes)
  let method ← build
    { kind := .method, attributes := .ofList [("name", .string body.canonical)] } children
  modify fun state => { state with
    methods := state.methods.map fun (name, slot) =>
      if name = body.canonical then (name, some method) else (name, slot) }

def invoke (rebuildNodes : Script → List Node → Rebuild (List Node)) (location : Option Location)
    (target : String) (script : Script) (callee : Callee) : Rebuild (List Node) := do
  match table.body? callee with
  | none => throw (.unresolvedInvocation target script.identity)
  | some body =>
      let inlined ←
        if inlineSingleUse && body.count = 1 && body.isInlinable then
          reserve (Node.allFrameNames body.nodes)
        else pure false
      if inlined then rebuildNodes body.script body.nodes
      else
        emit rebuildNodes body
        let attributes := .ofList [("name", .string body.canonical)]
        return [← build { kind := .invokeCall, attributes, location } []]

/-- The declaration of a condition with its expression folded; unchanged if folding changes
nothing. -/
def foldedDeclaration (d : Declaration) (expression : Option Expression) : Declaration :=
  match expression with
  | none => d
  | some e =>
      if e.fold = e then d
      else { d with attributes := d.attributes.insert "expression" (.string e.fold.text) }

mutual
def node (rebuildNodes : Script → List Node → Rebuild (List Node)) (script : Script) :
    Node → Rebuild (List Node)
  | ⟨id, d, e, children⟩ =>
      let this : Node := ⟨id, d, e, children⟩
      if filter this then
        match d.kind with
        | .method => pure []
        | .condition =>
            match this.constant? with
            | some true => nodes rebuildNodes script children
            | some false => pure []
            | none => do
                let children ← nodes rebuildNodes script children
                return [← build (foldedDeclaration d e) children]
        | .invokeSource =>
            let src := d.src?.getD ""
            match table.identity? src with
            | none => throw (.unresolvedInvocation src script.identity)
            | some identity =>
                invoke table inlineSingleUse rebuildNodes d.location src script (.script identity)
        | .invokeCall =>
            let name := d.name?.getD ""
            invoke table inlineSingleUse rebuildNodes d.location name script
              (.method script.identity name)
        | kind => do
            let rebuilt ←
              if kind.frame?.isSome then inScope children (nodes rebuildNodes script children)
              else nodes rebuildNodes script children
            if kind.takesOptions && !rebuilt.any (·.kind = .option) then return []
            return [← build d rebuilt]
      else pure []

def nodes (rebuildNodes : Script → List Node → Rebuild (List Node)) (script : Script) :
    List Node → Rebuild (List Node)
  | [] => pure []
  | first :: rest => do
      let rebuilt ← node rebuildNodes script first
      let more ← nodes rebuildNodes script rest
      return rebuilt ++ more
end

def rebuildNodes : Nat → Script → List Node → Rebuild (List Node)
  | 0, _, _ => throw .nestedTooDeeply
  | limit + 1, script, list =>
      nodes table filter inlineSingleUse (rebuildNodes limit) script list

def script (script : Script) (next : NodeId) : Except CompileError (List Node × NodeId) := do
  let (body, state) ← (inScope script.root.body
    (rebuildNodes table filter inlineSingleUse (table.bodies.length + 1) script
      script.root.body)).run { next }
  return (state.methods.filterMap (·.2) ++ body, state.next)

end Rebuild

end Archetype
