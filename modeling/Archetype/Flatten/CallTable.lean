import Archetype.Expression.Folding
import Archetype.Library
import Archetype.Scope.Path

/-!
The call table of a script: every body that its invocations reach, under a name of its own, with
the number of invocations. A body is a sourced script or a declared method; it is scanned when it
is first reached and only counted after that. A body that is reached from inside itself is an
error.
-/

namespace Archetype

/-- A body that invocations share. -/
structure SharedBody where
  callee : Callee
  /-- The name of the method that the body becomes. -/
  canonical : String
  count : Nat
  /-- The script that the body belongs to; its calls reach the methods of that script. -/
  script : Script
  nodes : List Node

/-- The bodies in the order they were first reached, and the identities that sources lead to. -/
structure CallTable where
  bodies : List SharedBody := []
  sources : List (String × String) := []

namespace CallTable

def body? (table : CallTable) (callee : Callee) : Option SharedBody :=
  table.bodies.find? (·.callee = callee)

def identity? (table : CallTable) (src : String) : Option String :=
  table.sources.lookup src

def recount (table : CallTable) (callee : Callee) : CallTable :=
  { table with bodies := table.bodies.map fun body =>
      if body.callee = callee then { body with count := body.count + 1 } else body }

end CallTable

/-- The truth value of a condition that folds to one. -/
def Node.constant? (node : Node) : Option Bool :=
  node.expression.bind Expression.constant?

namespace Scan

/-- The table so far, the methods declared by the scripts scanned so far, and the names taken. -/
structure State where
  table : CallTable := {}
  declared : List ((String × String) × Node) := []
  used : List String := []

end Scan

abbrev Scan := StateT Scan.State (Except CompileError)

namespace Scan

/-- A declared name that is not taken: the name itself, or else with the first number from two on
that makes it free. -/
def freshName (used : List String) (base : String) : String :=
  let candidates := base :: (List.range used.length).map fun i => base ++ "_" ++ toString (i + 2)
  (candidates.find? (· ∉ used)).getD base

/-- The name for a new body: its position in the table if names are hidden, or else one made from
the declared name. -/
def nameBody (hideNames : Bool) (base : String) : Scan String := do
  let state ← get
  if hideNames then return toString state.table.bodies.length
  let name := freshName state.used (ScopePath.sanitize base)
  set { state with used := name :: state.used }
  return name

/-- Notes the methods of a script. Of two under one name the first counts. -/
def declareMethods (script : Script) : Scan Unit :=
  script.root.methods.forM fun method =>
    match method.name? with
    | none => pure ()
    | some name => modify fun state =>
        let key := (script.identity, name)
        match state.declared.lookup key with
        | some _ => state
        | none => { state with declared := (key, method) :: state.declared }

/-- Counts an invocation of a body, and scans the body if it is new. The stack holds the bodies
that are being scanned; `scanNodes` scans nodes of a script inside them. -/
def enter (hideNames : Bool) (stack : List Callee)
    (scanNodes : List Callee → Script → List Node → Scan Unit)
    (callee : Callee) (base : String) (script : Script) (nodes : List Node) : Scan Unit := do
  if callee ∈ stack then throw (.recursiveInvocation callee)
  match (← get).table.body? callee with
  | some _ => modify fun state => { state with table := state.table.recount callee }
  | none =>
      let canonical ← nameBody hideNames base
      modify fun state => { state with
        table := { state.table with
          bodies := state.table.bodies ++ [⟨callee, canonical, 1, script, nodes⟩] } }
      match callee with
      | .script _ => declareMethods script
      | .method _ _ => pure ()
      scanNodes (callee :: stack) script nodes

variable (library : Library) (filter : Node → Bool)

def source (invoke : Callee → String → Script → List Node → Scan Unit) (src : String) :
    Scan Unit := do
  match library.load src with
  | .error error => throw (.load error)
  | .ok target =>
      modify fun state => { state with
        table := { state.table with sources := (src, target.identity) :: state.table.sources } }
      invoke (.script target.identity) target.name target target.root.body

def call (invoke : Callee → String → Script → List Node → Scan Unit) (script : Script)
    (name : String) : Scan Unit := do
  match (← get).declared.lookup (script.identity, name) with
  | none => throw (.unresolvedInvocation name script.identity)
  | some method => invoke (.method script.identity name) name script method.children

mutual
def node (invoke : Callee → String → Script → List Node → Scan Unit) (script : Script) :
    Node → Scan Unit
  | ⟨id, d, e, children⟩ =>
      let this : Node := ⟨id, d, e, children⟩
      if filter this then
        match d.kind with
        | .method => pure ()
        | .invokeSource => source library invoke (d.src?.getD "")
        | .invokeCall => call invoke script (d.name?.getD "")
        | .condition =>
            if this.constant? = some false then pure () else nodes invoke script children
        | _ => nodes invoke script children
      else pure ()

def nodes (invoke : Callee → String → Script → List Node → Scan Unit) (script : Script) :
    List Node → Scan Unit
  | [] => pure ()
  | first :: rest => do
      node invoke script first
      nodes invoke script rest
end

def scanNodes (hideNames : Bool) : Nat → List Callee → Script → List Node → Scan Unit
  | 0, _, _, _ => throw .nestedTooDeeply
  | limit + 1, stack, script, list =>
      nodes library filter (enter hideNames stack (scanNodes hideNames limit)) script list

/-- More nested bodies than there can be: every sourced script and every declared method, and the
root script. -/
def nestingBound (script : Script) : Nat :=
  library.scripts.foldl (fun n s => n + s.root.methods.length + 1) (script.root.methods.length + 2)

end Scan

def CallTable.ofScript (library : Library) (filter : Node → Bool) (hideNames : Bool)
    (script : Script) : Except CompileError CallTable :=
  let scan : Scan Unit := do
    Scan.declareMethods script
    Scan.scanNodes library filter hideNames (Scan.nestingBound library script) [] script
      script.root.children
  (scan.run {}).map fun (_, state) => state.table

end Archetype
