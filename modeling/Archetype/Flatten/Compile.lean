import Archetype.Flatten.Prune
import Archetype.Flatten.Rebuild

/-!
Compiling a script: the calls between scripts are flattened into one tree that needs no library.
-/

namespace Archetype

structure CompileOptions where
  /-- Replace method names by numbers and drop what names the sources. -/
  obfuscate : Bool := false
  /-- Let a body that is invoked once take the place of its invocation. -/
  inlineSingleUse : Bool := true
  deriving DecidableEq

def Declaration.anonymous (d : Declaration) : Declaration where
  kind := d.kind
  attributes := if d.kind = .script then d.attributes.erase "name" else d.attributes

mutual
def Node.anonymize : Node → Fresh NodeError Node
  | ⟨_, d, _, children⟩ => do d.anonymous.build (← Node.anonymizeAll children)

def Node.anonymizeAll : List Node → Fresh NodeError (List Node)
  | [] => return []
  | node :: rest => do
      let node ← node.anonymize
      let rest ← Node.anonymizeAll rest
      return node :: rest
end

def finishTree (options : CompileOptions) (root : Declaration) (children : List Node) :
    Fresh NodeError Node := do
  let rebuilt ← root.build children
  let pruned ← rebuilt.prune
  if options.obfuscate then pruned.anonymize else return pruned

/-- Flattens a script into a tree without invocations of scripts. Nodes that the filter rejects are
dropped with everything below them. -/
def compile (options : CompileOptions) (filter : Node → Bool) (library : Library)
    (script : Script) : Fresh CompileError Node := fun next => do
  let table ← CallTable.ofScript library filter options.obfuscate script
  let (children, next) ← Rebuild.script table filter options.inlineSingleUse script next
  (finishTree options script.root.declaration children next).mapError .construction

end Archetype
