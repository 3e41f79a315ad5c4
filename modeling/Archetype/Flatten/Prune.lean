import Archetype.Script.Builder

/-!
Pruning removes nodes that nothing is left below, until none is. A method that is left without
children goes together with every call to it, which may empty the blocks around the calls in turn.
-/

namespace Archetype

def Node.liveMethods (root : Node) : List String :=
  (root.methods.filter (!·.children.isEmpty)).filterMap (·.name?)

/-- Is a node empty, or does it call a method that is not live? -/
def Node.isDead (live : List String) (node : Node) : Bool :=
  node.isPrunableIfEmpty ||
    (node.kind = .invokeCall && !(node.name?.any (· ∈ live)))

namespace Prune

mutual
/-- The node without the dead nodes below it; `none` if there are none. -/
def node (live : List String) : Node → Fresh NodeError (Option Node)
  | ⟨_, d, _, children⟩ => do
      match ← nodes live children with
      | none => return none
      | some kept => return some (← d.build kept)

/-- The nodes that are not dead, without the dead nodes below them; `none` if all stay as they
are. -/
def nodes (live : List String) : List Node → Fresh NodeError (Option (List Node))
  | [] => return none
  | first :: rest => do
      if first.isDead live then
        let kept ← nodes live rest
        return some (kept.getD rest)
      else
        let pruned ← node live first
        let kept ← nodes live rest
        if pruned.isNone && kept.isNone then return none
        return some (pruned.getD first :: kept.getD rest)
end

def rounds : Nat → Node → Fresh NodeError Node
  | 0, root => return root
  | n + 1, root => do
      match ← node root.liveMethods root with
      | none => return root
      | some pruned => rounds n pruned

end Prune

/-- The tree without dead nodes. Every round removes a node, so their number is enough rounds. -/
def Node.prune (root : Node) : Fresh NodeError Node :=
  Prune.rounds root.preorder.length root

end Archetype
