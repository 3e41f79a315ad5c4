import Archetype.Expression.Evaluation
import Archetype.Scope.Path
import Archetype.Scope.Tree

/-!
Looking scopes up by path. A name is searched below a scope level by level, where steps and
invocations are looked through; the first name of a path is searched below the current scope, then
below each scope around it in turn.
-/

namespace Archetype.ScopeTree

/-- The first accepted scope below the given ones, level by level and from left to right. The first
argument bounds the number of levels. -/
def searchLevels (tree : ScopeTree) (accept : ScopeId → Bool) : Nat → List ScopeId → Option ScopeId
  | 0, _ => none
  | _, [] => none
  | n + 1, level =>
      let below := level.flatMap fun id => (tree.node id).children
      match below.find? accept with
      | some id => some id
      | none =>
          tree.searchLevels accept n (below.filter fun id => (tree.node id).frame.isTransparent)

def findBelow? (tree : ScopeTree) (accept : ScopeId → Bool) (start : ScopeId) (name : String) :
    Option ScopeId :=
  tree.searchLevels (fun id => (tree.node id).name = name && accept id) tree.size [start]

/-- The nearest accepted scope of that name below a scope or below one of those around it. -/
def findUpward? (tree : ScopeTree) (accept : ScopeId → Bool) (start : ScopeId) (name : String) :
    Option ScopeId :=
  (tree.ancestry start).findSome? fun id => tree.findBelow? accept id name

def any (_ : ScopeId) : Bool := true

/-- Follows the segments of a path. Until a path is anchored, by its first segment, a name is
searched upward as well. -/
def follow? (tree : ScopeTree) (anchored : Bool) (here : ScopeId) :
    List ScopePath.Segment → Option ScopeId
  | [] => some here
  | .root :: rest => tree.follow? true root rest
  | .parent :: rest => (tree.node here).parent.bind fun parent => tree.follow? true parent rest
  | .name name :: rest =>
      (if anchored then tree.findBelow? any here name else tree.findUpward? any here name).bind
        fun id => tree.follow? true id rest

def resolveFrom? (tree : ScopeTree) (start : ScopeId) (path : String) : Option ScopeId :=
  tree.follow? false start (ScopePath.segments path)

def resolve? (tree : ScopeTree) (path : String) : Option ScopeId :=
  tree.resolveFrom? tree.current path

/-- Follows the segments of a path and creates what is missing on the way. Above the root is the
root. -/
def reach (tree : ScopeTree) (anchored : Bool) (here : ScopeId) :
    List ScopePath.Segment → ScopeId × ScopeTree
  | [] => (here, tree)
  | .root :: rest => tree.reach true root rest
  | .parent :: rest => tree.reach true ((tree.node here).parent.getD here) rest
  | .name name :: rest =>
      match if anchored then tree.findBelow? any here name else tree.findUpward? any here name with
      | some id => tree.reach true id rest
      | none =>
          let (id, tree) := tree.ensureChild here name .value
          tree.reach true id rest

/-- The scope at a path, with whatever part of the path is missing created. A first name that is
found nowhere is created in the current scope. -/
def scope (tree : ScopeTree) (path : String) : ScopeId × ScopeTree :=
  tree.reach false tree.current (ScopePath.segments path)

def bind (tree : ScopeTree) (path : String) (value : Value) (origin : Origin) :
    ScopeId × ScopeTree :=
  let (id, tree) := tree.scope path
  (id, tree.bindAt id value origin)

def get (tree : ScopeTree) (path : String) : Except RunError Value :=
  match (tree.resolve? path).bind fun id => (tree.node id).value? with
  | some v => .ok v
  | none => .error (.unresolvedVariable path)

def getD (tree : ScopeTree) (path : String) (fallback : Value) : Value :=
  ((tree.resolve? path).bind fun id => (tree.node id).value?).getD fallback

/-- The variables that expressions and templates see: the values in effect, and null for an input
that was skipped. A scope that holds nothing is reported by its full path. -/
def lookup (tree : ScopeTree) : Variables := fun path =>
  match tree.resolve? path with
  | none => .error (.unresolvedVariable path)
  | some id =>
      match (tree.node id).value? with
      | some v => .ok v
      | none =>
          if (tree.node id).skipped then .ok .null
          else .error (.unresolvedVariable (tree.path id))

/-- The nearest scope of that name with a preset, searched from around an input upward; the input
itself does not count. -/
def findPreset? (tree : ScopeTree) (input : ScopeId) (name : String) : Option ScopeId :=
  (tree.node input).parent.bind fun parent =>
    tree.findUpward? (fun id => id ≠ input && (tree.node id).hasPreset) parent name

/-- The inputs that were visited but are neither bound nor skipped, in creation order. -/
def unresolved (tree : ScopeTree) : List ScopeId :=
  (List.range tree.size).filter fun id =>
    let node := tree.node id
    node.frame = .input && node.visited && !node.isBound && !node.skipped

/-- Fails if a visited input is neither bound nor skipped. -/
def requireResolved (tree : ScopeTree) : Except RunError Unit :=
  match tree.unresolved with
  | [] => .ok ()
  | ids => .error (.incomplete (ids.map tree.path))

end Archetype.ScopeTree
