import Archetype.Scope.Tree
import Archetype.Script.Display

/-!
The printed form of a scope tree: one scope a line with its value in effect, and below it every
value bound to it if there are several.
-/

namespace Archetype.ScopeTree

def header (node : ScopeNode) : String :=
  node.name ++ " (" ++ node.frame.name ++ ")" ++
    match node.value? with
    | some v => " = " ++ v.text
    | none => if node.skipped then " <skipped>" else ""

def variantLines (indent : String) (node : ScopeNode) : String :=
  if node.variants.length ≤ 1 then ""
  else "".intercalate (node.variants.map fun v =>
    indent ++ "  " ++ v.origin.label ++ ": " ++ v.value.text ++ "\n")

def siblings (lines : Bool → ScopeId → String) : List ScopeId → String
  | [] => ""
  | id :: rest => lines rest.isEmpty id ++ siblings lines rest

/-- The lines of a scope and everything below it. The first argument bounds the nesting. -/
def branch (tree : ScopeTree) : Nat → String → Bool → ScopeId → String
  | 0, _, _, _ => ""
  | n + 1, indent, isLast, id =>
      let node := tree.node id
      let below := indent ++ branchIndent isLast
      indent ++ branchMarker isLast ++ header node ++ "\n" ++ variantLines below node
        ++ siblings (tree.branch n below) node.children

def display (tree : ScopeTree) : String :=
  "<root>\n" ++ siblings (tree.branch tree.size "") (tree.node root).children

end Archetype.ScopeTree
