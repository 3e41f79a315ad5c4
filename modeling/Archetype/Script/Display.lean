import Archetype.Expression.Printer
import Archetype.Script.Node

/-!
The printed form of a script tree: one node a line, children below their parent on branches.
-/

namespace Archetype

def branchMarker (isLast : Bool) : String :=
  if isLast then "└── " else "├── "

def branchIndent (isLast : Bool) : String :=
  if isLast then "    " else "│   "

namespace Node

/-- A condition shows its expression, any other node its attributes by name. -/
def header (node : Node) : String :=
  match node.kind, node.expression with
  | .condition, some e => node.kind.label ++ " " ++ e.text
  | .condition, none => node.kind.label
  | kind, _ =>
      match node.attributes.entries with
      | [] => kind.label
      | entries =>
          kind.label ++ " ["
            ++ " ".intercalate (entries.map fun (name, value) => name ++ "=" ++ value.text) ++ "]"

mutual
def branch (indent : String) (isLast : Bool) : Node → String
  | ⟨id, d, e, children⟩ =>
      indent ++ branchMarker isLast ++ header ⟨id, d, e, children⟩ ++ "\n"
        ++ branches (indent ++ branchIndent isLast) children

def branches (indent : String) : List Node → String
  | [] => ""
  | node :: rest => node.branch indent rest.isEmpty ++ branches indent rest
end

def display (node : Node) : String :=
  node.header ++ "\n" ++ branches "" node.children

end Node

end Archetype
