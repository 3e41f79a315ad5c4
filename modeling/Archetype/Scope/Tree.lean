import Archetype.Script.Kind

/-!
The scope tree of a run. Scopes are numbered in creation order, the root first; a scope is created
when a frame enters it or a value is bound at its path, and it stays where it is from then on. The
open frames form a stack that leads from the root to the current scope.
-/

namespace Archetype

/-- Where a bound value came from, in increasing precedence. -/
inductive Origin where
  | default
  | preset
  | user
  | external
  deriving DecidableEq

def Origin.label : Origin → String
  | .default => "DEFAULT"
  | .preset => "PRESET"
  | .user => "USER"
  | .external => "EXTERNAL"

def Origin.rank : Origin → Nat
  | .default => 0
  | .preset => 1
  | .user => 2
  | .external => 3

structure Variant where
  origin : Origin
  value : Value
  deriving DecidableEq

abbrev ScopeId := Nat

structure ScopeNode where
  name : String := ""
  parent : Option ScopeId := none
  children : List ScopeId := []
  /-- The children by name. -/
  index : List (String × ScopeId) := []
  frame : FrameKind := .root
  variants : List Variant := []
  /-- The place of the variant in effect. -/
  inEffect : Option Nat := none
  visited : Bool := false
  skipped : Bool := false
  deriving DecidableEq

namespace ScopeNode

def effective? (node : ScopeNode) : Option Variant :=
  node.inEffect.bind fun place => node.variants[place]?

def value? (node : ScopeNode) : Option Value := node.effective?.map (·.value)

def isBound (node : ScopeNode) : Bool := node.inEffect.isSome

def hasPreset (node : ScopeNode) : Bool := node.variants.any (·.origin = .preset)

/-- Adds a variant. It takes effect unless the one in effect has a higher origin. -/
def bind (node : ScopeNode) (v : Variant) : ScopeNode :=
  { node with
    variants := node.variants ++ [v]
    inEffect :=
      if node.effective?.all (·.origin.rank ≤ v.origin.rank) then some node.variants.length
      else node.inEffect
    skipped := false }

end ScopeNode

/-- The scopes by number, and the open frames with the innermost first. The root is always open and
not listed. -/
structure ScopeTree where
  nodes : Array ScopeNode := #[{}]
  frames : List ScopeId := []
  deriving DecidableEq

namespace ScopeTree

def root : ScopeId := 0

def size (tree : ScopeTree) : Nat := tree.nodes.size

def node (tree : ScopeTree) (id : ScopeId) : ScopeNode := tree.nodes.getD id {}

def current (tree : ScopeTree) : ScopeId := tree.frames.headD root

def depth (tree : ScopeTree) : Nat := tree.frames.length + 1

def modify (tree : ScopeTree) (id : ScopeId) (f : ScopeNode → ScopeNode) : ScopeTree :=
  { tree with nodes := tree.nodes.modify id f }

/-- The scope and those around it, the root last. -/
def ancestry (tree : ScopeTree) (id : ScopeId) : List ScopeId :=
  match (tree.node id).parent with
  | none => [id]
  | some parent => if _ : parent < id then id :: tree.ancestry parent else [id]

/-- The names from the root down to a scope, of the scopes around it that are kept. -/
def namesTo (tree : ScopeTree) (keep : ScopeId → Bool) (id : ScopeId) : List String :=
  ((tree.ancestry id).reverse.filter keep).map fun a => (tree.node a).name

/-- The path of a scope: the names of all scopes around it but the root. -/
def path (tree : ScopeTree) (id : ScopeId) : String :=
  ".".intercalate (tree.namesTo (· ≠ root) id)

/-- The path of a scope by the inputs around it alone. -/
def inputPath (tree : ScopeTree) (id : ScopeId) : String :=
  ".".intercalate (tree.namesTo (fun a => (tree.node a).frame = .input) id)

def child? (tree : ScopeTree) (parent : ScopeId) (name : String) : Option ScopeId :=
  (tree.node parent).index.lookup name

/-- The child of that name, created if there is none. A scope that was a plain value takes the kind
of the first block that enters it. -/
def ensureChild (tree : ScopeTree) (parent : ScopeId) (name : String) (frame : FrameKind) :
    ScopeId × ScopeTree :=
  match tree.child? parent name with
  | some id =>
      (id, tree.modify id fun node =>
        { node with frame := if node.frame = .value then frame else node.frame })
  | none =>
      let id := tree.size
      (id, { tree with
        nodes := (tree.nodes.modify parent fun node =>
          { node with children := node.children ++ [id], index := (name, id) :: node.index }).push
            { name, parent := some parent, frame } })

def push (tree : ScopeTree) (name : String) (frame : FrameKind) : ScopeId × ScopeTree :=
  let (id, tree) := tree.ensureChild tree.current name frame
  (id, { tree with frames := id :: tree.frames })

def leaveTo (tree : ScopeTree) (count : Nat) : ScopeTree :=
  { tree with frames := tree.frames.drop (tree.frames.length - count) }

/-- The child of the current scope of that name, created if there is none, without a look-up. -/
def declare (tree : ScopeTree) (name : String) : ScopeId × ScopeTree :=
  tree.ensureChild tree.current name .value

def bindAt (tree : ScopeTree) (id : ScopeId) (value : Value) (origin : Origin) : ScopeTree :=
  tree.modify id (·.bind ⟨origin, value⟩)

def markVisited (tree : ScopeTree) (id : ScopeId) : ScopeTree :=
  tree.modify id fun node => { node with visited := true }

/-- Marks a scope as left unbound on purpose, if it is unbound. -/
def markSkipped (tree : ScopeTree) (id : ScopeId) : ScopeTree :=
  tree.modify id fun node => { node with skipped := node.skipped || !node.isBound }

end ScopeTree

end Archetype
