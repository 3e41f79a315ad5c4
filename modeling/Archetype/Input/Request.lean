import Archetype.Error
import Archetype.Script.Node

/-!
Requests for the value of an input: what a resolver knows about it, and which values it accepts.
-/

namespace Archetype

structure InputOption where
  value : String
  label : Option String
  help : Option String
  deriving DecidableEq

structure InputRequest where
  kind : NodeKind
  name : String
  /-- The path by inputs, which the value is known under outside of scripts. -/
  path : String
  label : Option String
  help : Option String
  /-- The declared default, or the caller's in its place. -/
  default : Option Value
  optional : Bool
  options : List InputOption
  deriving DecidableEq

def InputOption.ofNode (node : Node) : InputOption where
  value := (node.declaration.value?.map Value.text).getD ""
  label := node.declaration.label?
  help := node.declaration.help?

namespace InputRequest

def ofNode (node : Node) (path : String) (default : Option Value) : InputRequest where
  kind := node.kind
  name := node.name?.getD ""
  path := path
  label := node.declaration.label?
  help := node.declaration.help?
  default := default
  optional := node.declaration.isOptional
  options := node.options.map .ofNode

def displayLabel (request : InputRequest) : String :=
  request.label.getD request.name

def hasOption (request : InputRequest) (value : String) : Bool :=
  request.options.any (·.value = value)

def notAnOption (request : InputRequest) (value : String) : RunError :=
  .notAnOption request.path value (request.options.map (·.value))

def chosen (request : InputRequest) : Value → List String
  | .string s => if request.kind = .inputEnum then [s] else []
  | .list items => if request.kind = .inputList then items else []
  | _ => []

/-- Fails for the first chosen string that is not a declared option. -/
def validate (request : InputRequest) (value : Value) : Except RunError Unit :=
  match (request.chosen value).find? fun s => !request.hasOption s with
  | none => .ok ()
  | some s => .error (request.notAnOption s)

end InputRequest

end Archetype
