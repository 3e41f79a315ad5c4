import Archetype.Bounded
import Archetype.Input.Request
import Archetype.Scope.Tree

/-!
Resolvers decide the value of an input that has neither an external value nor a preset.
-/

namespace Archetype

inductive Resolution where
  | value (v : Value)
  | useDefault
  | skip
  | unresolved
  deriving DecidableEq

/-- A way of resolving inputs, with a state from one request to the next. -/
abbrev Resolver (ρ : Type) := InputRequest → ScopeTree → Bounded ρ Resolution

/-- What an unattended run does: it keeps a default, skips an optional input, and leaves any other
unresolved. -/
def InputRequest.unattended (request : InputRequest) : Resolution :=
  if request.default.isSome then .useDefault
  else if request.optional then .skip
  else .unresolved

def Resolver.batch : Resolver ρ := fun request _ => pure request.unattended

end Archetype
