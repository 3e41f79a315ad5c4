import Archetype.Error
import Archetype.Script.Document

/-!
Libraries: the scripts that can be sourced, by the names they are sourced under. A name always
gives the same script or the same error.
-/

namespace Archetype

structure Library where
  entries : List (String × Except RunError Script) := []

namespace Library

def empty : Library := {}

def ofScripts (scripts : List Script) : Library :=
  ⟨scripts.map fun script => (script.identity, .ok script)⟩

def load (library : Library) (src : String) : Except RunError Script :=
  match library.entries.lookup src with
  | some result => result
  | none => .error (.unresolvedInvocation src)

def scripts (library : Library) : List Script :=
  library.entries.filterMap fun (_, result) => result.toOption

end Library

end Archetype
