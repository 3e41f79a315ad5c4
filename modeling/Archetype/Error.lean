import Archetype.Files.Failure
import Archetype.Script.Error

/-!
Why a run or a compilation fails. Every cause has one wording.
-/

namespace Archetype

inductive ConfigError where
  | unreadable (path : String) (failure : FileFailure)
  | malformed (fault : Json.Fault)
  | unsupportedValue (path raw : String)
  deriving DecidableEq

def ConfigError.message : ConfigError → String
  | .unreadable path failure => "Could not read '" ++ path ++ "': " ++ failure.message
  | .malformed fault => fault.message
  | .unsupportedValue path raw => "unsupported value for '" ++ path ++ "': " ++ raw

inductive RunError where
  | unresolvedVariable (path : String)
  | unresolvedInvocation (target : String)
  | typeMismatch (expected : ValueType) (found : Value)
  | incomplete (paths : List String)
  | notAnOption (path value : String) (options : List String)
  | unreadable (src path : String) (failure : FileFailure)
  | prompt (message : String)
  | output (message : String)
  | config (error : ConfigError)
  | document (error : DocumentError)
  deriving DecidableEq

def RunError.message : RunError → String
  | .unresolvedVariable path => "Unresolved variable '" ++ path ++ "'"
  | .unresolvedInvocation target => "Unresolved invocation target '" ++ target ++ "'"
  | .typeMismatch expected found =>
      "Type mismatch: expected " ++ expected.name ++ ", but found value '" ++ found.text ++ "'"
  | .incomplete paths => "Run is incomplete, unresolved inputs: " ++ ", ".intercalate paths
  | .notAnOption path value options =>
      "Invalid value for input '" ++ path ++ "': '" ++ value ++ "' is not one of ["
        ++ ", ".intercalate options ++ "]"
  | .unreadable src path failure =>
      "Failed to load script '" ++ src ++ "': could not read '" ++ path ++ "': " ++ failure.message
  | .prompt message => "Prompt failed: " ++ message
  | .output message => "Output rendering failed: " ++ message
  | .config error => "Invalid run configuration: " ++ error.message
  | .document error => error.message

/-- The body that an invocation reaches: a whole script, or a method that a script declares. -/
inductive Callee where
  | script (identity : String)
  | method (owner name : String)
  deriving DecidableEq

def Callee.text : Callee → String
  | .script identity => identity
  | .method owner name => owner ++ "::" ++ name

inductive CompileError where
  | unresolvedInvocation (target script : String)
  | recursiveInvocation (callee : Callee)
  | load (error : RunError)
  | construction (error : NodeError)
  | nestedTooDeeply
  deriving DecidableEq

def CompileError.message : CompileError → String
  | .unresolvedInvocation target script =>
      "Invocation target '" ++ target ++ "' referenced from '" ++ script
        ++ "' was not found during scan"
  | .recursiveInvocation callee => "Script '" ++ callee.text ++ "' invokes itself"
  | .load error => error.message
  | .construction error => error.message
  | .nestedTooDeeply => "Invocations follow each other without end"

inductive GenerationError where
  | compile (error : CompileError)
  | run (error : RunError)
  deriving DecidableEq

def GenerationError.message : GenerationError → String
  | .compile error => error.message
  | .run error => error.message

end Archetype
