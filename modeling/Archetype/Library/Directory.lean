import Archetype.Library
import Archetype.Text.Fields

/-!
Libraries of documents in a directory. A script is sourced by the path of its document from the
base directory, with or without its extension; each document is read once, whatever the names it is
sourced under.
-/

namespace Archetype

structure Directory where
  base : String
  read : String → Option (Except FileFailure String)

namespace Directory

def identity (src : String) : String :=
  .ofList (Text.dropEndings ".json".toList (Text.dropOpenings "./".toList src.toList))

/-- A path seen from a directory. An absolute path stays as it is. -/
def join (base path : String) : String :=
  if base = "" || path.startsWith "/" then path
  else if base.endsWith "/" then base ++ path
  else base ++ "/" ++ path

def documentPath (directory : Directory) (identity : String) : String :=
  join directory.base (identity ++ ".json")

def sources (root : Node) : List String :=
  (root.preorder.filter (·.kind = .invokeSource)).filterMap (·.declaration.src?)

/-- The script that a source names, or why there is none; fails with the path of its document if
nothing is known of that file. A script that the library has under another name is taken as it
is. -/
def load (directory : Directory) (library : Library) (src : String) :
    Fresh String (Except RunError Script) := fun next =>
  let identity := identity src
  match library.scripts.find? (·.identity = identity) with
  | some script => .ok (.ok script, next)
  | none =>
      let path := directory.documentPath identity
      match directory.read path with
      | none => .error path
      | some (.error failure) => .ok (.error (.unreadable src path failure), next)
      | some (.ok text) =>
          match Script.ofText identity text next with
          | .ok (script, next) => .ok (.ok script, next)
          | .error error => .ok (.error (.document error), next)

def addAll (directory : Directory) (library : Library) : List String → Fresh String Library
  | [] => return library
  | src :: rest => do
      if (library.entries.lookup src).isSome then addAll directory library rest
      else
        let result ← directory.load library src
        addAll directory ⟨library.entries ++ [(src, result)]⟩ rest

/-- Adds sources to a library, and then what the scripts in it source, at most so many times in a
row. -/
def complete (directory : Directory) : Nat → List String → Library → Fresh String Library
  | 0, _, library => return library
  | n + 1, srcs, library => do
      let library ← directory.addAll library srcs
      let missing := (library.scripts.flatMap fun script => sources script.root).filter fun src =>
        (library.entries.lookup src).isNone
      if missing.isEmpty then return library
      complete directory n missing library

/-- The library of everything that can be reached from some sources, given the number of documents
in the directory. -/
def library (directory : Directory) (documents : Nat) (srcs : List String) :
    Fresh String Library :=
  directory.complete (documents + 2) srcs .empty

end Directory

end Archetype
