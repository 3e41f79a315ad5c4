import Archetype.Files.Failure
import Archetype.Text.Fields

/-!
A tree of files held in memory. Directories are there as long as something is below them. Relative
paths start at the home of the tree and absolute ones at its top. Points and empty names in a path
stay where they are and two points go up, at the top to the top itself, and every name on the way
must be a directory.
-/

namespace Archetype

/-- Files by the names on the way to them from the top. The home is a directory even when nothing
is in it. -/
structure FileTree where
  home : List String := []
  files : List (List String × List UInt8) := []

namespace FileTree

/-- What is at a place in the tree. -/
inductive Place where
  | file (bytes : List UInt8)
  | directory
  | nothing

def place (tree : FileTree) (names : List String) : Place :=
  match tree.files.lookup names with
  | some bytes => .file bytes
  | none =>
      if names.isPrefixOf tree.home ∨ tree.files.any fun file => names.isPrefixOf file.1 then
        .directory
      else .nothing

def longestName : Nat := 255

def longestPath : Nat := 4095

/-- Follows names from a place. What is at the end is not looked at. -/
def follow (tree : FileTree) (here : List String) : List String → Except FileFailure (List String)
  | [] => .ok here
  | name :: rest =>
      match tree.place here with
      | .file _ => .error .notDirectory
      | .nothing => .error .notFound
      | .directory =>
          if name = "" ∨ name = "." then tree.follow here rest
          else if name = ".." then tree.follow here.dropLast rest
          else if longestName < name.utf8ByteSize then .error .nameTooLong
          else tree.follow (here ++ [name]) rest

def start (tree : FileTree) (path : String) : Except FileFailure (List String × List String) :=
  let names := (Text.fields '/' path.toList).map String.ofList
  if path.toList.contains '\x00' then .error .nulInPath
  else if path = "" then .error .notFound
  else if longestPath < path.utf8ByteSize then .error .nameTooLong
  else if path.startsWith "/" then .ok ([], names)
  else .ok (tree.home, names)

def locate (tree : FileTree) (path : String) : Except FileFailure (List String) := do
  let (here, names) ← tree.start path
  tree.follow here names

def readBytes (tree : FileTree) (path : String) : Except FileFailure (List UInt8) := do
  match tree.place (← tree.locate path) with
  | .file bytes => .ok bytes
  | .directory => .error .isDirectory
  | .nothing => .error .notFound

def readText (tree : FileTree) (path : String) : Except FileFailure String := do
  let bytes ← tree.readBytes path
  match String.fromUTF8? ⟨bytes.toArray⟩ with
  | some text => .ok text
  | none => .error .notText

/-- The place that a path leads to for writing. A path that ends in a separator names a directory,
whether it is there or not, if all names before the last are directories. -/
def locateForWriting (tree : FileTree) (path : String) : Except FileFailure (List String) := do
  let (here, names) ← tree.start path
  if path.endsWith "/" then
    let way := (names.reverse.dropWhile (· = "")).tail.reverse
    let _ ← tree.follow here (way ++ [""])
    .error .isDirectory
  else tree.follow here names

def write (tree : FileTree) (path : String) (bytes : List UInt8) : Except FileFailure FileTree := do
  let names ← tree.locateForWriting path
  match tree.place names with
  | .directory => .error .isDirectory
  | _ => .ok { tree with files := (names, bytes) :: tree.files.filter (·.1 ≠ names) }

def insert (tree : FileTree) (path : String) (bytes : List UInt8) : FileTree :=
  let names := (Text.fields '/' path.toList).foldl (fun here name =>
    if name = [] ∨ name = ['.'] then here
    else if name = ['.', '.'] then here.dropLast
    else here ++ [.ofList name]) (if path.startsWith "/" then [] else tree.home)
  { tree with files := (names, bytes) :: tree.files.filter (·.1 ≠ names) }

end FileTree

end Archetype
