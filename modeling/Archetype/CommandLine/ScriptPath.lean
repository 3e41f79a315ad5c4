import Archetype.Text.Fields

/-!
The two parts of a script path: the directory that its sources are loaded from, and its identity,
which is the file name without the last extension.
-/

namespace Archetype.ScriptFile

/-- The path without separators and single points at its end. A point at its beginning stays. -/
def trimEnd : Nat → List Char → List Char
  | 0, reversed => reversed
  | n + 1, reversed =>
      match reversed with
      | '/' :: c :: rest => trimEnd n (c :: rest)
      | '.' :: '/' :: rest => trimEnd n ('/' :: rest)
      | reversed => reversed

/-- The part before the last name of a path, and the last name. Separators and points at the end of
either do not count. -/
def splitLast (path : String) : List Char × List Char :=
  let reversed := trimEnd path.length path.toList.reverse
  let name := reversed.takeWhile (· ≠ '/')
  let rest := reversed.dropWhile (· ≠ '/')
  ((trimEnd rest.length rest).reverse, name.reverse)

def directory (path : String) : String :=
  .ofList (splitLast path).1

def identity? (path : String) : Option String :=
  match (splitLast path).2 with
  | [] => none
  | ['.'] => none
  | ['.', '.'] => none
  | name =>
      match Text.cutLast? '.' name with
      | some (c :: stem, _) => some (.ofList (c :: stem))
      | _ => some (.ofList name)

end Archetype.ScriptFile
