import Archetype.Text.Alphanumeric
import Archetype.Text.Blank

/-!
Scope paths: names between points, anchored at the root by a leading tilde and moving up by two
points. Blanks around names do not count and empty names are skipped.
-/

namespace Archetype.ScopePath

inductive Segment where
  | root
  | parent
  | name (s : String)
  deriving DecidableEq

/-- The segment of a name, if anything is left of it without its blanks. -/
def named (cs : List Char) : List Segment :=
  match Text.trimmed cs with
  | [] => []
  | name => [.name (.ofList name)]

def relative (cs : List Char) : List Segment :=
  match cs with
  | [] => []
  | '.' :: '.' :: rest => .parent :: relative rest
  | '.' :: rest => relative rest
  | c :: rest =>
      named (c :: rest.takeWhile (· ≠ '.')) ++ relative ((rest.dropWhile (· ≠ '.')).drop 1)
termination_by cs.length
decreasing_by
  · simp only [List.length_cons]; omega
  · simp only [List.length_cons]; omega
  · have := (List.dropWhile_suffix (fun x : Char => decide (x ≠ '.')) (l := rest)).length_le
    simp at this ⊢
    omega

/-- The segments of a path. -/
def segments (path : String) : List Segment :=
  match Text.trimmed path.toList with
  | '~' :: '.' :: rest => .root :: relative rest
  | '~' :: rest => .root :: relative rest
  | cs => relative cs

/-- A name without characters that a path could not hold: anything but letters, numbers,
underscores, hyphens and number signs becomes an underscore. -/
def sanitize (name : String) : String :=
  name.map fun c => if Text.isAlphanumeric c || c = '_' || c = '-' || c = '#' then c else '_'

end Archetype.ScopePath
