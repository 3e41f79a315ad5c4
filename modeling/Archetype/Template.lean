import Archetype.Expression.Evaluation
import Archetype.Value.Text

/-!
Templates: text with references to variables. A reference opens at a dollar sign and a brace and
closes at the first closing brace after that; an opening that nothing closes is plain text.
-/

namespace Archetype.Template

/-- A template is a sequence of literal texts and variable paths. -/
inductive Piece where
  | text (s : List Char)
  | ref (path : String)
  deriving DecidableEq

/-- The first reference of a text: what stands before it, its path as written, and what follows. -/
def nextRef? : List Char → Option (List Char × List Char × List Char)
  | [] => none
  | '$' :: '{' :: rest => (Text.cutFirst? '}' rest).map fun (path, after) => ([], path, after)
  | c :: rest => (nextRef? rest).map fun (before, path, after) => (c :: before, path, after)

theorem length_nextRef? {cs before path after : List Char}
    (h : nextRef? cs = some (before, path, after)) : after.length < cs.length := by
  fun_induction nextRef? cs generalizing before with
  | case1 => simp at h
  | case2 rest =>
      obtain ⟨⟨p, a⟩, hcut, heq⟩ := Option.map_eq_some_iff.1 h
      have := Text.length_cutFirst? hcut
      simp_all; omega
  | case3 c rest _ ih =>
      obtain ⟨⟨b, p, a⟩, hrest, heq⟩ := Option.map_eq_some_iff.1 h
      simp only [Prod.mk.injEq] at heq
      have := ih (by rw [hrest, heq.2.1, heq.2.2])
      simp; omega

def pieces (cs : List Char) : List Piece :=
  match _ : nextRef? cs with
  | none => [.text cs]
  | some (before, path, after) =>
      .text before :: .ref (.ofList (Text.trimmed path)) :: pieces after
termination_by cs.length
decreasing_by exact length_nextRef? (by assumption)

def fill (lookup : Variables) : List Piece → Except RunError (List Char)
  | [] => .ok []
  | .text s :: rest => do
      let filled ← fill lookup rest
      .ok (s ++ filled)
  | .ref path :: rest => do
      let v ← lookup path
      let filled ← fill lookup rest
      .ok (v.plain.toList ++ filled)

/-- A template text with every reference replaced. -/
def interpolate (lookup : Variables) (template : String) : Except RunError String :=
  (fill lookup (pieces template.toList)).map .ofList

end Archetype.Template

namespace Archetype

/-- A string value with its references replaced; other values stay as they are. -/
def Value.interpolate (lookup : Variables) : Value → Except RunError Value
  | .string template => (Template.interpolate lookup template).map .string
  | v => .ok v

end Archetype
