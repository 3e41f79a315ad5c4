import Archetype.Expression.Token
import Archetype.Text.Blank
import Archetype.Text.Fields

/-!
Cutting expression text into tokens. Between tokens only spaces, tabs and line ends are skipped;
each token takes the longest text that spells it. A text with a part that spells no token has no
tokens at all, and the fault is the place where that part begins.
-/

namespace Archetype.Expression

def isSeparator (c : Char) : Bool :=
  c = ' ' || c = '\t' || c = '\r' || c = '\n'

/-- Reads to the closing quote. A backslash stands for the character after it, which may be
anything but a line feed. -/
def quoted? (close : Char) : List Char → Option (List Char × List Char)
  | [] => none
  | '\\' :: c :: rest =>
      if c = '\n' then none else (quoted? close rest).map fun (s, rest) => (c :: s, rest)
  | c :: rest =>
      if c = close then some ([], rest)
      else (quoted? close rest).map fun (s, rest) => (c :: s, rest)

def integer? (cs : List Char) : Option (Int64 × List Char) :=
  match cs with
  | '-' :: rest =>
      (Text.readInt64? ('-' :: rest.takeWhile Char.isDigit)).map (·, rest.dropWhile Char.isDigit)
  | cs => (Text.readInt64? (cs.takeWhile Char.isDigit)).map (·, cs.dropWhile Char.isDigit)

def Token.fixed? (cs : List Char) : Option (Token × List Char) :=
  Token.fixed.findSome? fun (word, t) => (Text.dropOpening? word.toList cs).map (t, ·)

def Token.read? (cs : List Char) : Option (Token × List Char) :=
  match Token.fixed? cs with
  | some found => some found
  | none =>
      match cs with
      | '$' :: '{' :: rest =>
          (Text.cutFirst? '}' rest).map fun (path, rest) =>
            (.var (.ofList (Text.trimmed path)), rest)
      | '\'' :: rest => (quoted? '\'' rest).map fun (s, rest) => (.string (.ofList s), rest)
      | '"' :: rest => (quoted? '"' rest).map fun (s, rest) => (.string (.ofList s), rest)
      | cs => (integer? cs).map fun (i, rest) => (.int i, rest)

theorem length_quoted? {close : Char} {cs s rest : List Char}
    (h : quoted? close cs = some (s, rest)) : rest.length < cs.length := by
  fun_induction quoted? close cs generalizing s rest with
  | case1 => simp at h
  | case2 => simp at h
  | case3 c tail _ ih =>
      obtain ⟨⟨s', rest'⟩, htail, heq⟩ := Option.map_eq_some_iff.1 h
      have := ih htail
      simp_all
      omega
  | case4 => simp_all
  | case5 c tail _ _ ih =>
      obtain ⟨⟨s', rest'⟩, htail, heq⟩ := Option.map_eq_some_iff.1 h
      have := ih htail
      simp_all
      omega

theorem length_fixed? {cs rest : List Char} {t : Token}
    (h : Token.fixed? cs = some (t, rest)) : rest.length < cs.length := by
  obtain ⟨⟨word, t'⟩, hmem, hword⟩ := List.exists_of_findSome?_eq_some h
  obtain ⟨rest', hdrop, heq⟩ := Option.map_eq_some_iff.1 hword
  have happend := Text.eq_append_of_dropOpening? hdrop
  have hne : 0 < word.toList.length := by
    have : ∀ entry ∈ Token.fixed, 0 < entry.1.toList.length := by decide
    exact this _ hmem
  simp only [Prod.mk.injEq] at heq
  rw [happend, ← heq.2]
  simp; omega

theorem length_dropWhile_lt {p : Char → Bool} {cs : List Char} (h : cs.takeWhile p ≠ []) :
    (cs.dropWhile p).length < cs.length := by
  have hlength := congrArg List.length (List.takeWhile_append_dropWhile (p := p) (l := cs))
  have := List.length_pos_iff.2 h
  rw [List.length_append] at hlength
  omega

theorem length_integer? {cs rest : List Char} {i : Int64}
    (h : integer? cs = some (i, rest)) : rest.length < cs.length := by
  unfold integer? at h
  split at h
  · next tail =>
      obtain ⟨_, _, heq⟩ := Option.map_eq_some_iff.1 h
      simp only [Prod.mk.injEq] at heq
      have := (List.dropWhile_suffix Char.isDigit (l := tail)).length_le
      simp [← heq.2]; omega
  · obtain ⟨n, hread, heq⟩ := Option.map_eq_some_iff.1 h
    simp only [Prod.mk.injEq] at heq
    rw [← heq.2]
    apply length_dropWhile_lt
    intro hnil
    simp [hnil, Text.readInt64?, Text.readInt?, Text.readNat?] at hread

/-- A token takes at least one character. -/
theorem length_read? {cs rest : List Char} {t : Token}
    (h : Token.read? cs = some (t, rest)) : rest.length < cs.length := by
  unfold Token.read? at h
  split at h
  · next hfixed => exact length_fixed? (hfixed ▸ h)
  · split at h
    · obtain ⟨⟨p, r⟩, hcut, heq⟩ := Option.map_eq_some_iff.1 h
      have := Text.length_cutFirst? hcut
      simp_all; omega
    · obtain ⟨⟨p, r⟩, hquoted, heq⟩ := Option.map_eq_some_iff.1 h
      have := length_quoted? hquoted
      simp_all; omega
    · obtain ⟨⟨p, r⟩, hquoted, heq⟩ := Option.map_eq_some_iff.1 h
      have := length_quoted? hquoted
      simp_all; omega
    · obtain ⟨⟨i, r⟩, hint, heq⟩ := Option.map_eq_some_iff.1 h
      have := length_integer? hint
      simp_all

/-- A token and the text that it was read from, to the end of the source. -/
structure Lexeme where
  token : Token
  text : List Char
  deriving DecidableEq

/-- The tokens of a text, or the text from its first part on that spells no token. -/
def lexemes (cs : List Char) : Except (List Char) (List Lexeme) :=
  match cs with
  | [] => .ok []
  | c :: rest =>
      if isSeparator c then lexemes rest
      else
        match _ : Token.read? (c :: rest) with
        | none => .error (c :: rest)
        | some (token, tail) => (lexemes tail).map (⟨token, c :: rest⟩ :: ·)
termination_by cs.length
decreasing_by
  · simp
  · exact length_read? (by assumption)

def offset (source : String) (rest : List Char) : Nat :=
  source.utf8ByteSize - (String.ofList rest).utf8ByteSize

end Archetype.Expression
