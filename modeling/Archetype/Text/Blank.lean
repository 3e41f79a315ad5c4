/-!
Blank characters and trimming. A character is blank when it has the White_Space property, so
trimming removes more than the ASCII blanks: no-break spaces, ideographic spaces and line
separators go too.
-/

namespace Archetype.Text

/-- The code points with the White_Space property, as inclusive ranges in increasing order. -/
def blankRanges : List (Nat × Nat) :=
  [(0x09, 0x0D), (0x20, 0x20), (0x85, 0x85), (0xA0, 0xA0), (0x1680, 0x1680), (0x2000, 0x200A),
   (0x2028, 0x2029), (0x202F, 0x202F), (0x205F, 0x205F), (0x3000, 0x3000)]

def isBlank (c : Char) : Bool :=
  blankRanges.any fun range => range.1 ≤ c.toNat && c.toNat ≤ range.2

def trimmed (cs : List Char) : List Char :=
  ((cs.dropWhile isBlank).reverse.dropWhile isBlank).reverse

def trim (s : String) : String :=
  .ofList (trimmed s.toList)

@[simp] theorem toList_trim (s : String) : (trim s).toList = trimmed s.toList := by
  simp [trim]

end Archetype.Text
