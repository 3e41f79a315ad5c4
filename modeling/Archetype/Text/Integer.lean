/-!
Decimal integers as text. Reading takes ASCII digits after at most one sign; 64-bit reading refuses
what does not fit. Main statement: a 64-bit integer reads back from its own text.
-/

namespace Archetype.Text

/-- A natural number written as at least one ASCII digit and nothing else. -/
def readNat? (cs : List Char) : Option Nat :=
  if cs ≠ [] ∧ cs.all Char.isDigit then some (Nat.ofDigitChars 10 cs 0) else none

def readInt? : List Char → Option Int
  | '-' :: digits => (readNat? digits).map fun n => -(n : Int)
  | '+' :: digits => (readNat? digits).map Int.ofNat
  | digits => (readNat? digits).map Int.ofNat

def Fits64 (i : Int) : Prop :=
  Int64.minValue.toInt ≤ i ∧ i ≤ Int64.maxValue.toInt

instance (i : Int) : Decidable (Fits64 i) :=
  inferInstanceAs (Decidable (_ ∧ _))

def int64? (i : Int) : Option Int64 :=
  if Fits64 i then some (.ofInt i) else none

def readInt64? (cs : List Char) : Option Int64 :=
  (readInt? cs).bind int64?

/-- A one-based position: digits with an optional plus sign, never a minus. -/
def readPosition? : List Char → Option Nat
  | '+' :: digits => readNat? digits
  | digits => readNat? digits

def integer (i : Int) : String :=
  if i < 0 then "-" ++ toString i.natAbs else toString i.natAbs

theorem readNat?_toDigits (n : Nat) : readNat? (Nat.toDigits 10 n) = some n := by
  have digits : (Nat.toDigits 10 n).all Char.isDigit = true := by
    rw [List.all_eq_true]
    exact fun c hc => Nat.isDigit_of_mem_toDigits (by omega) (by omega) hc
  simp [readNat?, Nat.toDigits_ne_nil, digits, Nat.ofDigitChars_ten_toDigits]

theorem toList_integer (i : Int) :
    (integer i).toList =
      if i < 0 then '-' :: Nat.toDigits 10 i.natAbs else Nat.toDigits 10 i.natAbs := by
  unfold integer
  split <;> simp [Nat.toString_eq_repr]

theorem readInt?_integer (i : Int) : readInt? (integer i).toList = some i := by
  rw [toList_integer]
  split
  · next negative =>
    have value : -(i.natAbs : Int) = i := by omega
    rw [readInt?, readNat?_toDigits]
    exact congrArg some value
  · next positive =>
    have read : (readNat? (Nat.toDigits 10 i.natAbs)).map Int.ofNat = some i := by
      have value : (i.natAbs : Int) = i := by omega
      rw [readNat?_toDigits, Option.map_some, Int.ofNat_eq_natCast, value]
    cases digits : Nat.toDigits 10 i.natAbs with
    | nil => exact absurd digits Nat.toDigits_ne_nil
    | cons c rest =>
        have digit : c.isDigit = true :=
          Nat.isDigit_of_mem_toDigits (by omega) (by omega) (digits ▸ List.mem_cons_self ..)
        rw [digits] at read
        unfold readInt?
        split
        · next same => cases same; cases digit
        · next same => cases same; cases digit
        · exact read

theorem int64?_toInt (i : Int64) : int64? i.toInt = some i := by
  have fits : Fits64 i.toInt := ⟨i.minValue_le_toInt, i.toInt_le⟩
  rw [int64?, if_pos fits, Int64.ofInt_toInt]

theorem readInt64?_integer (i : Int64) : readInt64? (integer i.toInt).toList = some i := by
  rw [readInt64?, readInt?_integer, Option.bind_some, int64?_toInt]

end Archetype.Text
