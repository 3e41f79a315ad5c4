/-!
The shortest decimal that reads back as a given double. A double stands for every real that rounds
to it; of the decimals in that interval the ones with the fewest digits are taken, and of those the
nearest to the double. All arithmetic is exact.
-/

namespace Archetype

/-- The decimal `digits * 10 ^ exponent`. -/
structure Decimal where
  digits : Nat
  exponent : Int

namespace Decimal

/-- A positive double `mantissa * 2 ^ exponent`. It is narrow below if the double under it is only
half as far away as the double over it. -/
structure Binary where
  mantissa : Nat
  exponent : Int
  narrowBelow : Bool

def Binary.ofBits (bits : UInt64) : Binary :=
  let fraction := (bits &&& 0xFFFFFFFFFFFFF).toNat
  let power := ((bits >>> 52) &&& 0x7FF).toNat
  if power = 0 then ⟨fraction, -1074, false⟩
  else ⟨fraction + 0x10000000000000, power - 1075, fraction = 0 ∧ 1 < power⟩

def power (base : Nat) (exponent : Int) : Nat × Nat :=
  if 0 ≤ exponent then (Nat.pow base exponent.toNat, 1) else (1, Nat.pow base (-exponent).toNat)

def leadingExponent (b : Binary) : Int :=
  let (n, d) := power 2 b.exponent
  ((Nat.toDigits 10 (b.mantissa * n * Nat.pow 10 400 / d)).length : Int) - 401

/-- The nearer of the two multiples of `10 ^ exponent` beside the double that rounds to it, if one
does. A tie goes to the even multiple. The ends of the interval round to an even mantissa. -/
def onGrid? (b : Binary) (exponent : Int) : Option Nat :=
  let (twoNum, twoDen) := power 2 (b.exponent - 2)
  let (tenNum, tenDen) := power 10 exponent
  let scale := twoNum * tenDen
  let step := tenNum * twoDen
  let middle := 4 * b.mantissa * scale
  let low := (4 * b.mantissa - if b.narrowBelow then 1 else 2) * scale
  let high := (4 * b.mantissa + 2) * scale
  let inside (c : Nat) : Bool :=
    if b.mantissa % 2 = 0 then low ≤ c * step && c * step ≤ high
    else low < c * step && c * step < high
  let below := middle / step
  let above := below + 1
  match inside below, inside above with
  | true, true =>
      let fromBelow := middle - below * step
      let toAbove := above * step - middle
      some (if fromBelow < toAbove || (fromBelow = toAbove && below % 2 = 0) then below else above)
  | true, false => some below
  | false, true => some above
  | false, false => none

def reduce : Nat → Decimal → Decimal
  | 0, x => x
  | n + 1, x =>
      if x.digits % 10 = 0 ∧ x.digits ≠ 0 then reduce n ⟨x.digits / 10, x.exponent + 1⟩ else x

/-- The shortest decimal that rounds to a positive double. Seventeen digits always suffice. -/
def shortest (b : Binary) : Decimal :=
  let top := leadingExponent b
  let found := (List.range 17).findSome? fun (n : Nat) =>
    (onGrid? b (top - n)).map fun c => (⟨c, top - n⟩ : Decimal)
  match found with
  | some x => x.reduce 18
  | none => ⟨0, 0⟩

end Decimal

end Archetype
