import Archetype.Json.Basic
import Archetype.Decimal.Shortest
import Archetype.Text.Integer

/-!
JSON numbers: the parts of a numeral, the number they stand for, and the text of a number.

A numeral is read in double arithmetic. The digits are gathered in a 64-bit significand as long as
they fit, the digits after that only count towards the power of ten, and the significand is then
scaled by it.
-/

namespace Archetype.Json

/-- The parts of a numeral as written. An exponent has a sign and at least one digit. -/
structure Numeral where
  negative : Bool
  whole : List Char
  fraction : List Char
  exponent : Option (Bool × List Char)

def digit (c : Char) : Nat :=
  c.toNat - '0'.toNat

/-- Adds digits to a significand until one would take it past 64 bits; gives the significand and
the number of digits taken. -/
def gather (significand taken : Nat) : List Char → Nat × Nat
  | [] => (significand, taken)
  | c :: rest =>
      let next := significand * 10 + digit c
      if next < UInt64.size then gather next (taken + 1) rest else (significand, taken)

def tenTo (n : Nat) : Float :=
  Float.ofScientific 1 false n

/-- The significand times a power of ten. Scaling takes at most 308 powers at a time; the first
argument bounds the number of times. -/
def scale : Nat → Float → Int → Option Float
  | 0, x, _ => some x
  | n + 1, x, exponent =>
      if exponent.natAbs ≤ 308 then
        if 0 ≤ exponent then
          let scaled := x * tenTo exponent.natAbs
          if scaled.isInf then none else some scaled
        else some (x / tenTo exponent.natAbs)
      else if x == 0.0 then some x
      else if 0 ≤ exponent then none
      else scale n (x / tenTo 308) (exponent + 308)

/-- The double with that sign, significand and power of ten; none if it is too large. -/
def double? (negative : Bool) (significand : Nat) (exponent : Int) : Option Number :=
  (scale 5 significand.toUInt64.toFloat exponent).map fun x =>
    .float (if negative then -x else x)

def integer (negative : Bool) (significand : Nat) : Number :=
  if !negative then .int significand
  else if significand ≠ 0 ∧ Text.Fits64 (-significand) then .int (-significand)
  else .float (-significand.toUInt64.toFloat)

/-- The number that a numeral stands for; none if it is out of range. -/
def Numeral.number? (numeral : Numeral) : Option Number :=
  let (whole, taken) := gather 0 0 numeral.whole
  let dropped : Int := numeral.whole.length - taken
  if numeral.fraction.isEmpty && numeral.exponent.isNone then
    if dropped = 0 then some (integer numeral.negative whole)
    else double? numeral.negative whole dropped
  else
    let (significand, places) := gather whole 0 numeral.fraction
    match numeral.exponent with
    | none => double? numeral.negative significand (dropped - places)
    | some (negativeExponent, digits) =>
        let exponent : Int := Nat.ofDigitChars 10 digits 0
        if Int32.maxValue.toInt < exponent then
          if significand ≠ 0 && !negativeExponent then none
          else some (.float (if numeral.negative then -0.0 else 0.0))
        else
          let shift := if negativeExponent then -exponent else exponent
          double? numeral.negative significand (dropped - places + shift)

def zeros (n : Nat) : List Char :=
  List.replicate n '0'

/-- The text of a decimal: positional if its point stands at most sixteen digits after the first
digit or at most four zeros before it, with a point even for whole numbers; scientific otherwise,
with a signed exponent. -/
def decimalText (x : Decimal) : String :=
  let digits := Nat.toDigits 10 x.digits
  let point : Int := digits.length + x.exponent
  if 0 ≤ x.exponent ∧ point ≤ 16 then
    .ofList (digits ++ zeros x.exponent.toNat ++ ['.', '0'])
  else if 0 < point ∧ point ≤ 16 then
    .ofList (digits.take point.toNat ++ ['.'] ++ digits.drop point.toNat)
  else if -5 < point ∧ point ≤ 0 then
    .ofList (['0', '.'] ++ zeros (-point).toNat ++ digits)
  else
    let mantissa :=
      match digits with
      | first :: second :: more => first :: '.' :: second :: more
      | single => single
    .ofList mantissa ++ (if 0 < point then "e+" else "e") ++ Text.integer (point - 1)

def floatText (x : Float) : String :=
  let bits := x.toBits
  let sign := if bits >>> 63 = 1 then "-" else ""
  let magnitude := bits &&& 0x7FFFFFFFFFFFFFFF
  if magnitude = 0 then sign ++ "0.0"
  else sign ++ decimalText (Decimal.shortest (.ofBits magnitude))

def Number.text : Number → String
  | .int i => Text.integer i
  | .float x => floatText x

end Archetype.Json
