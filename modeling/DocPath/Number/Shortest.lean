import DocPath.Number.Binary64

/-! The shortest decimal text of a double. Among the decimals that read back as the number, those
with the fewest digits are kept, and of these the nearest. The text is positional while the point
falls near the digits and has an exponent otherwise. -/

namespace DocPath.Binary64

/-- `digits * 10 ^ exponent`. -/
structure Decimal where
  digits : Nat
  exponent : Int
deriving DecidableEq

def Decimal.readsAs (decimal : Decimal) (magnitude : Nat) : Bool :=
  if 0 ≤ decimal.exponent then
    nearestMagnitude (decimal.digits * tenTo decimal.exponent.natAbs) 1 == magnitude
  else nearestMagnitude decimal.digits (tenTo decimal.exponent.natAbs) == magnitude

def overPowerOfTen (number : Binary64) (exponent : Int) : Nat × Nat :=
  if 0 ≤ exponent then (number.units, twoTo 1074 * tenTo exponent.natAbs)
  else (number.units * tenTo exponent.natAbs, twoTo 1074)

/-- The exponent of the leading decimal digit of a number other than zero. Scaling by `10 ^ 400`
puts every positive double far above one, so that the digits can be counted exactly. -/
def leadingExponent (number : Binary64) : Int :=
  ((Nat.toDigits 10 (number.units * tenTo 400 / twoTo 1074)).length : Int) - 401

/-- The decimal on the grid `10 ^ exponent` that reads back as the number, if there is one: the
nearest grid point, or else its neighbour on the other side. Where the doubles below are closer
together than those above, only the farther point may read back. -/
def onGrid? (number : Binary64) (exponent : Int) : Option Decimal :=
  let quotient := number.overPowerOfTen exponent
  let below := quotient.1 / quotient.2
  let nearest := roundQuotient quotient.1 quotient.2
  let other := if nearest = below then below + 1 else below
  [nearest, other].findSome? fun digits =>
    let decimal : Decimal := ⟨digits, exponent⟩
    if decimal.readsAs number.magnitude then some decimal else none

/-- The shortest decimal of a number other than zero: the coarsest grid with a hit decides.
Seventeen digits always suffice. -/
def shortest (number : Binary64) : Decimal :=
  let leading := number.leadingExponent
  ((List.range 17).findSome? fun (extra : Nat) => number.onGrid? (leading - extra)).getD
    ⟨roundQuotient (number.overPowerOfTen (leading - 16)).1
      (number.overPowerOfTen (leading - 16)).2, leading - 16⟩

/-- Whether a number whose point falls `place` places behind its first digit is written without an
exponent: from `0.00001` up to sixteen places before the point. -/
def positional (place : Int) : Bool := -5 < place && place ≤ 16

def significantDigits (digits : List Char) : List Char :=
  (digits.reverse.dropWhile (· == '0')).reverse

def layOut (digits : List Char) (place : Int) : List Char :=
  if positional place then
    if place ≤ 0 then '0' :: '.' :: (List.replicate place.natAbs '0' ++ digits)
    else
      let before := place.natAbs
      if digits.length ≤ before then
        digits ++ List.replicate (before - digits.length) '0' ++ ['.', '0']
      else digits.take before ++ '.' :: digits.drop before
  else
    let exponent := place - 1
    let fraction := if digits.length ≤ 1 then [] else '.' :: digits.drop 1
    let sign := if 0 ≤ exponent then '+' else '-'
    digits.take 1 ++ fraction ++ 'e' :: sign :: Nat.toDigits 10 exponent.natAbs

def letters (number : Binary64) : List Char :=
  let unsigned :=
    if number.magnitude = 0 then ['0', '.', '0']
    else
      let decimal := number.shortest
      let digits := Nat.toDigits 10 decimal.digits
      layOut (significantDigits digits) (decimal.exponent + digits.length)
  if number.negative then '-' :: unsigned else unsigned

end DocPath.Binary64
