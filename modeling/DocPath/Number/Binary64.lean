/-! Finite double-precision numbers, kept as a sign and the place of the magnitude in the
increasing list of the nonnegative doubles. All arithmetic is exact arithmetic on natural numbers
followed by one rounding to the nearest double, with ties to the even neighbour. -/

namespace DocPath

def twoTo (exponent : Nat) : Nat := Nat.pow 2 exponent

def tenTo (exponent : Nat) : Nat := Nat.pow 10 exponent

/-- A finite double. `magnitude` is its encoding without the sign bit, so a larger magnitude is a
larger absolute value and the two zeros differ in `negative` alone. -/
structure Binary64 where
  negative : Bool
  magnitude : Nat
  finite : magnitude < 0x7FF0000000000000
deriving DecidableEq

namespace Binary64

def limit : Nat := 0x7FF0000000000000

def binadeSize : Nat := 0x10000000000000

def zero (negative : Bool) : Binary64 := ⟨negative, 0, by decide⟩

def bits (number : Binary64) : Nat :=
  if number.negative then 0x8000000000000000 + number.magnitude else number.magnitude

def neg (number : Binary64) : Binary64 := { number with negative := !number.negative }

/-- The absolute value in units of the least positive double, which is `2 ^ -1074`. -/
def units (number : Binary64) : Nat :=
  let exponent := number.magnitude / binadeSize
  let fraction := number.magnitude % binadeSize
  if exponent = 0 then fraction else (binadeSize + fraction) * twoTo (exponent - 1)

def same (left right : Binary64) : Bool :=
  left.magnitude == right.magnitude && (left.magnitude == 0 || left.negative == right.negative)

/-- The natural number nearest to a quotient; a tie goes to the even one. -/
def roundQuotient (numerator denominator : Nat) : Nat :=
  let quotient := numerator / denominator
  let twice := 2 * (numerator % denominator)
  if twice < denominator then quotient
  else if denominator < twice then quotient + 1
  else quotient + quotient % 2

/-- The magnitude nearest to a nonnegative quotient. Between two powers of two the doubles are
evenly spaced, `2 ^ place` units apart, so rounding a significand of 53 bits and adding the
`2 ^ 52` magnitudes of every lower place lands on the right one; a significand rounded up to
`2 ^ 53` lands on the first double of the next place. -/
def nearestMagnitude (numerator denominator : Nat) : Nat :=
  let scaled := numerator * twoTo 1074
  let place := Nat.log2 (scaled / denominator) - 52
  roundQuotient scaled (denominator * twoTo place) + place * binadeSize

def ofQuotient? (negative : Bool) (numerator denominator : Nat) : Option Binary64 :=
  let magnitude := nearestMagnitude numerator denominator
  if finite : magnitude < limit then some ⟨negative, magnitude, finite⟩ else none

def ofNat? (number : Nat) : Option Binary64 := ofQuotient? false number 1

def ofInt? (number : Int) : Option Binary64 := ofQuotient? (number < 0) number.natAbs 1

def mul? (left right : Binary64) : Option Binary64 :=
  ofQuotient? (left.negative != right.negative) (left.units * right.units) (twoTo 2148)

def div? (left right : Binary64) : Option Binary64 :=
  ofQuotient? (left.negative != right.negative) left.units right.units

def powerOfTen? (exponent : Nat) : Option Binary64 := ofNat? (tenTo exponent)

/-- The double nearest to `digits * 10 ^ exponent`. A value of more than 400 places is beyond every
finite double, and one that begins more than 400 places behind the point is nearest to zero; the
two guards keep the powers of ten small. -/
def ofDecimal? (negative : Bool) (digits : Nat) (exponent : Int) : Option Binary64 :=
  let places := exponent + (Nat.toDigits 10 digits).length
  if digits = 0 ∨ places < -400 then some (zero negative)
  else if 400 < places then none
  else if 0 ≤ exponent then ofQuotient? negative (digits * tenTo exponent.natAbs) 1
  else ofQuotient? negative digits (tenTo exponent.natAbs)

theorem same_iff {left right : Binary64} :
    same left right = true ↔ left.magnitude = right.magnitude ∧
      (left.magnitude = 0 ∨ left.negative = right.negative) := by
  simp [same]

theorem same_refl (number : Binary64) : same number number = true :=
  same_iff.mpr ⟨rfl, Or.inr rfl⟩

theorem same_symm {left right : Binary64} (equal : same left right = true) :
    same right left = true := by
  obtain ⟨magnitudes, signs⟩ := same_iff.mp equal
  exact same_iff.mpr ⟨magnitudes.symm, signs.imp (magnitudes ▸ ·) Eq.symm⟩

theorem same_trans {first second third : Binary64} (one : same first second = true)
    (two : same second third = true) : same first third = true := by
  obtain ⟨magnitudes, signs⟩ := same_iff.mp one
  obtain ⟨magnitudes', signs'⟩ := same_iff.mp two
  refine same_iff.mpr ⟨magnitudes.trans magnitudes', ?_⟩
  rcases signs with isZero | sign
  · exact Or.inl isZero
  · exact signs'.imp (magnitudes.trans ·) (sign.trans ·)

end Binary64
end DocPath
