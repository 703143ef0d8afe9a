import DocPath.Number

/-! Numerals of JSON: an optional sign, a whole part without redundant zeros, and optionally a
fraction and an exponent. A plain integer in range is read exactly. For every other numeral the
leading digits that fit in 64 bits are taken as they are and scaled by a power of ten, rounding
after each step; a value beyond the largest double has no reading. -/

namespace DocPath

structure Numeral where
  negative : Bool
  whole : List Char
  fraction : List Char
  exponent : Int
  plain : Bool
deriving DecidableEq

namespace Numeral

def spanDigits (letters : List Char) : List Char × List Char :=
  (letters.takeWhile Char.isDigit, letters.dropWhile Char.isDigit)

def readExponent? (letters : List Char) : Option (Option Int) :=
  match letters with
  | [] => some none
  | mark :: rest =>
      if mark = 'e' ∨ mark = 'E' then
        let (negative, digits) := match rest with
          | '-' :: later => (true, later)
          | '+' :: later => (false, later)
          | later => (false, later)
        if digits = [] ∨ ¬ digits.all Char.isDigit then none
        else
          let size : Int := Nat.ofDigitChars 10 digits 0
          some (some (if negative then -size else size))
      else none

def readFraction? (letters : List Char) : Option (Option (List Char) × List Char) :=
  match letters with
  | '.' :: rest =>
      let (digits, later) := spanDigits rest
      if digits = [] then none else some (some digits, later)
  | _ => some (none, letters)

def parse? (letters : List Char) : Option Numeral := do
  let (negative, unsigned) := match letters with
    | '-' :: rest => (true, rest)
    | _ => (false, letters)
  let (whole, afterWhole) := spanDigits unsigned
  guard (whole ≠ [] ∧ (whole.head? = some '0' → whole.length = 1))
  let (fraction, afterFraction) ← readFraction? afterWhole
  let exponent ← readExponent? afterFraction
  return {
    negative, whole
    fraction := fraction.getD []
    exponent := exponent.getD 0
    plain := fraction.isNone && exponent.isNone }

/-- Leading digits collected so far: their value, and how many digits were passed over because
the value had no room for them. -/
structure Collected where
  value : Nat
  passed : Nat
deriving DecidableEq

def Collected.take (collected : Collected) (digit : Char) : Collected :=
  let extended := 10 * collected.value + (digit.toNat - '0'.toNat)
  if collected.passed = 0 ∧ extended < 0x10000000000000000 then { collected with value := extended }
  else { collected with passed := collected.passed + 1 }

/-- The double divided by `10 ^ 308`, the largest power of ten below the largest double. -/
@[irreducible] def stepDown? (number : Binary64) : Option Binary64 :=
  (Binary64.powerOfTen? 308).bind number.div?

/-- The double scaled by a power of ten. Steps beyond `10 ^ 308` are divided out one at a time. -/
def scale? (number : Binary64) (exponent : Int) : Option Binary64 :=
  if 308 < exponent then if number.magnitude = 0 then some number else none
  else if exponent < -308 then
    if number.magnitude = 0 then some number
    else (stepDown? number).bind fun smaller => scale? smaller (exponent + 308)
  else if 0 ≤ exponent then (Binary64.powerOfTen? exponent.natAbs).bind number.mul?
  else (Binary64.powerOfTen? exponent.natAbs).bind number.div?
termination_by exponent.natAbs
decreasing_by omega

/-- The double that a numeral stands for. Digits of the whole part without room count as powers of
ten, digits of the fraction without room are ignored; a fraction begins anew to look for room. -/
def float? (numeral : Numeral) : Option Binary64 := do
  let whole := numeral.whole.foldl Collected.take ⟨0, 0⟩
  let fraction := numeral.fraction.foldl Collected.take ⟨whole.value, 0⟩
  let kept := numeral.fraction.length - fraction.passed
  let unsigned ← Binary64.ofNat? fraction.value
  let scaled ← scale? unsigned (numeral.exponent + whole.passed - kept)
  return if numeral.negative then scaled.neg else scaled

def number? (numeral : Numeral) : Option Number :=
  let size := Nat.ofDigitChars 10 numeral.whole 0
  let whole : Int := if numeral.negative then -size else size
  if inRange : numeral.plain ∧ Number.InRange whole ∧ ¬ (numeral.negative ∧ size = 0) then
    some (.int whole inRange.2.1)
  else numeral.float?.map .float

end Numeral

def Number.parse? (letters : List Char) : Option Number :=
  (Numeral.parse? letters).bind Numeral.number?

end DocPath
