import DocPath.Number.Shortest

/-! Numbers of a document. An integer between `-2 ^ 63` and `2 ^ 64 - 1` is kept exactly, every
other number is a finite double. The two kinds never equal each other, so `1` and `1.0` are
different values. -/

namespace DocPath

/-- The integers of 64 bits, signed or unsigned. -/
abbrev Number.InRange (value : Int) : Prop :=
  -0x8000000000000000 ≤ value ∧ value < 0x10000000000000000

inductive Number where
  | int (value : Int) (inRange : Number.InRange value)
  | float (value : Binary64)
deriving DecidableEq

namespace Number

def ofInt? (value : Int) : Option Number :=
  if inRange : InRange value then some (.int value inRange) else none

def ofNat (value : Nat) (inRange : value < 0x10000000000000000) : Number :=
  .int value ⟨by omega, by omega⟩

def int64? : Number → Option Int
  | .int value _ => if value < 0x8000000000000000 then some value else none
  | .float _ => none

def nat64? : Number → Option Nat
  | .int value _ => if 0 ≤ value then some value.toNat else none
  | .float _ => none

def binary64? : Number → Option Binary64
  | .int value _ => Binary64.ofInt? value
  | .float value => some value

def same : Number → Number → Bool
  | .int left _, .int right _ => left == right
  | .float left, .float right => left.same right
  | _, _ => false

def letters : Number → List Char
  | .int value _ =>
      if value < 0 then '-' :: Nat.toDigits 10 value.natAbs else Nat.toDigits 10 value.natAbs
  | .float value => value.letters

def text (number : Number) : String := String.ofList number.letters

theorem same_refl (number : Number) : same number number = true := by
  cases number with
  | int value inRange => simp [same]
  | float value => exact Binary64.same_refl value

theorem same_symm {left right : Number} (equal : same left right = true) :
    same right left = true := by
  cases left <;> cases right <;> simp_all [same, Binary64.same_symm]

theorem same_trans {first second third : Number} (one : same first second = true)
    (two : same second third = true) : same first third = true := by
  cases first <;> cases second <;> simp only [same, Bool.false_eq_true] at one
  all_goals cases third <;> simp only [same, Bool.false_eq_true] at two ⊢
  · simp_all
  · exact Binary64.same_trans one two

end Number
end DocPath
