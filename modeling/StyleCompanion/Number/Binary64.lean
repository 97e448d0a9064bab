/-
  Double-precision numbers as exact values.

  A finite double is a sign and a whole number of units of
  2^-1074, the least positive double, so two finite doubles
  are the same number exactly when their units agree and
  their signs do or both are zero.  Decimals are rounded to
  the nearest double, a tie going to the even significand.

  Key definitions include:
    * `Binary64`
    * `Binary64.ofDecimal`
    * `Binary64.truncate`
    * `Binary64.sameNumber`
    * `Binary64.isInt`
-/

namespace StyleCompanion

/- A double-precision number. -/
inductive Binary64 where
  | finite (negative : Bool) (units : Nat)
  | infinite (negative : Bool)
  | nan
  deriving DecidableEq, Repr

namespace Binary64

/- One, in units. -/
def one : Nat := Nat.pow 2 1074

/- The number of binary digits of a number. -/
def bitLength
    (n : Nat) : Nat :=
  if n = 0 then 0 else n.log2 + 1

/- The quotient rounded to nearest, a tie going to even. -/
def roundQuotient
    (num den : Nat) : Nat :=
  let q := num / den
  let r := num % den
  if 2 * r < den then q
  else if den < 2 * r then q + 1
  else if q % 2 = 0 then q
  else q + 1

/-
  Round a fraction to a multiple of a unit with at most 53
  significant binary digits.
-/
def roundUnits
    (num den : Nat) : Nat :=
  let shift := bitLength (num / den) - 53
  roundQuotient num (den * Nat.pow 2 shift) *
    Nat.pow 2 shift

/- The double nearest to a non-negative fraction. -/
def ofFraction
    (negative : Bool)
    (num den : Nat) : Binary64 :=
  let units := roundUnits (num * one) den
  if units < Nat.pow 2 2098 then .finite negative units
  else .infinite negative

/- The number of decimal digits of a number. -/
def decimalLength
    (n : Nat) : Nat :=
  (Nat.toDigits 10 n).length

/-
  The double nearest to a decimal, given as digits and a power
  of ten.  Decimals far outside the range of doubles are
  decided by their magnitude alone.
-/
def ofDecimal
    (negative : Bool)
    (digits : Nat)
    (exponent : Int) : Binary64 :=
  let magnitude := exponent + (decimalLength digits : Int)
  if digits = 0 then .finite negative 0
  else if 400 < magnitude then .infinite negative
  else if magnitude < -400 then .finite negative 0
  else if 0 ≤ exponent then
    ofFraction negative
      (digits * Nat.pow 10 exponent.toNat) 1
  else
    ofFraction negative digits
      (Nat.pow 10 (-exponent).toNat)

/- The whole part of a finite double. -/
def wholePart
    (negative : Bool)
    (units : Nat) : Int :=
  if negative then -((units / one : Nat) : Int)
  else ((units / one : Nat) : Int)

/- Drop the fraction; infinities and NaN have no whole part. -/
def truncate : Binary64 → Option Int
  | .finite s u => some (wholePart s u)
  | .infinite _ => none
  | .nan => none

/- Whether two doubles are the same number. -/
def sameNumber : Binary64 → Binary64 → Bool
  | .finite s u, .finite t v =>
      decide (u = v) && (decide (u = 0) || decide (s = t))
  | .infinite s, .infinite t => decide (s = t)
  | _, _ => false

/- Whether a double is a given whole number. -/
def isInt
    (x : Binary64)
    (n : Int) : Bool :=
  match x with
  | .finite s u =>
      decide (u = n.natAbs * one) &&
        (decide (u = 0) || decide (s = decide (n < 0)))
  | .infinite _ => false
  | .nan => false

/- Whether a double is a zero. -/
def isZero : Binary64 → Bool
  | .finite _ u => decide (u = 0)
  | _ => false

end Binary64

end StyleCompanion
