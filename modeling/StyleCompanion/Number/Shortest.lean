import StyleCompanion.Number.Binary64

/-
  The shortest decimal of a double.

  Of all decimals that read back as the double, those with the
  fewest digits are taken, and of these the one nearest to the
  double.  For each number of digits it is enough to look at
  the two decimals of that length around the double.

  The text is positional from 10^-4 up to below 10^16 and has
  an exponent of at least two digits elsewhere; a whole number
  keeps a final `.0`.

  Key definitions include:
    * `Decimal`
    * `shortest`
    * `Binary64.text`
-/

namespace StyleCompanion

/- Significant digits and the power of ten of the last one. -/
structure Decimal where
  digits : Nat
  exponent : Int
  deriving DecidableEq, Repr

namespace Binary64

----
-- Shortest digits
----

/- The binary digits that a significand of 53 leaves over. -/
def spareBits
    (units : Nat) : Nat :=
  bitLength units - 53

/- The distance to the next double above, in units. -/
def gapAbove
    (units : Nat) : Nat :=
  Nat.pow 2 (spareBits units)

/-
  The numbers that round to a double lie between two ends,
  here in quarters of a unit.  Below a power of two the
  doubles are twice as dense.
-/
def lowerEnd
    (units : Nat) : Nat :=
  let gap := gapAbove units
  if units = Nat.pow 2 52 * gap ∧ 1 < gap then 4 * units - gap
  else 4 * units - 2 * gap

/- The upper end, in quarters of a unit. -/
def upperEnd
    (units : Nat) : Nat :=
  4 * units + 2 * gapAbove units

/- The ends round to the double when its significand is even. -/
def endsIncluded
    (units : Nat) : Bool :=
  decide (units / gapAbove units % 2 = 0)

/- Numerator and denominator of a power of ten. -/
def tenPower
    (e : Int) : Nat × Nat :=
  if 0 ≤ e then (Nat.pow 10 e.toNat, 1)
  else (1, Nat.pow 10 (-e).toNat)

/- Whether `c · 10^e` reads back as the double. -/
def readsBack
    (units : Nat)
    (c : Nat)
    (e : Int) : Bool :=
  let p := tenPower e
  let x := c * p.1 * 4 * one
  let lo := lowerEnd units * p.2
  let hi := upperEnd units * p.2
  if endsIncluded units then
    decide (lo ≤ x) && decide (x ≤ hi)
  else
    decide (lo < x) && decide (x < hi)

/-
  The distance from `c · 10^e` to the double, scaled by
  the denominator of the power.
-/
def distance
    (units : Nat)
    (c : Nat)
    (e : Int) : Nat :=
  let p := tenPower e
  let x := c * p.1 * one
  let y := units * p.2
  (x - y) + (y - x)

/- The best decimal on the grid of a power of ten. -/
def onGrid
    (units : Nat)
    (e : Int) : Option Decimal :=
  let p := tenPower e
  let below := units * p.2 / (one * p.1)
  let above := below + 1
  let hitBelow := readsBack units below e
  let hitAbove := readsBack units above e
  if hitBelow && hitAbove then
    let d₁ := distance units below e
    let d₂ := distance units above e
    if d₁ < d₂ then some ⟨below, e⟩
    else if d₂ < d₁ then some ⟨above, e⟩
    else if below % 2 = 0 then some ⟨below, e⟩
    else some ⟨above, e⟩
  else if hitBelow then some ⟨below, e⟩
  else if hitAbove then some ⟨above, e⟩
  else none

/-
  The number of decimal places by which a number below one
  has to be moved until it reaches one.
-/
def leadingPlaces
    (fuel : Nat)
    (units : Nat) : Nat :=
  match fuel with
  | 0 => 0
  | n + 1 =>
      if one ≤ units then 0
      else leadingPlaces n (units * 10) + 1

/- The place of the decimal point before the first digit. -/
def pointPlace
    (units : Nat) : Int :=
  if one ≤ units then (decimalLength (units / one) : Int)
  else 1 - (leadingPlaces 400 units : Int)

/- Try grids of more and more digits. -/
def searchDigits
    (units : Nat)
    (place : Int)
    (tried : Nat)
    (fuel : Nat) : Decimal :=
  match fuel with
  | 0 => ⟨units, 0⟩
  | n + 1 =>
      match onGrid units (place - (tried + 1 : Nat)) with
      | some d => d
      | none => searchDigits units place (tried + 1) n

/- The shortest decimal of a positive number of units. -/
def shortest
    (units : Nat) : Decimal :=
  searchDigits units (pointPlace units) 0 17

----
-- Text
----

/- Drop the zeros at the end of digits. -/
def stripZeros
    (ds : List Char) : List Char :=
  (ds.reverse.dropWhile (· == '0')).reverse

/- The sign in front of a number. -/
def signText
    (negative : Bool) : List Char :=
  if negative then ['-'] else []

/- An exponent with its sign and at least two digits. -/
def exponentText
    (e : Int) : List Char :=
  let ds := Nat.toDigits 10 e.natAbs
  'e' :: (if e < 0 then '-' else '+') ::
    (List.replicate (2 - ds.length) '0' ++ ds)

/-
  Write digits with the decimal point at a place, counted from
  before the first digit.
-/
def placeDigits
    (ds : List Char)
    (place : Int) : List Char :=
  if -4 < place ∧ place ≤ 16 then
    if place ≤ 0 then
      '0' :: '.' :: (List.replicate place.natAbs '0' ++ ds)
    else
      let k := place.toNat
      let whole := ds.take k
      let zeros := List.replicate (k - whole.length) '0'
      let fraction := ds.drop k
      whole ++ zeros ++ '.' ::
        (if fraction.isEmpty then ['0'] else fraction)
  else
    match ds with
    | [] => []
    | d :: rest =>
        (if rest.isEmpty then [d] else d :: '.' :: rest) ++
          exponentText (place - 1)

/- The text of a positive number of units. -/
def positiveText
    (units : Nat) : List Char :=
  let d := shortest units
  let all := Nat.toDigits 10 d.digits
  placeDigits (stripZeros all)
    (d.exponent + (all.length : Int))

/- The text of a double. -/
def text : Binary64 → String
  | .finite s u =>
      String.ofList
        (signText s ++
          (if u = 0 then ['0', '.', '0']
            else positiveText u))
  | .infinite s =>
      String.ofList (signText s ++ ['i', 'n', 'f'])
  | .nan => "nan"

end Binary64

end StyleCompanion
