import StyleCompanion.Json.Basic

/-
  Ranges of whole lines.

  A set of lines is covered by the spans of its runs: sorted,
  and with a gap of at least one line between two of them.

  Key definitions include:
    * `LineSpan`
    * `sortedSet`
    * `spansOfSorted`
    * `mergeSpans`
-/

namespace StyleCompanion

namespace Overlay

/- An inclusive range of lines, counted from zero. -/
structure LineSpan where
  first : Int
  last : Int
  deriving DecidableEq, Repr

namespace LineSpan

/- Whether a line lies in a span. -/
def covers
    (s : LineSpan)
    (n : Int) : Bool :=
  decide (s.first ≤ n) && decide (n ≤ s.last)

/- Whether a value is a whole number in a span. -/
def containsValue
    (s : LineSpan)
    (x : Json) : Bool :=
  match x with
  | .int n => s.covers n
  | .bool b => s.covers (if b then 1 else 0)
  | _ => false

/- The lines of a span. -/
def lines
    (s : LineSpan) : List Int :=
  (List.range (s.last - s.first + 1).toNat).map
    fun k : Nat => s.first + (k : Int)

end LineSpan

/- Put a number at its place unless it is there already. -/
def insertDistinct
    (x : Int)
    (xs : List Int) : List Int :=
  match xs with
  | [] => [x]
  | y :: rest =>
      if x < y then x :: y :: rest
      else if x = y then y :: rest
      else y :: insertDistinct x rest

/- The distinct numbers of a list in increasing order. -/
def sortedSet
    (xs : List Int) : List Int :=
  xs.foldl (fun acc x => insertDistinct x acc) []

/- Put a line in front of the spans of greater lines. -/
def prependLine
    (x : Int)
    (spans : List LineSpan) : List LineSpan :=
  match spans with
  | [] => [⟨x, x⟩]
  | s :: rest =>
      if x + 1 = s.first then ⟨x, s.last⟩ :: rest
      else ⟨x, x⟩ :: s :: rest

/- The spans of lines in increasing order. -/
def spansOfSorted
    (xs : List Int) : List LineSpan :=
  xs.foldr prependLine []

/- The spans of any lines. -/
def mergeSpans
    (xs : List Int) : List LineSpan :=
  spansOfSorted (sortedSet xs)

end Overlay

end StyleCompanion
