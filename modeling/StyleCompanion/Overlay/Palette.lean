import StyleCompanion.Attribution.Model
import StyleCompanion.Failure
import StyleCompanion.Log

/-
  Colours for the owners of a model.

  Every line owner gets a slot of the palette: the place at
  which it was first seen, modulo the size of the palette.
  With more owners than slots, colours are used again.

  Key definitions include:
    * `defaultPalette`
    * `readPaletteSize`
    * `ColorAssignment`
    * `ColorAssignment.assign`
-/

namespace StyleCompanion

namespace Overlay

/- The colours used unless others are configured. -/
def defaultPalette : List String :=
  ["#E5534B", "#4C9AFF", "#57AB5A", "#D4A72C", "#B083F0",
    "#39C5CF", "#E0823D", "#C96198", "#8DDB8C", "#96A0AA"]

/- Read a palette size, which has to be positive. -/
def readPaletteSize
    (x : Json) : Outcome Nat :=
  match x.integer with
  | .error e => .error e
  | .ok n =>
      if 0 < n then .ok n.toNat else .error (.paletteSize x)

/- The slots of the owners of one model. -/
structure ColorAssignment where
  paletteSize : Nat
  slots : Table Int Nat
  deriving DecidableEq, Repr

namespace ColorAssignment

/- Give each owner its first-seen place modulo the size. -/
def slotsOf
    (owners : List Int)
    (size : Nat) : Table Int Nat :=
  owners.zipIdx.map fun p => (p.1, p.2 % size)

/- The assignment for a model. -/
def assign
    (m : Attribution.Model)
    (size : Nat) : ColorAssignment :=
  ⟨size, slotsOf m.ownerIds size⟩

/- The slot of an owner. -/
def slotFor
    (a : ColorAssignment)
    (owner : Int) : Option Nat :=
  Table.get? a.slots owner

/- Whether owners had to share slots. -/
def overflowed
    (a : ColorAssignment) : Bool :=
  decide (a.paletteSize < a.slots.length)

/- The owners of a slot in first-seen order. -/
def ownersSharing
    (a : ColorAssignment)
    (slot : Nat) : List Int :=
  (a.slots.filter fun p => decide (p.2 = slot)).map (·.1)

/- The record that colours are used again, if they are. -/
def log
    (a : ColorAssignment) : List LogRecord :=
  if a.overflowed then
    [.debug
      (toString a.slots.length ++ " owners share a " ++
        toString a.paletteSize ++
        "-color palette; colors are reused")]
  else []

end ColorAssignment

end Overlay

end StyleCompanion
