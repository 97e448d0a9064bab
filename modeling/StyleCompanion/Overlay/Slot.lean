import StyleCompanion.Json.Display
import StyleCompanion.Text.Digits

/-
  The names of paint slots.

  The slot of a palette colour is named by its index; one more
  slot marks overwritten declarations.

  Key definitions include:
    * `ownerSlotId`
    * `overwrittenSlot`
    * `paletteIndexOf`
-/

namespace StyleCompanion

namespace Overlay

/- What the name of every palette slot starts with. -/
def ownerSlotStart : String := "owner-"

/- The slot of overwritten declarations. -/
def overwrittenSlot : String := "overwritten"

/- The name of a palette slot. -/
def ownerSlotId
    (index : Int) : String :=
  ownerSlotStart ++ toString index

/- The palette index in the name of a slot. -/
def paletteIndexOf
    (slot : String) : Option Int :=
  if ownerSlotStart.toList.isPrefixOf slot.toList then
    Text.readInteger
      (String.ofList
        (slot.toList.drop ownerSlotStart.length))
  else none

/- The palette index in any value taken as a name. -/
def paletteIndexOfValue
    (x : Json) : Option Int :=
  paletteIndexOf x.textOrEmpty

end Overlay

end StyleCompanion
