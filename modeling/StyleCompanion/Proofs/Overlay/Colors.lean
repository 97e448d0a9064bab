import StyleCompanion.Overlay.Engine
import StyleCompanion.Proofs.Attribution.Models
import StyleCompanion.Proofs.Table
import StyleCompanion.Proofs.Text.Digits

/-
  Slots of owners and their names.

  The name of a slot tells which slot it is.  The owners that
  have a slot are those of the line records, and each has the
  slot of the place where it first comes.

  Main declarations:
    * `paletteIndexOf_ownerSlotId`
    * `ownerSlotId_inj`
    * `ownerSlotId_ne_overwrittenSlot`
    * `ColorAssignment.slotFor_assign_iff`
    * `ColorAssignment.exists_slotFor_iff`
-/

namespace StyleCompanion

namespace Overlay

open Attribution

----
-- Names
----

/- The index of a slot is read from its name. -/
theorem paletteIndexOf_ownerSlotId
    (k : Int) :
    paletteIndexOf (ownerSlotId k) = some k := by
  have hChars : (ownerSlotId k).toList =
      ownerSlotStart.toList ++ (toString k).toList :=
    String.toList_append
  have hStart : ownerSlotStart.toList.isPrefixOf
      (ownerSlotId k).toList = true := by
    rw [hChars, List.isPrefixOf_iff_prefix]
    exact List.prefix_append _ _
  have hRest : (ownerSlotId k).toList.drop ownerSlotStart.length =
      (toString k).toList := by
    rw [hChars, ← String.length_toList]
    exact List.drop_left
  rw [paletteIndexOf, if_pos hStart, hRest, String.ofList_toList]
  exact Text.readInteger_toString k

theorem ownerSlotId_inj
    {j k : Int} :
    ownerSlotId j = ownerSlotId k ↔ j = k := by
  refine ⟨fun h => ?_, congrArg ownerSlotId⟩
  have hIndex := congrArg paletteIndexOf h
  rw [paletteIndexOf_ownerSlotId,
    paletteIndexOf_ownerSlotId] at hIndex
  exact Option.some.inj hIndex

theorem ownerSlotId_ne_overwrittenSlot
    (k : Int) :
    ownerSlotId k ≠ overwrittenSlot := by
  intro h
  have hIndex := congrArg paletteIndexOf h
  rw [paletteIndexOf_ownerSlotId] at hIndex
  cases hIndex

----
-- Slots
----

namespace ColorAssignment

variable {m : Model}
variable {size k : Nat}
variable {owner : Int}

theorem keys_slotsOf
    (owners : List Int)
    (size : Nat) :
    Table.keys (slotsOf owners size) = owners := by
  rw [Table.keys, slotsOf, List.map_map]
  exact List.zipIdx_map_fst 0 owners

/- The slot of an owner is its first place modulo the size. -/
theorem slotFor_assign_iff :
    (assign m size).slotFor owner = some k ↔
      ∃ i, m.ownerIds[i]? = some owner ∧ i % size = k := by
  have hKeys :
      (Table.keys (slotsOf m.ownerIds size)).Nodup := by
    rw [keys_slotsOf]
    exact (firstSeen_spec _).nodup
  have hEntry : (owner, k) ∈ slotsOf m.ownerIds size ↔
      ∃ i, m.ownerIds[i]? = some owner ∧ i % size = k := by
    simp [slotsOf, List.mem_zipIdx_iff_getElem?]
  rw [← hEntry]
  exact ⟨Table.mem_of_get?, Table.get?_of_mem hKeys⟩

/- Owners of line records, and no others, have a slot. -/
theorem exists_slotFor_iff :
    (∃ k, (assign m size).slotFor owner = some k) ↔
      ∃ r ∈ m.lines, r.ownerId = some owner := by
  rw [← Model.mem_ownerIds, List.mem_iff_getElem?]
  simp [slotFor_assign_iff]

end ColorAssignment

end Overlay

end StyleCompanion
