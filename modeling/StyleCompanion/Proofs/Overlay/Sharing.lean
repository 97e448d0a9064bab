import Mathlib.Data.Int.CardIntervalMod
import StyleCompanion.Proofs.Overlay.Colors

/-
  Owners that share a slot.

  Slots are dealt out in turn, in the order in which the owners
  first come.  So two owners share a slot exactly if their
  places differ by a multiple of the size of the palette.  That
  happens only if there are more owners than slots, and no slot
  has more than one owner more than another.  Line records that
  are added at the end add owners at the end, and no owner that
  was there before moves.

  Main declarations:
    * `firstSeen_prefix`
    * `ColorAssignment.slotFor_of_mem`
    * `ColorAssignment.mem_ownersSharing`
    * `ColorAssignment.length_ownersSharing`
    * `ColorAssignment.ownersSharing_perm`
    * `ColorAssignment.overflowed_iff`
    * `ColorAssignment.slots_stable_and_balanced`
-/

namespace StyleCompanion

----
-- Lists that grow at the end
----

namespace Attribution

/- What comes later stands behind what has been seen. -/
theorem firstSeen_prefix
    (xs ys : List Int) :
    firstSeen xs <+: firstSeen (xs ++ ys) := by
  induction ys using List.reverseRecOn with
  | nil => rw [List.append_nil]
  | append_singleton ys y ih =>
      rw [← List.append_assoc, firstSeen_concat]
      split
      next => exact ih
      next => exact ih.trans (List.prefix_append _ _)

/- The owners of added records come behind the others. -/
theorem Model.ownerIds_prefix
    {m n : Model}
    {added : List LineRecord}
    (h : n.lines = m.lines ++ added) :
    m.ownerIds <+: n.ownerIds := by
  unfold ownerIds
  rw [h, List.filterMap_append]
  exact firstSeen_prefix _ _

end Attribution

namespace Overlay

open Attribution

namespace ColorAssignment

variable {m : Model}
variable {size k : Nat}
variable {owner other : Int}

----
-- Places
----

/- The owners with a slot, in order. -/
def owners
    (a : ColorAssignment) : List Int :=
  Table.keys a.slots

theorem owners_assign
    (m : Model)
    (size : Nat) :
    (assign m size).owners = m.ownerIds :=
  keys_slotsOf m.ownerIds size

theorem nodup_ownerIds : m.ownerIds.Nodup :=
  (firstSeen_spec _).nodup

/- An owner has the slot of its place. -/
theorem slotFor_of_mem
    (h : owner ∈ m.ownerIds) :
    (assign m size).slotFor owner =
      some (m.ownerIds.idxOf owner % size) :=
  slotFor_assign_iff.mpr ⟨_, List.getElem?_idxOf h, rfl⟩

theorem mem_ownerIds_of_slotFor
    (h : (assign m size).slotFor owner = some k) :
    owner ∈ m.ownerIds :=
  Model.mem_ownerIds.mpr (exists_slotFor_iff.mp ⟨k, h⟩)

/- Owners share a slot if their places are congruent. -/
theorem slotFor_eq_slotFor_iff
    (h : owner ∈ m.ownerIds)
    (hOther : other ∈ m.ownerIds) :
    (assign m size).slotFor owner =
        (assign m size).slotFor other ↔
      m.ownerIds.idxOf owner ≡
        m.ownerIds.idxOf other [MOD size] := by
  rw [slotFor_of_mem h, slotFor_of_mem hOther,
    Option.some.injEq]
  exact Iff.rfl

/- No owner moves when records are added. -/
theorem slotFor_of_append
    {n : Model}
    {added : List LineRecord}
    (hLines : n.lines = m.lines ++ added)
    (h : (assign m size).slotFor owner = some k) :
    (assign n size).slotFor owner = some k := by
  rcases slotFor_assign_iff.mp h with ⟨i, hPlace, hSlot⟩
  refine slotFor_assign_iff.mpr ⟨i, ?_, hSlot⟩
  rcases Model.ownerIds_prefix hLines with ⟨later, hOwners⟩
  rw [← hOwners]
  have hInside := (List.getElem?_eq_some_iff.mp hPlace).1
  exact (List.getElem?_append_left hInside).trans hPlace

----
-- Overflow
----

/-
  The palette overflows exactly if owners share a slot: the
  first owner and the one that comes a whole round later do,
  and within one round all slots differ.
-/
theorem overflowed_iff
    (hSize : 0 < size) :
    (assign m size).overflowed = true ↔
      ∃ owner ∈ m.ownerIds, ∃ other ∈ m.ownerIds,
        owner ≠ other ∧
          (assign m size).slotFor owner =
            (assign m size).slotFor other := by
  have hCount :
      (assign m size).overflowed = true ↔
        size < m.ownerIds.length := by
    rw [overflowed, decide_eq_true_eq,
      ← owners_assign m size, owners, Table.keys,
      List.length_map]
    exact Iff.rfl
  rw [hCount]
  constructor
  · intro hMany
    have hSome : 0 < m.ownerIds.length := by omega
    refine ⟨m.ownerIds[0], List.getElem_mem hSome,
      m.ownerIds[size], List.getElem_mem hMany, ?_, ?_⟩
    · intro hEq
      have hPlaces := nodup_ownerIds.getElem_inj_iff.mp hEq
      omega
    · rw [slotFor_eq_slotFor_iff (List.getElem_mem hSome)
        (List.getElem_mem hMany), nodup_ownerIds.idxOf_getElem,
        nodup_ownerIds.idxOf_getElem]
      exact (Nat.zero_mod size).trans (Nat.mod_self size).symm
  · rintro ⟨owner, hOwner, other, hOther, hNe, hSame⟩
    by_contra hFew
    have hPlace := List.idxOf_lt_length_of_mem hOwner
    have hOtherPlace := List.idxOf_lt_length_of_mem hOther
    have hCongruent :=
      (slotFor_eq_slotFor_iff hOwner hOther).mp hSame
    have hEq : m.ownerIds.idxOf owner =
        m.ownerIds.idxOf other :=
      hCongruent.eq_of_lt_of_lt (by omega) (by omega)
    exact hNe ((List.idxOf_inj hOwner).mp hEq)

----
-- Classes
----

/- The owners of a slot are those that have it. -/
theorem mem_ownersSharing :
    owner ∈ (assign m size).ownersSharing k ↔
      (assign m size).slotFor owner = some k := by
  have hKeys : (assign m size).owners.Nodup := by
    rw [owners_assign]
    exact nodup_ownerIds
  unfold ownersSharing slotFor
  simp only [List.mem_map, List.mem_filter, decide_eq_true_eq]
  constructor
  · rintro ⟨e, ⟨hMem, rfl⟩, rfl⟩
    exact Table.get?_of_mem hKeys hMem
  · intro hFound
    exact ⟨(owner, k), ⟨Table.mem_of_get? hFound, rfl⟩, rfl⟩

/- They are in the order of the model. -/
theorem ownersSharing_sublist :
    ((assign m size).ownersSharing k).Sublist m.ownerIds := by
  rw [← owners_assign m size]
  exact List.filter_sublist.map _

/-
  Every slot has as many owners as there are whole rounds, and
  one more if the last round reaches it.
-/
theorem length_ownersSharing
    (h : k < size) :
    ((assign m size).ownersSharing k).length =
      m.ownerIds.length / size +
        if k < m.ownerIds.length % size then 1 else 0 := by
  have hPlaces :
      ((assign m size).ownersSharing k).length =
        (List.range m.ownerIds.length).countP
          fun i => decide (i % size = k) := by
    rw [ownersSharing, List.length_map,
      ← List.countP_eq_length_filter, assign, slotsOf,
      List.countP_map, List.range_eq_range',
      ← List.zipIdx_map_snd 0 m.ownerIds, List.countP_map]
    rfl
  have hCongruent :
      ∀ i, i % size = k ↔ i ≡ k [MOD size] := by
    intro i
    rw [Nat.ModEq, Nat.mod_eq_of_lt h]
  have hRounds := Nat.count_modEq_card m.ownerIds.length
    (Nat.zero_lt_of_lt h) k
  rw [Nat.mod_eq_of_lt h] at hRounds
  rw [hPlaces, ← hRounds, Nat.count]
  simp only [hCongruent]

/- The owners of all slots are all owners. -/
theorem ownersSharing_perm
    (hSize : 0 < size) :
    ((List.range size).flatMap
        (assign m size).ownersSharing).Perm m.ownerIds := by
  have hOnce :
      ((List.range size).flatMap
        (assign m size).ownersSharing).Nodup := by
    refine List.nodup_flatMap.mpr ⟨?_, ?_⟩
    · intro k _
      exact nodup_ownerIds.sublist ownersSharing_sublist
    · refine List.nodup_range.imp fun hNe owner hj hk => ?_
      rw [mem_ownersSharing] at hj hk
      exact hNe (Option.some.inj (hj.symm.trans hk))
  refine (List.perm_ext_iff_of_nodup hOnce
    nodup_ownerIds).mpr fun owner => ?_
  simp only [List.mem_flatMap, List.mem_range,
    mem_ownersSharing]
  constructor
  · rintro ⟨k, -, hSlot⟩
    exact mem_ownerIds_of_slotFor hSlot
  · intro hMem
    exact ⟨_, Nat.mod_lt _ hSize, slotFor_of_mem hMem⟩

----
-- Assignments
----

/-
  The owners that get a slot are those of the line records, in
  the order in which they first come, and their slots are slots
  of the palette.  Two of them share a slot exactly if their
  places are congruent, and some do exactly if the palette
  overflows.  All slots together have each owner once, and the
  numbers of their owners differ by one at most.  Line records
  that are added at the end leave every slot as it is.
-/
theorem slots_stable_and_balanced
    (m : Model)
    (size : Nat)
    (hSize : 0 < size) :
    FirstSeen (m.lines.filterMap (·.ownerId))
        (assign m size).owners ∧
      (∀ owner ∈ (assign m size).owners,
        ∃ k < size,
          (assign m size).slotFor owner = some k) ∧
      (∀ owner ∈ (assign m size).owners,
        ∀ other ∈ (assign m size).owners,
          (assign m size).slotFor owner =
              (assign m size).slotFor other ↔
            (assign m size).owners.idxOf owner ≡
              (assign m size).owners.idxOf other
                [MOD size]) ∧
      ((assign m size).overflowed = true ↔
        ∃ owner ∈ (assign m size).owners,
          ∃ other ∈ (assign m size).owners,
            owner ≠ other ∧
              (assign m size).slotFor owner =
                (assign m size).slotFor other) ∧
      (∀ j < size, ∀ k < size,
        ((assign m size).ownersSharing j).length ≤
          ((assign m size).ownersSharing k).length + 1) ∧
      ((List.range size).flatMap
          (assign m size).ownersSharing).Perm
        (assign m size).owners ∧
      ∀ (n : Model) (added : List LineRecord),
        n.lines = m.lines ++ added →
          ∀ owner ∈ (assign m size).owners,
            (assign n size).slotFor owner =
              (assign m size).slotFor owner := by
  simp only [owners_assign]
  refine ⟨firstSeen_spec _, ?_, ?_, ?_, ?_,
    ownersSharing_perm hSize, ?_⟩
  · intro owner hOwner
    exact ⟨_, Nat.mod_lt _ hSize, slotFor_of_mem hOwner⟩
  · intro owner hOwner other hOther
    exact slotFor_eq_slotFor_iff hOwner hOther
  · exact overflowed_iff hSize
  · intro j hj k hk
    rw [length_ownersSharing hj, length_ownersSharing hk]
    split <;> split <;> omega
  · intro n added hLines owner hOwner
    rw [slotFor_of_mem hOwner]
    exact slotFor_of_append hLines (slotFor_of_mem hOwner)

/- Three owners, the second of which comes back. -/
def threeOwners : Model :=
  let lines : List LineRecord :=
    [⟨0, some 7⟩, ⟨1, some 2⟩, ⟨2, none⟩, ⟨3, some 2⟩,
      ⟨4, some 5⟩]
  ⟨⟨[⟨2, "", ""⟩, ⟨5, "", ""⟩, ⟨7, "", ""⟩]⟩, [], lines,
    Model.indexOwners lines, Model.indexDeclarations []⟩

/-
  With two colours the first and the last owner have the same,
  whatever lines are added.
-/
theorem threeOwners_share_a_color :
    threeOwners.Built ∧
      (assign threeOwners 2).owners = [7, 2, 5] ∧
      (assign threeOwners 2).slotFor 7 =
        (assign threeOwners 2).slotFor 5 ∧
      (assign threeOwners 2).overflowed = true ∧
      ∀ n added, n.lines = threeOwners.lines ++ added →
        (assign n 2).slotFor 5 = some 0 := by
  have hBuilt : threeOwners.Built :=
    ⟨threeOwners.sources, [], threeOwners.lines, rfl⟩
  rcases slots_stable_and_balanced threeOwners 2
      (by decide) with
    ⟨-, -, hShared, hOverflow, -, -, hStable⟩
  have hFirst : 7 ∈ (assign threeOwners 2).owners := by decide
  have hLast : 5 ∈ (assign threeOwners 2).owners := by decide
  have hSame := (hShared 7 hFirst 5 hLast).mpr (by decide)
  refine ⟨hBuilt, by decide, hSame,
    hOverflow.mpr ⟨7, hFirst, 5, hLast, by decide, hSame⟩, ?_⟩
  intro n added hLines
  exact (hStable n added hLines 5 hLast).trans (by decide)

end ColorAssignment

end Overlay

end StyleCompanion
