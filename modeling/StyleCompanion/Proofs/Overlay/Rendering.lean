import StyleCompanion.Proofs.Overlay.Colors
import StyleCompanion.Proofs.Overlay.Spans

/-
  What a render paints.

  A render clears its view and paints a picture that is fixed
  by the model, the size of the palette and the number of
  lines: every slot on the lines of its owners, the overwritten
  slot on the lines of overwritten declarations, and nothing
  outside of the view.

  Main declarations:
    * `OwnerLine`
    * `OverwrittenLine`
    * `Paints`
    * `Depicts`
    * `paints_ownerPaint`
    * `paints_overwrittenPaint`
    * `depicts_paintFor`
    * `renders_exact_picture`
-/

namespace StyleCompanion

namespace Overlay

open Attribution

----
-- Lines of a model
----

/- The line of a record whose owner has a slot. -/
def OwnerLine
    (m : Model)
    (size k : Nat)
    (n : Int) : Prop :=
  ∃ r ∈ m.lines, r.lineNumber = n ∧
    ∃ owner, r.ownerId = some owner ∧
      (ColorAssignment.assign m size).slotFor owner = some k

/- The line of a record with an owner. -/
def OwnedLine
    (m : Model)
    (n : Int) : Prop :=
  ∃ r ∈ m.lines, r.lineNumber = n ∧ r.ownerId.isSome = true

/- The line of an overwritten declaration. -/
def OverwrittenLine
    (m : Model)
    (n : Int) : Prop :=
  ∃ rule ∈ m.rules, ∃ d ∈ rule.declarations,
    d.overwritten = some true ∧ d.sourceLine = some n

/- A line of a view. -/
def Visible
    (count n : Int) : Prop :=
  0 ≤ n ∧ n < count

theorem inView_iff
    {count n : Int} :
    inView count n = true ↔ Visible count n := by
  simp [inView, Visible]

variable {m : Model}
variable {size : Nat}

theorem mem_ownedLines_iff
    {k : Nat}
    {n : Int} :
    (k, n) ∈ ownedLines m (.assign m size) ↔
      OwnerLine m size k n := by
  unfold ownedLines OwnerLine
  rw [List.mem_filterMap]
  refine exists_congr fun r => and_congr_right fun _ => ?_
  cases r.ownerId with
  | none => simp
  | some owner => simp [and_comm]

/- Every owner of a line record has a slot. -/
theorem exists_ownerLine_iff
    (size : Nat)
    {n : Int} :
    (∃ k, OwnerLine m size k n) ↔ OwnedLine m n := by
  constructor
  · rintro ⟨k, r, hr, hLine, owner, hOwner, -⟩
    exact ⟨r, hr, hLine, by rw [hOwner]; rfl⟩
  · rintro ⟨r, hr, hLine, hOwned⟩
    rcases Option.isSome_iff_exists.mp hOwned with ⟨owner, hOwner⟩
    rcases ColorAssignment.exists_slotFor_iff.mpr
      ⟨r, hr, hOwner⟩ with ⟨k, hSlot⟩
    exact ⟨k, r, hr, hLine, owner, hOwner, hSlot⟩

theorem mem_overwrittenLines_iff
    {n : Int} :
    n ∈ overwrittenLines m ↔ OverwrittenLine m n := by
  simp only [overwrittenLines, Model.overwrittenDeclarations,
    Model.allDeclarations, Declaration.isOverwritten,
    List.mem_filterMap, List.mem_filter, List.mem_flatMap,
    beq_iff_eq]
  constructor
  · rintro ⟨d, ⟨⟨rule, hRule, hd⟩, hFlag⟩, hLine⟩
    exact ⟨rule, hRule, d, hd, hFlag, hLine⟩
  · rintro ⟨rule, hRule, d, hd, hFlag, hLine⟩
    exact ⟨d, ⟨⟨rule, hRule, hd⟩, hFlag⟩, hLine⟩

----
-- Pictures
----

/- What is painted, slot by slot. -/
abbrev Picture :=
  List (String × List LineSpan)

/-
  A slot is painted if there are lines for it, and then on
  exactly these lines.
-/
structure Paints
    (picture : Picture)
    (slot : String)
    (lines : Int → Prop) : Prop where
  painted_iff :
    (∃ spans, (slot, spans) ∈ picture) ↔ ∃ n, lines n
  covered_iff :
    ∀ spans, (slot, spans) ∈ picture →
      ∀ n, Covered spans n ↔ lines n

namespace Paints

variable {picture other : Picture}
variable {slot : String}
variable {lines : Int → Prop}

theorem congr
    {more : Int → Prop}
    (h : Paints picture slot lines)
    (hLines : ∀ n, lines n ↔ more n) :
    Paints picture slot more :=
  ⟨h.painted_iff.trans (exists_congr hLines),
    fun spans hSpans n =>
      (h.covered_iff spans hSpans n).trans (hLines n)⟩

/- Other slots do not matter. -/
theorem of_mem_iff
    (h : Paints other slot lines)
    (hMem : ∀ spans,
      (slot, spans) ∈ picture ↔ (slot, spans) ∈ other) :
    Paints picture slot lines := by
  refine ⟨?_, fun spans hSpans => ?_⟩
  · rw [← h.painted_iff]
    exact exists_congr hMem
  · exact h.covered_iff spans ((hMem spans).mp hSpans)

end Paints

/-
  The picture of a model on a view and the lines that the view
  does not have.
-/
structure Depicts
    (m : Model)
    (size : Nat)
    (count : Int)
    (picture : Picture)
    (skipped : List Int) : Prop where
  order :
    ∃ slots : List Nat, slots.Pairwise (· < ·) ∧
      ∃ last, (last = [] ∨ last = [overwrittenSlot]) ∧
        picture.map (·.1) =
          slots.map (fun k : Nat => ownerSlotId k) ++ last
  owners :
    ∀ k : Nat, Paints picture (ownerSlotId k) fun n =>
      Visible count n ∧ OwnerLine m size k n
  overwritten :
    Paints picture overwrittenSlot fun n =>
      Visible count n ∧ OverwrittenLine m n
  skippedOrder : skipped.Pairwise (· < ·)
  skipped_iff :
    ∀ n, n ∈ skipped ↔
      ¬ Visible count n ∧ (OwnedLine m n ∨ OverwrittenLine m n)

----
-- Slots of owners
----

variable {owned : List (Nat × Int)}

theorem mem_linesOfSlot_iff
    {k : Nat}
    {n : Int} :
    n ∈ linesOfSlot owned k ↔ (k, n) ∈ owned := by
  simp only [linesOfSlot, List.mem_map, List.mem_filter,
    decide_eq_true_eq, Int.ofNat_inj, Prod.exists,
    exists_eq_right]

theorem mem_paintedSlots_iff
    {slot : Int} :
    slot ∈ paintedSlots owned ↔
      ∃ (k : Nat) (n : Int), (k : Int) = slot ∧ (k, n) ∈ owned := by
  rw [paintedSlots, mem_sortedSet, List.mem_map, Prod.exists]
  simp only [and_comm]

/- Slots are numbers from zero on. -/
theorem paintedSlots_eq
    (owned : List (Nat × Int)) :
    ∃ slots : List Nat,
      paintedSlots owned = slots.map (fun k : Nat => (k : Int)) ∧
        slots.Pairwise (· < ·) := by
  have hEq : paintedSlots owned =
      ((paintedSlots owned).map Int.toNat).map
        (fun k : Nat => (k : Int)) := by
    rw [List.map_map, List.map_congr_left (g := id),
      List.map_id]
    intro slot hSlot
    rcases mem_paintedSlots_iff.mp hSlot with ⟨k, n, rfl, -⟩
    rfl
  refine ⟨_, hEq, ?_⟩
  have hOrder : (paintedSlots owned).Pairwise (· < ·) :=
    pairwise_sortedSet _
  rw [hEq, List.pairwise_map] at hOrder
  exact hOrder.imp fun h => Int.ofNat_lt.mp h

theorem mem_ownerPaint_iff
    {k : Nat}
    {spans : List LineSpan} :
    (ownerSlotId k, spans) ∈ ownerPaint owned ↔
      (∃ n, (k, n) ∈ owned) ∧
        spans = mergeSpans (linesOfSlot owned k) := by
  rw [ownerPaint, List.mem_map]
  constructor
  · rintro ⟨slot, hSlot, hEq⟩
    rw [Prod.mk.injEq, ownerSlotId_inj] at hEq
    rcases hEq with ⟨rfl, rfl⟩
    rcases mem_paintedSlots_iff.mp hSlot with ⟨j, n, hj, hn⟩
    cases Int.ofNat_inj.mp hj
    exact ⟨⟨n, hn⟩, rfl⟩
  · rintro ⟨⟨n, hn⟩, rfl⟩
    exact ⟨k, mem_paintedSlots_iff.mpr ⟨k, n, rfl, hn⟩, rfl⟩

theorem paints_ownerPaint
    (owned : List (Nat × Int))
    (k : Nat) :
    Paints (ownerPaint owned) (ownerSlotId k) fun n =>
      (k, n) ∈ owned := by
  refine ⟨?_, fun spans hSpans n => ?_⟩
  · simp [mem_ownerPaint_iff]
  · rw [(mem_ownerPaint_iff.mp hSpans).2, covered_mergeSpans,
      mem_linesOfSlot_iff]

theorem mem_overwrittenPaint_iff
    {lines : List Int}
    {slot : String}
    {spans : List LineSpan} :
    (slot, spans) ∈ overwrittenPaint lines ↔
      slot = overwrittenSlot ∧ (∃ n, n ∈ lines) ∧
        spans = mergeSpans lines := by
  cases lines with
  | nil => simp [overwrittenPaint]
  | cons n lines => simp [overwrittenPaint]

theorem paints_overwrittenPaint
    (lines : List Int) :
    Paints (overwrittenPaint lines) overwrittenSlot (· ∈ lines) := by
  refine ⟨?_, fun spans hSpans n => ?_⟩
  · simp [mem_overwrittenPaint_iff]
  · rw [(mem_overwrittenPaint_iff.mp hSpans).2.2,
      covered_mergeSpans]

----
-- The picture of a model
----

/- Slots of owners come in increasing order. -/
theorem names_ownerPaint
    (owned : List (Nat × Int)) :
    ∃ slots : List Nat, slots.Pairwise (· < ·) ∧
      (ownerPaint owned).map (·.1) =
        slots.map (fun k : Nat => ownerSlotId k) := by
  rcases paintedSlots_eq owned with ⟨slots, hEq, hOrder⟩
  refine ⟨slots, hOrder, ?_⟩
  rw [ownerPaint, List.map_map, hEq, List.map_map]
  rfl

theorem names_overwrittenPaint
    (lines : List Int) :
    (overwrittenPaint lines).map (·.1) = [] ∨
      (overwrittenPaint lines).map (·.1) = [overwrittenSlot] := by
  cases lines with
  | nil => exact .inl rfl
  | cons n lines => exact .inr rfl

/- The slot of overwritten lines belongs to no owner. -/
theorem overwrittenSlot_notMem_ownerPaint
    (owned : List (Nat × Int))
    (spans : List LineSpan) :
    (overwrittenSlot, spans) ∉ ownerPaint owned := by
  intro hMem
  rcases List.mem_map.mp hMem with ⟨slot, -, hEq⟩
  exact ownerSlotId_ne_overwrittenSlot slot
    (congrArg Prod.fst hEq)

theorem mem_skippedFor_iff
    {count n : Int} :
    n ∈ skippedFor m (.assign m size) count ↔
      ¬ Visible count n ∧ (OwnedLine m n ∨ OverwrittenLine m n) := by
  have hOwned :
      n ∈ (ownedLines m (.assign m size)).map (·.2) ↔
        OwnedLine m n := by
    rw [← exists_ownerLine_iff size, List.mem_map, Prod.exists]
    simp only [exists_eq_right, mem_ownedLines_iff]
  rw [skippedFor, mem_sortedSet, List.mem_filter,
    List.mem_append, hOwned, mem_overwrittenLines_iff,
    and_comm, Bool.not_eq_true', ← Bool.not_eq_true, inView_iff]

/- A render paints what it has to and skips what it must. -/
theorem depicts_paintFor
    (m : Model)
    (size : Nat)
    (count : Int) :
    Depicts m size count
      (paintFor m (.assign m size) count)
      (skippedFor m (.assign m size) count) where
  order := by
    rcases names_ownerPaint
      ((ownedLines m (.assign m size)).filter fun p =>
        inView count p.2) with ⟨slots, hOrder, hNames⟩
    refine ⟨slots, hOrder, _, names_overwrittenPaint
      ((overwrittenLines m).filter (inView count)), ?_⟩
    rw [paintFor, List.map_append, hNames]
  owners := by
    intro k
    have hPaints := (paints_ownerPaint
      ((ownedLines m (.assign m size)).filter fun p =>
        inView count p.2) k).congr fun n => by
          rw [List.mem_filter, mem_ownedLines_iff, inView_iff,
            and_comm]
    refine hPaints.of_mem_iff fun spans => ?_
    rw [paintFor, List.mem_append, mem_overwrittenPaint_iff]
    exact or_iff_left fun h =>
      ownerSlotId_ne_overwrittenSlot k h.1
  overwritten := by
    have hPaints := (paints_overwrittenPaint
      ((overwrittenLines m).filter (inView count))).congr
        fun n => by
          rw [List.mem_filter, mem_overwrittenLines_iff,
            inView_iff, and_comm]
    refine hPaints.of_mem_iff fun spans => ?_
    rw [paintFor, List.mem_append]
    exact or_iff_right (overwrittenSlot_notMem_ownerPaint _ spans)
  skippedOrder := pairwise_sortedSet _
  skipped_iff := fun _ => mem_skippedFor_iff

----
-- Renders
----

/- Whether an effect is a call of the view's surface. -/
def Effect.isCall : Effect → Bool
  | .clear _ => true
  | .paint _ _ _ => true
  | _ => false

/- The calls of the surface among some effects, in order. -/
def surfaceCalls
    (effects : List Effect) : List Effect :=
  effects.filter Effect.isCall

theorem surfaceCalls_append
    (xs ys : List Effect) :
    surfaceCalls (xs ++ ys) = surfaceCalls xs ++ surfaceCalls ys :=
  List.filter_append ..

theorem surfaceCalls_logs
    (records : List LogRecord) :
    surfaceCalls (records.map Effect.log) = [] := by
  simp [surfaceCalls, Effect.isCall]

theorem surfaceCalls_paints
    (view : String)
    (picture : Picture) :
    surfaceCalls
        (picture.map fun p => Effect.paint view p.1 p.2) =
      picture.map fun p => Effect.paint view p.1 p.2 := by
  unfold surfaceCalls
  rw [List.filter_eq_self]
  intro effect hEffect
  rcases List.mem_map.mp hEffect with ⟨p, -, rfl⟩
  rfl

/- A render clears its view and then paints it. -/
theorem surfaceCalls_render
    (e : Engine)
    (view : String)
    (m : Model)
    (count : Int) :
    surfaceCalls (e.render view m (some count)).2.1 =
      Effect.clear view ::
        (paintFor m (.assign m e.paletteSize) count).map
          fun p => Effect.paint view p.1 p.2 := by
  unfold Engine.render Engine.renderLines
  dsimp only
  rw [surfaceCalls_append, surfaceCalls_append, surfaceCalls_logs]
  change Effect.clear view :: surfaceCalls _ ++ [] = _
  rw [surfaceCalls_paints, List.append_nil]

/-
  For a model, a size of the palette and a number of lines
  there is one picture.  Whatever was rendered before, a
  render clears its view and paints this picture.
-/
theorem renders_exact_picture
    (m : Model)
    (size : Nat)
    (count : Int) :
    ∃ picture skipped,
      Depicts m size count picture skipped ∧
      ∀ (views : Table String View) (view : String),
        let r := (Engine.mk size views).render view m (some count)
        r.2.2 = some ⟨view, picture, skipped⟩ ∧
          surfaceCalls r.2.1 =
            Effect.clear view ::
              picture.map fun p => Effect.paint view p.1 p.2 := by
  refine ⟨_, _, depicts_paintFor m size count, ?_⟩
  intro views view
  exact ⟨rfl, surfaceCalls_render ⟨size, views⟩ view m count⟩

end Overlay

end StyleCompanion
