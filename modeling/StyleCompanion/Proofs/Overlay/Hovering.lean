import StyleCompanion.Proofs.Attribution.Models
import StyleCompanion.Proofs.Overlay.Rendering

/-
  What is painted on a line and what is said of it.

  A render paints every record of a line, while the owner that
  a line is said to have is that of its last record.  So the
  owner that is named always has its colour on the line.  The
  line has no other colour exactly if no record of it has an
  owner of another slot than the last one.  For overwritten
  declarations the two always agree.

  Main declarations:
    * `Shows`
    * `HoverSlot`
    * `Repainted`
    * `ownerLine_agrees_iff`
    * `paint_agrees_with_hover_iff`
-/

namespace StyleCompanion

namespace Overlay

open Attribution

variable {m : Model}
variable {size k : Nat}
variable {n : Int}

----
-- Lines of a picture
----

/- A line has the colour of a slot. -/
def Shows
    (picture : Picture)
    (slot : String)
    (n : Int) : Prop :=
  ∃ spans, (slot, spans) ∈ picture ∧ Covered spans n

theorem Paints.shows_iff
    {picture : Picture}
    {slot : String}
    {lines : Int → Prop}
    (h : Paints picture slot lines) :
    Shows picture slot n ↔ lines n := by
  constructor
  · rintro ⟨spans, hSpans, hCovered⟩
    exact (h.covered_iff spans hSpans n).mp hCovered
  · intro hLine
    rcases h.painted_iff.mpr ⟨n, hLine⟩ with ⟨spans, hSpans⟩
    exact ⟨spans, hSpans,
      (h.covered_iff spans hSpans n).mpr hLine⟩

----
-- Records of one line
----

/- The slot of a record's owner. -/
def recordSlot
    (m : Model)
    (size : Nat)
    (r : LineRecord) : Option Nat :=
  r.ownerId.bind (ColorAssignment.assign m size).slotFor

/- The slot of the owner that a line is said to have. -/
def HoverSlot
    (m : Model)
    (size : Nat)
    (n : Int)
    (k : Nat) : Prop :=
  ∃ owner, m.ownerForLine n = some owner ∧
    (ColorAssignment.assign m size).slotFor owner = some k

/- A record of a line has a slot that the last one has not. -/
def Repainted
    (m : Model)
    (size : Nat)
    (n : Int) : Prop :=
  ∃ r ∈ m.lines, r.lineNumber = n ∧
    ∃ last, IsLast m.lines n last ∧
      ∃ k, recordSlot m size r = some k ∧
        recordSlot m size last ≠ some k

theorem ownerLine_iff :
    OwnerLine m size k n ↔
      ∃ r ∈ m.lines, r.lineNumber = n ∧
        recordSlot m size r = some k := by
  unfold OwnerLine recordSlot
  simp only [Option.bind_eq_some_iff]

/- The slot that is named is that of the last record. -/
theorem hoverSlot_iff
    (hBuilt : m.Built) :
    HoverSlot m size n k ↔
      ∃ last, IsLast m.lines n last ∧
        recordSlot m size last = some k := by
  unfold HoverSlot recordSlot
  simp only [hBuilt.ownerForLine_iff, Option.bind_eq_some_iff]
  constructor
  · rintro ⟨owner, ⟨last, hLast, hOwner⟩, hSlot⟩
    exact ⟨last, hLast, owner, hOwner, hSlot⟩
  · rintro ⟨last, hLast, owner, hOwner, hSlot⟩
    exact ⟨owner, ⟨last, hLast, hOwner⟩, hSlot⟩

theorem HoverSlot.ownerLine
    (hBuilt : m.Built)
    (h : HoverSlot m size n k) :
    OwnerLine m size k n := by
  rcases (hoverSlot_iff hBuilt).mp h with ⟨last, hLast, hSlot⟩
  exact ownerLine_iff.mpr ⟨last, hLast.mem, hLast.1, hSlot⟩

/-
  The slots of a line are the one that is named, unless the
  line has a record that the last one does not agree with.
-/
theorem ownerLine_agrees_iff
    (hBuilt : m.Built) :
    (∀ k, OwnerLine m size k n ↔ HoverSlot m size n k) ↔
      ¬ Repainted m size n := by
  constructor
  · rintro hAgree ⟨r, hr, hLine, last, hLast, k, hSlot, hOther⟩
    have hHover := (hAgree k).mp
      (ownerLine_iff.mpr ⟨r, hr, hLine, hSlot⟩)
    rcases (hoverSlot_iff hBuilt).mp hHover with
      ⟨named, hNamed, hNamedSlot⟩
    rw [hLast.unique hNamed] at hOther
    exact hOther hNamedSlot
  · intro hOnce k
    refine ⟨fun hOwner => ?_, fun h => h.ownerLine hBuilt⟩
    rcases ownerLine_iff.mp hOwner with ⟨r, hr, rfl, hSlot⟩
    rcases exists_isLast hr with ⟨last, hLast⟩
    refine (hoverSlot_iff hBuilt).mpr ⟨last, hLast, ?_⟩
    by_cases hSame : recordSlot m size last = some k
    · exact hSame
    · exact absurd ⟨r, hr, rfl, last, hLast, k, hSlot, hSame⟩
        hOnce

theorem overwrittenLine_iff
    (hBuilt : m.Built) :
    OverwrittenLine m n ↔
      ∃ d ∈ m.declarationsOnLine n,
        d.overwritten = some true := by
  rw [hBuilt.declarationsOnLine_eq]
  simp only [Model.allDeclarations, List.mem_filter,
    List.mem_flatMap, decide_eq_true_eq]
  constructor
  · rintro ⟨rule, hRule, d, hd, hFlag, hLine⟩
    exact ⟨d, ⟨⟨rule, hRule, hd⟩, hLine⟩, hFlag⟩
  · rintro ⟨d, ⟨⟨rule, hRule, hd⟩, hLine⟩, hFlag⟩
    exact ⟨rule, hRule, d, hd, hFlag, hLine⟩

----
-- Painting and naming
----

/-
  On every line of a view the owner that is named has its
  colour.  It is the only owner colour exactly if the line is
  not repainted.  A line is marked as overwritten exactly if
  one of its declarations is.
-/
theorem paint_agrees_with_hover_iff
    (hBuilt : m.Built)
    (e : Engine)
    (view : String)
    (count : Int) :
    ∃ result,
      (e.render view m (some count)).2.2 = some result ∧
      ∀ n, Visible count n →
        (∀ k, HoverSlot m e.paletteSize n k →
          Shows result.painted (ownerSlotId k) n) ∧
        ((∀ k : Nat, Shows result.painted (ownerSlotId k) n ↔
            HoverSlot m e.paletteSize n k) ↔
          ¬ Repainted m e.paletteSize n) ∧
        (Shows result.painted overwrittenSlot n ↔
          ∃ d ∈ m.declarationsOnLine n,
            d.overwritten = some true) := by
  refine ⟨_, rfl, fun n hVisible => ?_⟩
  have hPicture := depicts_paintFor m e.paletteSize count
  have hOwners : ∀ k : Nat,
      Shows (paintFor m (.assign m e.paletteSize) count)
          (ownerSlotId k) n ↔
        OwnerLine m e.paletteSize k n := fun k =>
    (hPicture.owners k).shows_iff.trans
      (and_iff_right hVisible)
  have hOverwritten :
      Shows (paintFor m (.assign m e.paletteSize) count)
          overwrittenSlot n ↔
        OverwrittenLine m n :=
    hPicture.overwritten.shows_iff.trans
      (and_iff_right hVisible)
  refine ⟨fun k hHover => ?_, ?_, ?_⟩
  · exact (hOwners k).mpr (hHover.ownerLine hBuilt)
  · rw [← ownerLine_agrees_iff hBuilt]
    exact forall_congr' fun k => iff_congr (hOwners k) .rfl
  · exact hOverwritten.trans (overwrittenLine_iff hBuilt)

/- One line with two records, each of an owner of its own. -/
def twiceOwned : Model :=
  let lines : List LineRecord := [⟨0, some 1⟩, ⟨0, some 2⟩]
  ⟨⟨[⟨1, "", ""⟩, ⟨2, "", ""⟩]⟩, [], lines,
    Model.indexOwners lines, Model.indexDeclarations []⟩

theorem twiceOwned_built :
    twiceOwned.Built :=
  ⟨twiceOwned.sources, [], twiceOwned.lines, rfl⟩

/- With one colour both owners have the same. -/
theorem one_color_agrees_with_hover :
    twiceOwned.Built ∧ Visible 2 0 ∧
    ∃ result,
      ((Engine.new 1).render "a.css" twiceOwned (some 2)).2.2 =
        some result ∧
      ∀ k : Nat, Shows result.painted (ownerSlotId k) 0 ↔
        HoverSlot twiceOwned 1 0 k := by
  have hVisible : Visible 2 0 := ⟨by decide, by decide⟩
  have hSlots : ∀ r ∈ twiceOwned.lines,
      recordSlot twiceOwned 1 r = some 0 := by decide
  have hOnce : ¬ Repainted twiceOwned 1 0 := by
    rintro ⟨r, hr, -, last, hLast, k, hSlot, hOther⟩
    exact hOther
      ((hSlots last hLast.mem).trans
        ((hSlots r hr).symm.trans hSlot))
  rcases paint_agrees_with_hover_iff twiceOwned_built
    (Engine.new 1) "a.css" 2 with ⟨result, hResult, hLines⟩
  exact ⟨twiceOwned_built, hVisible, result, hResult,
    (hLines 0 hVisible).2.1.mpr hOnce⟩

/- With more colours the line has those of both owners. -/
theorem second_record_adds_a_color :
    twiceOwned.Built ∧ Visible 2 0 ∧
    ∃ result,
      ((Engine.new 4).render "a.css" twiceOwned (some 2)).2.2 =
        some result ∧
      Shows result.painted (ownerSlotId 0) 0 ∧
      Shows result.painted (ownerSlotId 1) 0 ∧
      twiceOwned.ownerForLine 0 = some 2 ∧
      (ColorAssignment.assign twiceOwned 4).slotFor 2 =
        some 1 := by
  refine ⟨twiceOwned_built, ⟨by decide, by decide⟩, _, rfl,
    ⟨[⟨0, 0⟩], ?_, ?_⟩, ⟨[⟨0, 0⟩], ?_, ?_⟩, by decide, by decide⟩
  · decide
  · exact ⟨⟨0, 0⟩, List.mem_singleton_self _, by decide⟩
  · decide
  · exact ⟨⟨0, 0⟩, List.mem_singleton_self _, by decide⟩

end Overlay

end StyleCompanion
