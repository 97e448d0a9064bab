import Mathlib.Data.List.Chain
import StyleCompanion.Proofs.Overlay.Spans

/-
  Spans are determined by the lines they cover.

  The spans of some lines leave a gap of at least one line
  between two of them, so each span is a run of lines that
  goes no further on either side.  The first span begins at
  the least line that is covered and ends where the first gap
  begins, and the other spans cover the rest.  So there is one
  list of such spans for each set of lines.

  Main declarations:
    * `Canonical`
    * `Canonical.eq_of_covered_iff`
    * `canonical_prependLine`
    * `canonical_mergeSpans`
    * `mergeSpans_is_the_canonical_cover`
-/

namespace StyleCompanion

namespace Overlay

/-
  Spans that are not empty, each of them with a gap to the one
  before it.
-/
structure Canonical
    (spans : List LineSpan) : Prop where
  proper : ∀ s ∈ spans, s.first ≤ s.last
  apart : spans.IsChain fun a b => a.last + 2 ≤ b.first

----
-- One list for each set of lines
----

theorem covered_first
    {s : LineSpan}
    {spans : List LineSpan}
    (h : s.first ≤ s.last) :
    Covered (s :: spans) s.first :=
  covered_cons.mpr (.inl ⟨Int.le_refl _, h⟩)

namespace Canonical

variable {s t : LineSpan}
variable {spans others : List LineSpan}

theorem nil :
    Canonical [] :=
  ⟨fun _ hs => absurd hs List.not_mem_nil, .nil⟩

theorem head
    (h : Canonical (s :: spans)) :
    s.first ≤ s.last :=
  h.proper s List.mem_cons_self

theorem tail
    (h : Canonical (s :: spans)) :
    Canonical spans :=
  ⟨(List.forall_mem_cons.mp h.proper).2, h.apart.tail⟩

/- The gap to the next span separates all that follow. -/
theorem gap
    (h : Canonical (s :: spans)) :
    ∀ u ∈ spans, s.last + 2 ≤ u.first := by
  induction spans generalizing s with
  | nil =>
      intro u hu
      cases hu
  | cons t spans ih =>
      have hNext : s.last + 2 ≤ t.first :=
        (List.isChain_cons_cons.mp h.apart).1
      have hProper := h.tail.head
      intro u hu
      rcases List.mem_cons.mp hu with rfl | hRest
      · exact hNext
      · have hFar := ih h.tail u hRest
        omega

theorem increasing
    (h : Canonical spans) :
    spans.Pairwise fun a b => a.last < b.first := by
  induction spans with
  | nil => exact .nil
  | cons s spans ih =>
      refine List.pairwise_cons.mpr ⟨fun u hu => ?_, ih h.tail⟩
      have hGap := h.gap u hu
      omega

/- What the other spans cover lies behind the gap. -/
theorem far_of_covered
    (h : Canonical (s :: spans))
    {n : Int}
    (hn : Covered spans n) :
    s.last + 2 ≤ n := by
  rcases hn with ⟨u, hu, hFirst, -⟩
  exact Int.le_trans (h.gap u hu) hFirst

/- The first span begins at the least line. -/
theorem first_le_of_covered
    (h : Canonical (s :: spans))
    {n : Int}
    (hn : Covered (s :: spans) n) :
    s.first ≤ n := by
  have hProper := h.head
  rcases covered_cons.mp hn with hHere | hLater
  · exact hHere.1
  · have hBehind := h.far_of_covered hLater
    omega

/- The line behind the first span is in no span. -/
theorem not_covered_behind
    (h : Canonical (s :: spans)) :
    ¬ Covered (s :: spans) (s.last + 1) := by
  intro hn
  rcases covered_cons.mp hn with hHere | hLater
  · omega
  · have hBehind := h.far_of_covered hLater
    omega

/- Behind the first span the others do all the covering. -/
theorem covered_tail_iff
    (h : Canonical (s :: spans))
    {n : Int} :
    Covered spans n ↔ Covered (s :: spans) n ∧ s.last < n := by
  rw [covered_cons]
  constructor
  · intro hn
    have hBehind := h.far_of_covered hn
    exact ⟨.inr hn, by omega⟩
  · rintro ⟨hHere | hLater, hLess⟩
    · omega
    · exact hLater

/-
  Of two first spans that begin at the same line, the one that
  ends first leaves a line uncovered that the other covers.
-/
theorem last_le
    (h : Canonical (s :: spans))
    (hFirst : s.first = t.first)
    (hSame : ∀ n, Covered (t :: others) n →
      Covered (s :: spans) n) :
    t.last ≤ s.last := by
  apply Int.le_of_not_gt
  intro hShort
  have hProper := h.head
  refine h.not_covered_behind (hSame _ ?_)
  exact covered_cons.mpr (.inl ⟨by omega, by omega⟩)

/- Spans that cover the same lines are the same spans. -/
theorem eq_of_covered_iff
    (h : Canonical spans)
    (hOther : Canonical others)
    (hSame : ∀ n, Covered spans n ↔ Covered others n) :
    spans = others := by
  induction spans generalizing others with
  | nil =>
      cases others with
      | nil => rfl
      | cons t others =>
          exact absurd
            ((hSame t.first).mpr (covered_first hOther.head))
            (covered_nil _)
  | cons s spans ih =>
      cases others with
      | nil =>
          exact absurd
            ((hSame s.first).mp (covered_first h.head))
            (covered_nil _)
      | cons t others =>
          have hFirst : s.first = t.first := by
            apply Int.le_antisymm
            · exact h.first_le_of_covered
                ((hSame _).mpr (covered_first hOther.head))
            · exact hOther.first_le_of_covered
                ((hSame _).mp (covered_first h.head))
          have hLast : s.last = t.last := by
            apply Int.le_antisymm
            · exact hOther.last_le hFirst.symm
                fun n => (hSame n).mp
            · exact h.last_le hFirst fun n => (hSame n).mpr
          have hHead : s = t := by
            cases s
            cases t
            cases hFirst
            cases hLast
            rfl
          have hRest : spans = others := by
            apply ih h.tail hOther.tail
            intro n
            rw [h.covered_tail_iff, hOther.covered_tail_iff,
              hSame, hLast]
          rw [hHead, hRest]

end Canonical

----
-- The spans of some lines
----

/-
  A line in front of all others is joined to the first span
  or stands apart from it.
-/
theorem canonical_prependLine
    {x : Int}
    {spans : List LineSpan}
    (h : Canonical spans)
    (hLess : ∀ n, Covered spans n → x < n) :
    Canonical (prependLine x spans) := by
  refine ⟨first_le_last_prependLine h.proper, ?_⟩
  cases spans with
  | nil => exact .singleton _
  | cons s spans =>
      have hFront : x < s.first :=
        hLess _ (covered_first h.head)
      rw [prependLine]
      split
      next =>
        cases spans with
        | nil => exact .singleton _
        | cons t spans =>
            -- the joined span ends where the first one did
            have hNext := List.isChain_cons_cons.mp h.apart
            exact List.isChain_cons_cons.mpr hNext
      next hApart =>
        refine List.isChain_cons_cons.mpr ⟨?_, h.apart⟩
        dsimp only
        omega

theorem canonical_spansOfSorted
    {xs : List Int}
    (h : xs.Pairwise (· < ·)) :
    Canonical (spansOfSorted xs) := by
  induction xs with
  | nil => exact .nil
  | cons x xs ih =>
      rw [List.pairwise_cons] at h
      apply canonical_prependLine (ih h.2)
      intro n hn
      exact h.1 n (covered_spansOfSorted.mp hn)

theorem canonical_mergeSpans
    (xs : List Int) :
    Canonical (mergeSpans xs) :=
  canonical_spansOfSorted (pairwise_sortedSet xs)

/-
  The spans of some lines stand in increasing order, and they
  are the only canonical ones that cover these lines and no
  others.  Two lists of lines have the same spans exactly if
  they list the same lines, in whatever order and however
  often.
-/
theorem mergeSpans_is_the_canonical_cover
    (xs : List Int) :
    (mergeSpans xs).Pairwise (fun a b => a.last < b.first) ∧
      (∀ spans,
        spans = mergeSpans xs ↔
          Canonical spans ∧ ∀ n, Covered spans n ↔ n ∈ xs) ∧
      ∀ ys,
        mergeSpans ys = mergeSpans xs ↔ ∀ n, n ∈ ys ↔ n ∈ xs := by
  have hUnique : ∀ spans, Canonical spans →
      (∀ n, Covered spans n ↔ n ∈ xs) →
        spans = mergeSpans xs := by
    intro spans hSpans hLines
    apply hSpans.eq_of_covered_iff (canonical_mergeSpans xs)
    intro n
    rw [hLines, covered_mergeSpans]
  refine ⟨(canonical_mergeSpans xs).increasing, ?_, ?_⟩
  · intro spans
    constructor
    · rintro rfl
      exact ⟨canonical_mergeSpans xs, fun n => covered_mergeSpans⟩
    · rintro ⟨hSpans, hLines⟩
      exact hUnique spans hSpans hLines
  · intro ys
    constructor
    · intro hSame n
      rw [← covered_mergeSpans, hSame, covered_mergeSpans]
    · intro hLines
      apply hUnique _ (canonical_mergeSpans ys)
      intro n
      rw [covered_mergeSpans, hLines]

/- Lines below zero, out of order and with repetitions. -/
example :
    mergeSpans [3, -1, 4, 0, 3, -2, 9] =
      [⟨-2, 0⟩, ⟨3, 4⟩, ⟨9, 9⟩] := by
  decide

end Overlay

end StyleCompanion
