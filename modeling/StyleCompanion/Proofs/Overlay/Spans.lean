import StyleCompanion.Overlay.Span

/-
  Spans cover the lines they were made of.

  The distinct numbers of a list stand in increasing order.
  Putting a line in front of spans covers that line and what
  was covered before, so the spans of any lines cover these
  lines and no others.

  Main declarations:
    * `mem_sortedSet`
    * `pairwise_sortedSet`
    * `Covered`
    * `covered_prependLine`
    * `covered_mergeSpans`
-/

namespace StyleCompanion

namespace Overlay

----
-- Distinct numbers in order
----

@[simp] theorem mem_insertDistinct
    {x y : Int}
    {xs : List Int} :
    y ∈ insertDistinct x xs ↔ y = x ∨ y ∈ xs := by
  induction xs with
  | nil => simp [insertDistinct]
  | cons z xs ih =>
      rw [insertDistinct]
      split
      next => exact List.mem_cons
      next =>
        split
        next hEq =>
          subst hEq
          simp
        next =>
          rw [List.mem_cons, ih, List.mem_cons]
          exact or_left_comm

theorem pairwise_insertDistinct
    {xs : List Int}
    (x : Int)
    (h : xs.Pairwise (· < ·)) :
    (insertDistinct x xs).Pairwise (· < ·) := by
  induction xs with
  | nil => exact List.pairwise_singleton _ x
  | cons y xs ih =>
      have hAll := h
      rw [List.pairwise_cons] at h
      rw [insertDistinct]
      split
      next hLess =>
        refine List.pairwise_cons.mpr ⟨fun z hz => ?_, hAll⟩
        rcases List.mem_cons.mp hz with rfl | hRest
        · exact hLess
        · exact Int.lt_trans hLess (h.1 z hRest)
      next hNotLess =>
        split
        next => exact hAll
        next hOther =>
          refine List.pairwise_cons.mpr ⟨fun z hz => ?_, ih h.2⟩
          rcases mem_insertDistinct.mp hz with rfl | hOld
          · omega
          · exact h.1 z hOld

/- The numbers of a list and of those collected before it. -/
theorem mem_foldl_insertDistinct
    {y : Int}
    {xs acc : List Int} :
    y ∈ xs.foldl (fun acc x => insertDistinct x acc) acc ↔
      y ∈ acc ∨ y ∈ xs := by
  induction xs generalizing acc with
  | nil => simp
  | cons x xs ih =>
      rw [List.foldl_cons, ih, mem_insertDistinct, List.mem_cons,
        or_assoc, or_left_comm]

@[simp] theorem mem_sortedSet
    {y : Int}
    {xs : List Int} :
    y ∈ sortedSet xs ↔ y ∈ xs :=
  mem_foldl_insertDistinct.trans
    (or_iff_right List.not_mem_nil)

theorem pairwise_sortedSet
    (xs : List Int) :
    (sortedSet xs).Pairwise (· < ·) :=
  List.foldlRecOn xs _ List.Pairwise.nil
    fun _ h x _ => pairwise_insertDistinct x h

----
-- Cover
----

/- A line lies in one of some spans. -/
def Covered
    (spans : List LineSpan)
    (n : Int) : Prop :=
  ∃ s ∈ spans, s.first ≤ n ∧ n ≤ s.last

@[simp] theorem covered_nil
    (n : Int) :
    ¬ Covered [] n :=
  fun ⟨_, hs, _⟩ => (nomatch hs)

theorem covered_cons
    {s : LineSpan}
    {spans : List LineSpan}
    {n : Int} :
    Covered (s :: spans) n ↔
      (s.first ≤ n ∧ n ≤ s.last) ∨ Covered spans n := by
  simp [Covered]

/- A new line is either joined to the first span or alone. -/
theorem covered_prependLine
    {x n : Int}
    {spans : List LineSpan}
    (hSpans : ∀ s ∈ spans, s.first ≤ s.last) :
    Covered (prependLine x spans) n ↔
      n = x ∨ Covered spans n := by
  cases spans with
  | nil =>
      rw [prependLine, covered_cons]
      exact or_congr_left (by dsimp only; omega)
  | cons s spans =>
      have hFirst := hSpans s List.mem_cons_self
      rw [prependLine]
      split
      next hNext =>
        rw [covered_cons, covered_cons, ← or_assoc]
        exact or_congr_left (by dsimp only; omega)
      next =>
        rw [covered_cons]
        exact or_congr_left (by dsimp only; omega)

theorem first_le_last_prependLine
    {x : Int}
    {spans : List LineSpan}
    (hSpans : ∀ s ∈ spans, s.first ≤ s.last) :
    ∀ s ∈ prependLine x spans, s.first ≤ s.last := by
  cases spans with
  | nil => simp [prependLine]
  | cons s spans =>
      rw [List.forall_mem_cons] at hSpans
      rw [prependLine]
      split
      next hNext =>
        refine List.forall_mem_cons.mpr ⟨?_, hSpans.2⟩
        dsimp only
        omega
      next =>
        exact List.forall_mem_cons.mpr
          ⟨Int.le_refl x, List.forall_mem_cons.mpr hSpans⟩

theorem first_le_last_spansOfSorted
    (xs : List Int) :
    ∀ s ∈ spansOfSorted xs, s.first ≤ s.last := by
  induction xs with
  | nil => exact fun s hs => (nomatch hs)
  | cons x xs ih => exact first_le_last_prependLine ih

theorem covered_spansOfSorted
    {xs : List Int}
    {n : Int} :
    Covered (spansOfSorted xs) n ↔ n ∈ xs := by
  induction xs with
  | nil => exact iff_of_false (covered_nil n) List.not_mem_nil
  | cons x xs ih =>
      rw [List.mem_cons, ← ih]
      exact covered_prependLine (first_le_last_spansOfSorted xs)

/- The spans of some lines cover these lines. -/
@[simp] theorem covered_mergeSpans
    {xs : List Int}
    {n : Int} :
    Covered (mergeSpans xs) n ↔ n ∈ xs :=
  covered_spansOfSorted.trans mem_sortedSet

end Overlay

end StyleCompanion
