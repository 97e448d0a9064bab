import StyleCompanion.Text.Blank

/-
  Trimmed texts.

  No blank stands at either end of a trimmed text, and nothing
  else is taken off it.  Trimming a second time changes
  nothing.

  Main declarations:
    * `Trimmed`
    * `trimmed_trim`
    * `stripWith_of_ends`
    * `trim_of_trimmed`
    * `trim_trim`
-/

namespace StyleCompanion

namespace Text

/- No blank stands at either end. -/
def Trimmed
    (s : String) : Prop :=
  (∀ c ∈ s.toList.head?, isBlank c = false) ∧
    ∀ c ∈ s.toList.getLast?, isBlank c = false

theorem trimmed_empty : Trimmed "" := by
  simp [Trimmed]

/- What stays in front when characters are dropped there. -/
theorem head?_dropWhile
    (p : Char → Bool)
    (cs : List Char) :
    ∀ c ∈ (cs.dropWhile p).head?, p c = false := by
  intro c hc
  have hHead := List.head?_dropWhile_not p cs
  rw [Option.mem_def.mp hc] at hHead
  exact hHead

/- Nothing is dropped if the first character may stay. -/
theorem dropWhile_eq_self
    {p : Char → Bool}
    {cs : List Char}
    (h : ∀ c ∈ cs.head?, p c = false) :
    cs.dropWhile p = cs := by
  cases cs with
  | nil => rfl
  | cons c rest =>
      have hKeep : p c = false := h c rfl
      rw [List.dropWhile_cons, hKeep]
      rfl

theorem trimmed_trim
    (s : String) :
    Trimmed (trim s) := by
  have hFront := head?_dropWhile isBlank s.toList
  have hBack := head?_dropWhile isBlank
    (s.toList.dropWhile isBlank).reverse
  rw [Trimmed, trim, String.toList_ofList, trimChars, stripWith,
    dropEndWhile]
  constructor
  · -- What stays is a beginning of what the front left.
    intro c hc
    have hSuffix := List.dropWhile_suffix
      (l := (s.toList.dropWhile isBlank).reverse) isBlank
    have hPrefix := List.reverse_prefix.mpr hSuffix
    rw [List.reverse_reverse] at hPrefix
    rcases hPrefix with ⟨dropped, hDropped⟩
    refine hFront c ?_
    rw [← hDropped, List.head?_append, Option.mem_def.mp hc]
    rfl
  · intro c hc
    rw [List.getLast?_reverse] at hc
    exact hBack c hc

/- Nothing is dropped if both ends may stay. -/
theorem stripWith_of_ends
    {p : Char → Bool}
    {cs : List Char}
    (hFirst : ∀ c ∈ cs.head?, p c = false)
    (hLast : ∀ c ∈ cs.getLast?, p c = false) :
    stripWith p cs = cs := by
  have hBack : ∀ c ∈ cs.reverse.head?, p c = false := by
    intro c hc
    rw [List.head?_reverse] at hc
    exact hLast c hc
  rw [stripWith, dropEndWhile, dropWhile_eq_self hFirst,
    dropWhile_eq_self hBack, List.reverse_reverse]

theorem trim_of_trimmed
    {s : String}
    (h : Trimmed s) :
    trim s = s := by
  rw [trim, trimChars, stripWith_of_ends h.1 h.2,
    String.ofList_toList]

/- Trimming twice is trimming once. -/
theorem trim_trim
    (s : String) :
    trim (trim s) = trim s :=
  trim_of_trimmed (trimmed_trim s)

end Text

end StyleCompanion
