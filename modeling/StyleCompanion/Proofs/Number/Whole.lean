import StyleCompanion.Number.Binary64

/-
  Doubles that are whole numbers.

  Main declarations:
    * `Binary64.one_pos`
    * `Binary64.isInt_finite_iff`
-/

namespace StyleCompanion

namespace Binary64

theorem one_pos : 0 < one := by
  unfold one
  generalize 1074 = k
  exact Nat.pow_pos Nat.two_pos

/- A finite double that is whole is its whole part. -/
theorem isInt_finite_iff
    (s : Bool)
    (u : Nat)
    (n : Int) :
    (finite s u).isInt n = true ↔
      u % one = 0 ∧ wholePart s u = n := by
  have hPos := one_pos
  unfold isInt wholePart
  generalize one = w at hPos ⊢
  simp only [Bool.and_eq_true, Bool.or_eq_true,
    decide_eq_true_eq]
  constructor
  · intro h
    rcases h with ⟨hUnits, hSign⟩
    have hQuotient : u / w = n.natAbs := by
      rw [hUnits, Nat.mul_div_cancel _ hPos]
    refine ⟨by rw [hUnits, Nat.mul_mod_left], ?_⟩
    rw [hQuotient]
    rcases hSign with hZero | hSign
    · have hNone : n.natAbs = 0 := by
        rw [← hQuotient, hZero, Nat.zero_div]
      split <;> omega
    · subst hSign
      by_cases hNeg : n < 0
      · rw [if_pos (decide_eq_true hNeg)]
        omega
      · rw [if_neg (mt of_decide_eq_true hNeg)]
        omega
  · intro h
    rcases h with ⟨hWhole, hPart⟩
    have hUnits : u = u / w * w :=
      (Nat.div_mul_cancel (Nat.dvd_of_mod_eq_zero hWhole)).symm
    generalize u / w = k at hUnits hPart
    subst hUnits
    cases s with
    | false =>
        simp only [Bool.false_eq_true, if_false] at hPart
        subst hPart
        exact ⟨rfl, Or.inr (by simp)⟩
    | true =>
        simp only [if_true] at hPart
        subst hPart
        refine ⟨by simp, ?_⟩
        rcases Nat.eq_zero_or_pos k with hZero | hSome
        · exact Or.inl (by rw [hZero, Nat.zero_mul])
        · exact Or.inr (by simp; omega)

end Binary64

end StyleCompanion
