import Mathlib.Data.List.Perm.Subperm
import StyleCompanion.Proofs.Json.Ordered
import StyleCompanion.Proofs.Number.Whole

/-
  What it means that two values are equal.

  All numbers are whole multiples of the least positive double,
  or infinite, and numbers of whatever kind are equal if these
  multiples are.  Lists are equal item by item, and objects name
  by name.  The test of equality decides that relation for all
  values that no NaN is in.

  Main declarations:
    * `Json.Quantity`
    * `Json.Equal`
    * `Json.NanFree`
    * `Json.Numeral.same_iff`
    * `Json.agrees_iff_equal`
    * `Json.same_iff_equal`
-/

namespace StyleCompanion

namespace Json

----
-- Quantities
----

/- How much a number is: a multiple of the least double. -/
inductive Quantity where
  | units (n : Int)
  | infinite (negative : Bool)

/- How much a double is; a NaN is no quantity. -/
def doubleQuantity? : Binary64 → Option Quantity
  | .finite s u => some (.units (if s then -(u : Int) else u))
  | .infinite s => some (.infinite s)
  | .nan => none

/- How much a number is. -/
def Numeral.quantity? : Numeral → Option Quantity
  | .whole n => some (.units (n * Binary64.one))
  | .double x => doubleQuantity? x

/- How much a value is, if it counts as a number. -/
def quantity?
    (x : Json) : Option Quantity :=
  x.numeral?.bind Numeral.quantity?

/- A finite double is a whole number if it is as much. -/
theorem isInt_iff_units
    (s : Bool)
    (u : Nat)
    (n : Int) :
    (Binary64.finite s u).isInt n = true ↔
      (if s then -(u : Int) else u) = n * Binary64.one := by
  have hPos := Binary64.one_pos
  unfold Binary64.isInt
  generalize Binary64.one = w at hPos ⊢
  have hSize : n.natAbs * w = (n * w).natAbs := by
    rw [Int.natAbs_mul, Int.natAbs_natCast]
  have hSign : n < 0 ↔ n * w < 0 := by
    constructor
    · intro hNeg
      exact Int.mul_neg_of_neg_of_pos hNeg (by omega)
    · intro hNeg
      by_contra hPart
      have hProduct := Int.mul_nonneg (Int.not_lt.mp hPart)
        (Int.natCast_nonneg w)
      omega
  simp only [Bool.and_eq_true, Bool.or_eq_true,
    decide_eq_true_eq, hSize, hSign]
  generalize n * (w : Int) = z
  cases s with
  | false =>
      rw [if_neg Bool.false_ne_true]
      simp only [Bool.false_eq, decide_eq_false_iff_not]
      omega
  | true =>
      rw [if_pos rfl]
      simp only [Bool.true_eq, decide_eq_true_eq]
      omega

/- Two doubles are the same number if they are as much. -/
theorem sameNumber_iff
    (x y : Binary64) :
    x.sameNumber y = true ↔
      ∃ q, doubleQuantity? x = some q ∧
        doubleQuantity? y = some q := by
  cases x with
  | finite s u =>
      cases y with
      | finite t v =>
          cases s <;> cases t <;>
            simp [Binary64.sameNumber, doubleQuantity?] <;>
              omega
      | infinite t =>
          simp [Binary64.sameNumber, doubleQuantity?]
      | nan => simp [Binary64.sameNumber, doubleQuantity?]
  | infinite s =>
      cases y <;>
        simp [Binary64.sameNumber, doubleQuantity?, eq_comm]
  | nan => simp [Binary64.sameNumber, doubleQuantity?]

/- Two numbers are the same if they are as much. -/
theorem Numeral.same_iff
    (a b : Numeral) :
    a.same b = true ↔
      ∃ q, a.quantity? = some q ∧ b.quantity? = some q := by
  -- A whole number and a double are compared in either order.
  have hMixed :
      ∀ (n : Int) (x : Binary64),
        x.isInt n = true ↔
          doubleQuantity? x =
            some (.units (n * Binary64.one)) := by
    intro n x
    cases x with
    | finite s u =>
        rw [isInt_iff_units, doubleQuantity?, Option.some.injEq,
          Quantity.units.injEq]
    | _ =>
        constructor
        · intro h
          cases h
        · intro h
          cases h
  cases a with
  | whole m =>
      cases b with
      | whole n =>
          have hOne : (Binary64.one : Int) ≠ 0 :=
            Int.natCast_ne_zero.mpr
              (Nat.pos_iff_ne_zero.mp Binary64.one_pos)
          simp only [Numeral.same, Numeral.quantity?,
            decide_eq_true_eq, Option.some.injEq,
            exists_eq_left', Quantity.units.injEq]
          exact eq_comm.trans
            (Int.mul_eq_mul_right_iff hOne).symm
      | double y =>
          simp only [Numeral.same, Numeral.quantity?, hMixed,
            Option.some.injEq, exists_eq_left']
  | double x =>
      cases b with
      | whole n =>
          simp only [Numeral.same, Numeral.quantity?, hMixed,
            Option.some.injEq, exists_eq_right']
      | double y => exact sameNumber_iff x y

theorem sameNumeral_iff
    (x y : Json) :
    x.sameNumeral y = true ↔
      ∃ q, x.quantity? = some q ∧ y.quantity? = some q := by
  unfold sameNumeral quantity?
  cases x.numeral? with
  | none => simp
  | some a =>
      cases y.numeral? with
      | none => simp
      | some b => exact Numeral.same_iff a b

----
-- Equality
----

/-
  Two values are equal: numbers by how much they are, lists
  item by item, and objects name by name.
-/
inductive Equal : Json → Json → Prop where
  | null : Equal .null .null
  | text (s : String) : Equal (.str s) (.str s)
  | number
      {x y : Json}
      {q : Quantity}
      (left : x.quantity? = some q)
      (right : y.quantity? = some q) :
      Equal x y
  | list
      {xs ys : List Json}
      (lengths : xs.length = ys.length)
      (items : ∀ p ∈ xs.zip ys, Equal p.1 p.2) :
      Equal (.arr xs) (.arr ys)
  | object
      {fs gs : Table String Json}
      (names : ∀ k, k ∈ Table.keys fs ↔ k ∈ Table.keys gs)
      (fields :
        ∀ k x y, Table.get? fs k = some x →
          Table.get? gs k = some y → Equal x y) :
      Equal (.obj fs) (.obj gs)

/- No NaN. -/
def NotNan : Json → Prop
  | .float .nan => False
  | _ => True

/- There is no NaN in a value. -/
def NanFree
    (x : Json) : Prop :=
  Throughout NotNan x

variable {x y : Json}
variable {xs ys : List Json}
variable {fs gs : Table String Json}

/- What counts as a number equals what is as much. -/
theorem equal_iff_of_numeral
    {a : Numeral}
    (h : x.numeral? = some a) :
    Equal x y ↔ x.sameNumeral y = true := by
  rw [sameNumeral_iff]
  constructor
  · intro hEqual
    cases hEqual with
    | number hLeft hRight => exact ⟨_, hLeft, hRight⟩
    | _ => cases h
  · rintro ⟨q, hLeft, hRight⟩
    exact .number hLeft hRight

----
-- Lists
----

theorem agreeItems_iff :
    agreeItems xs ys = true ↔
      xs.length = ys.length ∧
        ∀ p ∈ xs.zip ys, agrees p.1 p.2 = true := by
  induction xs generalizing ys with
  | nil => cases ys <;> simp [agreeItems]
  | cons x xs ih =>
      cases ys with
      | nil => simp [agreeItems]
      | cons y ys =>
          rw [agreeItems, Bool.and_eq_true, ih,
            List.zip_cons_cons, List.forall_mem_cons,
            List.length_cons, List.length_cons,
            Nat.add_right_cancel_iff]
          exact and_left_comm

/- Only a list agrees with a list. -/
theorem agrees_arr_iff :
    agrees (.arr xs) y = true ↔
      ∃ ys, y = .arr ys ∧ xs.length = ys.length ∧
        ∀ p ∈ xs.zip ys, agrees p.1 p.2 = true := by
  cases y with
  | arr ys =>
      rw [agrees, agreeItems_iff]
      simp only [arr.injEq, exists_eq_left']
  | _ => simp [agrees]

theorem equal_arr_iff :
    Equal (.arr xs) y ↔
      ∃ ys, y = .arr ys ∧ xs.length = ys.length ∧
        ∀ p ∈ xs.zip ys, Equal p.1 p.2 := by
  constructor
  · intro h
    cases h with
    | number hLeft _ => cases hLeft
    | list hLengths hItems => exact ⟨_, rfl, hLengths, hItems⟩
  · rintro ⟨ys, rfl, hLengths, hItems⟩
    exact .list hLengths hItems

----
-- Objects
----

/-
  Under distinct names, fields agree with as many others if
  both have the same names and agree under each of them.
-/
theorem agreeFields_iff_of_nodup
    (hNames : (Table.keys fs).Nodup)
    (hOthers : (Table.keys gs).Nodup) :
    (fs.length = gs.length ∧ agreeFields fs gs = true) ↔
      (∀ k, k ∈ Table.keys fs ↔ k ∈ Table.keys gs) ∧
        ∀ k x y, Table.get? fs k = some x →
          Table.get? gs k = some y → agrees x y = true := by
  have hLengths :
      (Table.keys fs).length = fs.length ∧
        (Table.keys gs).length = gs.length :=
    ⟨List.length_map _, List.length_map _⟩
  rw [agreeFields_iff]
  constructor
  · rintro ⟨hLength, hFields⟩
    have hSubset : Table.keys fs ⊆ Table.keys gs := by
      intro k hk
      rcases Table.mem_keys.mp hk with ⟨x, hx⟩
      rcases hFields (k, x) hx with ⟨y, hy, -⟩
      exact Table.mem_keys.mpr ⟨y, Table.mem_of_get? hy⟩
    have hPerm : (Table.keys fs).Perm (Table.keys gs) :=
      (hNames.subperm hSubset).perm_of_length_le (by omega)
    refine ⟨fun k => hPerm.mem_iff, ?_⟩
    intro k x y hx hy
    rcases hFields (k, x) (Table.mem_of_get? hx) with
      ⟨z, hz, hAgrees⟩
    cases hy.symm.trans hz
    exact hAgrees
  · rintro ⟨hSame, hFields⟩
    have hPerm : (Table.keys fs).Perm (Table.keys gs) :=
      (List.perm_ext_iff_of_nodup hNames hOthers).mpr hSame
    refine ⟨by have := hPerm.length_eq; omega, ?_⟩
    rintro ⟨k, x⟩ hMem
    have hFound := (hSame k).mp (Table.mem_keys.mpr ⟨x, hMem⟩)
    cases hOther : Table.get? gs k with
    | none =>
        exact absurd hFound (Table.get?_eq_none_iff.mp hOther)
    | some y =>
        exact ⟨y, rfl, hFields k x y
          (Table.get?_of_mem hNames hMem) hOther⟩

/- Only an object agrees with an object. -/
theorem agrees_obj_iff :
    agrees (.obj fs) y = true ↔
      ∃ gs, y = .obj gs ∧ fs.length = gs.length ∧
        agreeFields fs gs = true := by
  cases y with
  | obj gs =>
      rw [agrees, Bool.and_eq_true, decide_eq_true_eq]
      simp only [obj.injEq, exists_eq_left']
  | _ => simp [agrees]

theorem equal_obj_iff :
    Equal (.obj fs) y ↔
      ∃ gs, y = .obj gs ∧
        (∀ k, k ∈ Table.keys fs ↔ k ∈ Table.keys gs) ∧
          ∀ k x z, Table.get? fs k = some x →
            Table.get? gs k = some z → Equal x z := by
  constructor
  · intro h
    cases h with
    | number hLeft _ => cases hLeft
    | object hNames hFields => exact ⟨_, rfl, hNames, hFields⟩
  · rintro ⟨gs, rfl, hNames, hFields⟩
    exact .object hNames hFields

----
-- Values
----

theorem agrees_null_iff :
    agrees .null y = true ↔ Equal .null y := by
  constructor
  · intro h
    cases y with
    | null => exact .null
    | _ => cases h
  · intro h
    cases h with
    | null => rfl
    | number hLeft _ => cases hLeft

theorem agrees_str_iff
    {s : String} :
    agrees (.str s) y = true ↔ Equal (.str s) y := by
  constructor
  · intro h
    cases y with
    | str t =>
        cases of_decide_eq_true h
        exact .text s
    | _ => cases h
  · intro h
    cases h with
    | text => exact decide_eq_true rfl
    | number hLeft _ => cases hLeft

/- A double agrees with what is as much, unless it is a NaN. -/
theorem agrees_float_iff
    {z : Binary64}
    (hNan : NotNan y) :
    agrees (.float z) y = true ↔ Equal (.float z) y := by
  rw [equal_iff_of_numeral rfl]
  cases z with
  | nan =>
      cases y with
      | float w =>
          cases w with
          | nan => exact hNan.elim
          | _ => exact Iff.rfl
      | _ => exact Iff.rfl
  | _ => exact Iff.rfl

/-
  Values agree if they are equal.  The induction is on the
  first value; of the second one it is enough that no NaN is
  in it.
-/
theorem agrees_iff_equal
    (hx : Distinct x)
    (hy : Distinct y)
    (hNan : NanFree y) :
    agrees x y = true ↔ Equal x y := by
  induction hx generalizing y with
  | @intro x hNames hParts ih =>
      cases x with
      | null => exact agrees_null_iff
      | bool b => exact (equal_iff_of_numeral rfl).symm
      | int n => exact (equal_iff_of_numeral rfl).symm
      | float z => exact agrees_float_iff hNan.here
      | str s => exact agrees_str_iff
      | arr xs =>
          rw [agrees_arr_iff, equal_arr_iff]
          refine exists_congr fun ys => and_congr_right ?_
          rintro rfl
          refine and_congr_right fun _ => ?_
          refine forall₂_congr fun p hp => ?_
          rcases List.of_mem_zip hp with ⟨hLeft, hRight⟩
          exact ih p.1 hLeft
            ((throughout_arr_iff.mp hy).2 p.2 hRight)
            ((throughout_arr_iff.mp hNan).2 p.2 hRight)
      | obj fs =>
          rw [agrees_obj_iff, equal_obj_iff]
          refine exists_congr fun gs => and_congr_right ?_
          rintro rfl
          have hOthers := (distinct_obj_iff.mp hy).1
          rw [agreeFields_iff_of_nodup hNames hOthers]
          refine and_congr_right fun _ => ?_
          refine forall₃_congr fun k x z => ?_
          refine forall₂_congr fun hField hOther => ?_
          have hMem : x ∈ Table.values fs :=
            Table.mem_values.mpr ⟨k, Table.mem_of_get? hField⟩
          exact ih x hMem (hy.get? hOther) (hNan.get? hOther)

/- Equality is tested rightly where no NaN is put. -/
theorem same_iff_equal
    (hx : Distinct x)
    (hy : Distinct y)
    (hNan : NanFree y) :
    x.same y = true ↔ Equal x y := by
  rw [← agrees_iff_equal hx hy hNan]
  unfold same
  split
  next =>
    rw [agrees_float_iff hNan.here, equal_iff_of_numeral rfl,
      sameNumeral_iff]
    constructor
    · intro h
      cases h
    · rintro ⟨q, hLeft, -⟩
      cases hLeft
  next => exact Iff.rfl

end Json

end StyleCompanion
