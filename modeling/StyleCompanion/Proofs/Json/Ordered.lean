import StyleCompanion.Json.Writer
import StyleCompanion.Proofs.Json.Parts

/-
  Values with sorted fields.

  A saved text has the fields of every object sorted by name,
  so what is read from it is the value with its fields sorted.
  That is a value equal to the first, since the order of fields
  does not count.

  Main declarations:
    * `Json.ordered`
    * `Json.sortFields_eq_of_perm`
    * `Json.ordered_obj`
    * `Json.get?_ordered`
    * `Json.agrees_ordered`
    * `Json.agreeFields_iff`
-/

namespace StyleCompanion

namespace Json

----
-- Sorting
----

/- Fields sorted by name. -/
def sortFields
    (fs : Table String Json) : Table String Json :=
  fs.mergeSort fun f g => decide (f.1 ≤ g.1)

mutual

/- A value with the fields of every object in it sorted. -/
def ordered : Json → Json
  | .arr xs => .arr (orderedItems xs)
  | .obj fs => .obj (sortFields (orderedFields fs))
  | x => x

/- The items of a list with sorted fields. -/
def orderedItems : List Json → List Json
  | [] => []
  | x :: xs => ordered x :: orderedItems xs

/- The values of fields with sorted fields. -/
def orderedFields : List (String × Json) → List (String × Json)
  | [] => []
  | (k, x) :: fs => (k, ordered x) :: orderedFields fs

end

theorem sortFields_perm
    (fs : Table String Json) :
    (sortFields fs).Perm fs :=
  List.mergeSort_perm fs _

theorem pairwise_sortFields
    (fs : Table String Json) :
    (sortFields fs).Pairwise fun f g =>
      decide (f.1 ≤ g.1) = true := by
  apply List.pairwise_mergeSort
  · intro f g h hfg hgh
    rw [decide_eq_true_eq] at hfg hgh ⊢
    exact String.le_trans hfg hgh
  · intro f g
    rw [Bool.or_eq_true, decide_eq_true_eq, decide_eq_true_eq]
    exact String.le_total f.1 g.1

/- Under distinct names there is one order to sort fields in. -/
theorem sortFields_eq_of_perm
    {fs gs : Table String Json}
    (hNames : (Table.keys fs).Nodup)
    (hPerm : fs.Perm gs) :
    sortFields fs = sortFields gs := by
  refine List.Perm.eq_of_pairwise ?_ (pairwise_sortFields fs)
    (pairwise_sortFields gs)
    ((sortFields_perm fs).trans
      (hPerm.trans (sortFields_perm gs).symm))
  intro f g hf hg hfg hgf
  rw [decide_eq_true_eq] at hfg hgf
  have hMem := (sortFields_perm fs).mem_iff.mp hf
  have hOther := hPerm.mem_iff.mpr
    ((sortFields_perm gs).mem_iff.mp hg)
  have hName : f.1 = g.1 := String.le_antisymm hfg hgf
  have hFound := Table.get?_of_mem hNames hMem
  have hSame := Table.get?_of_mem hNames hOther
  rw [hName, hSame] at hFound
  exact Prod.ext hName (Option.some.inj hFound).symm

theorem orderedItems_eq
    (xs : List Json) :
    orderedItems xs = xs.map ordered := by
  induction xs with
  | nil => rfl
  | cons x xs ih => rw [orderedItems, ih, List.map_cons]

theorem orderedFields_eq
    (fs : Table String Json) :
    orderedFields fs = fs.map fun f => (f.1, ordered f.2) := by
  induction fs with
  | nil => rfl
  | cons f fs ih =>
      rcases f with ⟨k, x⟩
      rw [orderedFields, ih, List.map_cons]

theorem orderedFields_insert
    (fs : Table String Json)
    (k : String)
    (x : Json) :
    orderedFields (Table.insert fs k x) =
      Table.insert (orderedFields fs) k x.ordered := by
  induction fs with
  | nil => rfl
  | cons f fs ih =>
      rcases f with ⟨l, y⟩
      by_cases hEq : l = k
      · rw [Table.insert, if_pos hEq, orderedFields,
          orderedFields, Table.insert, if_pos hEq]
      · rw [Table.insert, if_neg hEq, orderedFields, ih,
          orderedFields, Table.insert, if_neg hEq]

theorem ordered_arr
    (xs : List Json) :
    ordered (.arr xs) = .arr (xs.map ordered) := by
  rw [ordered, orderedItems_eq]

/- Sorting does not look at the values of fields. -/
theorem ordered_obj
    (fs : Table String Json) :
    ordered (.obj fs) =
      .obj ((sortFields fs).map fun f => (f.1, ordered f.2)) := by
  rw [ordered, orderedFields_eq, sortFields, sortFields,
    List.map_mergeSort]
  intro f _ g _
  rfl

/- A field of a sorted object is a field of the object. -/
theorem get?_ordered
    {fs : Table String Json}
    (h : (Table.keys fs).Nodup)
    (k : String) :
    Table.get?
        ((sortFields fs).map fun f => (f.1, ordered f.2)) k =
      (Table.get? fs k).map ordered := by
  rw [Table.get?_map_values, Table.get?_of_perm
    (sortFields_perm fs).symm h]

----
-- Equality
----

/- Fields agree if each finds one that it agrees with. -/
theorem agreeFields_iff
    {fs gs : Table String Json} :
    agreeFields fs gs = true ↔
      ∀ f ∈ fs, ∃ y,
        Table.get? gs f.1 = some y ∧ agrees f.2 y = true := by
  induction fs with
  | nil => simp [agreeFields]
  | cons f fs ih =>
      rcases f with ⟨k, x⟩
      rw [agreeFields, Bool.and_eq_true, ih,
        List.forall_mem_cons]
      refine and_congr_left fun _ => ?_
      cases hField : Table.get? gs k with
      | none => simp
      | some y => simp

theorem agreeItems_map_iff
    {f : Json → Json}
    {xs : List Json} :
    agreeItems (xs.map f) xs = true ↔
      ∀ x ∈ xs, agrees (f x) x = true := by
  induction xs with
  | nil => simp [agreeItems]
  | cons x xs ih =>
      rw [List.map_cons, agreeItems, Bool.and_eq_true, ih,
        List.forall_mem_cons]

/- Values without parts agree with themselves. -/
theorem agrees_self_of_parts_eq_nil
    {x : Json}
    (h : x.parts = []) :
    agrees x x = true := by
  cases x with
  | arr xs =>
      have hNil : xs = [] := h
      subst hNil
      rfl
  | obj fs =>
      have hNil : fs = [] := List.map_eq_nil_iff.mp h
      subst hNil
      rfl
  | float y =>
      cases y <;>
        simp [agrees, sameNumeral, numeral?, Numeral.same,
          Binary64.sameNumber]
  | _ => simp [agrees, sameNumeral, numeral?, Numeral.same]

/- A value agrees with itself after its fields were sorted. -/
theorem agrees_ordered
    {x : Json}
    (h : Distinct x) :
    agrees (ordered x) x = true := by
  induction h with
  | @intro x hNames hParts ih =>
      cases x with
      | arr xs =>
          rw [ordered_arr, agrees]
          exact agreeItems_map_iff.mpr ih
      | obj fs =>
          have hLength :
              ((sortFields fs).map
                fun f => (f.1, ordered f.2)).length =
                fs.length := by
            rw [List.length_map, (sortFields_perm fs).length_eq]
          rw [ordered_obj, agrees, hLength, decide_eq_true rfl,
            Bool.true_and, agreeFields_iff]
          intro g hg
          rcases List.mem_map.mp hg with ⟨f, hf, rfl⟩
          have hMem := (sortFields_perm fs).mem_iff.mp hf
          exact ⟨f.2, Table.get?_of_mem hNames hMem,
            ih f.2 (List.mem_map_of_mem hMem)⟩
      | _ => exact agrees_self_of_parts_eq_nil rfl

end Json

end StyleCompanion
