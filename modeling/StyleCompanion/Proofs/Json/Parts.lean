import StyleCompanion.Json.Reader
import StyleCompanion.Proofs.Table

/-
  What holds throughout a value.

  A property holds throughout a value if it holds of the value
  and of everything in it.  Two such properties decide whether
  a value can be written and read again: no object has two
  fields of one name, and no number is a double.  What is read
  from a text has the first of them.

  Main declarations:
    * `Json.Throughout`
    * `Json.FieldStable`
    * `Json.Distinct`
    * `Json.DoubleFree`
    * `Json.distinct_readValue`
    * `Json.distinct_read`
-/

namespace StyleCompanion

namespace Json

----
-- Parts of a value
----

/- The items of a list and the values of an object. -/
def parts : Json → List Json
  | .arr xs => xs
  | .obj fs => Table.values fs
  | _ => []

/- A property of a value and of everything in it. -/
inductive Throughout
    (P : Json → Prop) : Json → Prop where
  | intro
      {x : Json}
      (here : P x)
      (parts : ∀ y ∈ x.parts, Throughout P y) :
      Throughout P x

variable {P Q : Json → Prop}

theorem throughout_arr_iff
    {xs : List Json} :
    Throughout P (.arr xs) ↔
      P (.arr xs) ∧ ∀ x ∈ xs, Throughout P x := by
  constructor
  · rintro ⟨hHere, hParts⟩
    exact ⟨hHere, hParts⟩
  · rintro ⟨hHere, hParts⟩
    exact ⟨hHere, hParts⟩

theorem throughout_obj_iff
    {fs : Table String Json} :
    Throughout P (.obj fs) ↔
      P (.obj fs) ∧ ∀ f ∈ fs, Throughout P f.2 := by
  constructor
  · rintro ⟨hHere, hParts⟩
    refine ⟨hHere, fun f hf => hParts f.2 ?_⟩
    exact List.mem_map.mpr ⟨f, hf, rfl⟩
  · rintro ⟨hHere, hFields⟩
    refine ⟨hHere, fun y hy => ?_⟩
    rcases List.mem_map.mp hy with ⟨f, hf, rfl⟩
    exact hFields f hf

/- A value without parts. -/
theorem throughout_of_parts_eq_nil
    {x : Json}
    (hHere : P x)
    (hParts : x.parts = []) :
    Throughout P x := by
  refine ⟨hHere, fun y hy => ?_⟩
  rw [hParts] at hy
  cases hy

theorem Throughout.here
    {x : Json}
    (h : Throughout P x) :
    P x := by
  cases h with
  | intro hHere _ => exact hHere

theorem Throughout.and
    {x : Json}
    (h : Throughout P x)
    (k : Throughout Q x) :
    Throughout (fun y => P y ∧ Q y) x := by
  induction h with
  | intro hHere hParts ih =>
      cases k with
      | intro kHere kParts =>
          exact ⟨⟨hHere, kHere⟩,
            fun y hy => ih y hy (kParts y hy)⟩

/- What holds throughout an object holds of a value in it. -/
theorem Throughout.get?
    {fs : Table String Json}
    {k : String}
    {x : Json}
    (h : Throughout P (.obj fs))
    (hFound : Table.get? fs k = some x) :
    Throughout P x :=
  (throughout_obj_iff.mp h).2 (k, x) (Table.mem_of_get? hFound)

theorem Throughout.imp
    {x : Json}
    (hImp : ∀ y, P y → Q y)
    (h : Throughout P x) :
    Throughout Q x := by
  induction h with
  | intro hHere hParts ih => exact ⟨hImp _ hHere, ih⟩

/- A property of objects that lasts when fields are put. -/
structure FieldStable
    (P : Json → Prop) : Prop where
  empty : P (.obj [])
  insert :
    ∀ fs k x, P (.obj fs) → P (.obj (Table.insert fs k x))

theorem FieldStable.throughout_empty
    (hP : FieldStable P) :
    Throughout P (.obj []) :=
  throughout_of_parts_eq_nil hP.empty rfl

/- A field may be replaced or added. -/
theorem FieldStable.throughout_insert
    {fs : Table String Json}
    {x : Json}
    (hP : FieldStable P)
    (h : Throughout P (.obj fs))
    (k : String)
    (hx : Throughout P x) :
    Throughout P (.obj (Table.insert fs k x)) := by
  rcases throughout_obj_iff.mp h with ⟨hHere, hFields⟩
  refine throughout_obj_iff.mpr ⟨hP.insert fs k x hHere, ?_⟩
  intro f hf
  rcases Table.eq_or_mem_of_mem_insert hf with hEq | hOld
  · rw [hEq]
    exact hx
  · exact hFields f hOld

----
-- Names and numbers
----

/- No two fields of an object have one name. -/
def NamesDiffer : Json → Prop
  | .obj fs => (Table.keys fs).Nodup
  | _ => True

/- No double. -/
def NotDouble : Json → Prop
  | .float _ => False
  | _ => True

/- No object in a value has two fields of one name. -/
def Distinct
    (x : Json) : Prop :=
  Throughout NamesDiffer x

/- There is no double in a value. -/
def DoubleFree
    (x : Json) : Prop :=
  Throughout NotDouble x

theorem distinct_str
    (s : String) :
    Distinct (.str s) :=
  throughout_of_parts_eq_nil trivial rfl

theorem distinct_arr_of
    {xs : List Json}
    (h : ∀ x ∈ xs, Distinct x) :
    Distinct (.arr xs) :=
  throughout_arr_iff.mpr ⟨trivial, h⟩

theorem distinct_obj_iff
    {fs : Table String Json} :
    Distinct (.obj fs) ↔
      (Table.keys fs).Nodup ∧ ∀ f ∈ fs, Distinct f.2 :=
  throughout_obj_iff

theorem fieldStable_namesDiffer : FieldStable NamesDiffer where
  empty := List.nodup_nil
  insert _ k x h := Table.nodup_keys_insert h k x

theorem fieldStable_notDouble : FieldStable NotDouble where
  empty := trivial
  insert _ _ _ _ := trivial

/- Nothing of either kind stands in the way of writing. -/
def Tidy
    (x : Json) : Prop :=
  Throughout (fun y => NamesDiffer y ∧ NotDouble y) x

theorem tidy_str
    (s : String) :
    Tidy (.str s) :=
  throughout_of_parts_eq_nil ⟨trivial, trivial⟩ rfl

theorem tidy_int
    (n : Int) :
    Tidy (.int n) :=
  throughout_of_parts_eq_nil ⟨trivial, trivial⟩ rfl

theorem tidy_bool
    (b : Bool) :
    Tidy (.bool b) :=
  throughout_of_parts_eq_nil ⟨trivial, trivial⟩ rfl

theorem tidy_texts
    (texts : List String) :
    Tidy (.arr (texts.map .str)) := by
  refine throughout_arr_iff.mpr ⟨⟨trivial, trivial⟩, ?_⟩
  intro x hx
  rcases List.mem_map.mp hx with ⟨s, -, rfl⟩
  exact tidy_str s

theorem tidy_obj_iff
    {fs : Table String Json} :
    Tidy (.obj fs) ↔
      (Table.keys fs).Nodup ∧ ∀ f ∈ fs, Tidy f.2 :=
  throughout_obj_iff.trans
    (and_congr_left' (and_iff_left trivial))

----
-- Deciding on doubles
----

mutual

/- Whether there is no double in a value. -/
def isDoubleFree : Json → Bool
  | .float _ => false
  | .arr xs => itemsDoubleFree xs
  | .obj fs => fieldsDoubleFree fs
  | _ => true

/- Whether there is no double in the items of a list. -/
def itemsDoubleFree : List Json → Bool
  | [] => true
  | x :: xs => isDoubleFree x && itemsDoubleFree xs

/- Whether there is no double in the values of fields. -/
def fieldsDoubleFree : List (String × Json) → Bool
  | [] => true
  | (_, x) :: fs => isDoubleFree x && fieldsDoubleFree fs

end

theorem itemsDoubleFree_iff
    {xs : List Json} :
    itemsDoubleFree xs = true ↔
      ∀ x ∈ xs, isDoubleFree x = true := by
  induction xs with
  | nil => simp [itemsDoubleFree]
  | cons x xs ih =>
      rw [itemsDoubleFree, Bool.and_eq_true, ih,
        List.forall_mem_cons]

theorem fieldsDoubleFree_iff
    {fs : List (String × Json)} :
    fieldsDoubleFree fs = true ↔
      ∀ f ∈ fs, isDoubleFree f.2 = true := by
  induction fs with
  | nil => simp [fieldsDoubleFree]
  | cons f fs ih =>
      rcases f with ⟨k, x⟩
      rw [fieldsDoubleFree, Bool.and_eq_true, ih,
        List.forall_mem_cons]

theorem doubleFree_of_isDoubleFree
    (x : Json)
    (h : isDoubleFree x = true) :
    DoubleFree x := by
  match x with
  | .float _ => cases h
  | .arr xs =>
      rw [isDoubleFree, itemsDoubleFree_iff] at h
      exact throughout_arr_iff.mpr ⟨trivial, fun y hy =>
        doubleFree_of_isDoubleFree y (h y hy)⟩
  | .obj fs =>
      rw [isDoubleFree, fieldsDoubleFree_iff] at h
      exact throughout_obj_iff.mpr ⟨trivial, fun f hf =>
        doubleFree_of_isDoubleFree f.2 (h f hf)⟩
  | .null => exact throughout_of_parts_eq_nil trivial rfl
  | .bool _ => exact throughout_of_parts_eq_nil trivial rfl
  | .int _ => exact throughout_of_parts_eq_nil trivial rfl
  | .str _ => exact throughout_of_parts_eq_nil trivial rfl
termination_by sizeOf x
decreasing_by
  · have hSize := List.sizeOf_lt_of_mem hy
    simp only [arr.sizeOf_spec]
    omega
  · have hSize := List.sizeOf_lt_of_mem hf
    rcases f with ⟨k, y⟩
    simp only [Prod.mk.sizeOf_spec, obj.sizeOf_spec]
      at hSize ⊢
    omega

theorem isDoubleFree_iff
    (x : Json) :
    isDoubleFree x = true ↔ DoubleFree x := by
  refine ⟨doubleFree_of_isDoubleFree x, fun h => ?_⟩
  induction h with
  | @intro x hHere hParts ih =>
      cases x with
      | float y => exact hHere.elim
      | arr xs => exact itemsDoubleFree_iff.mpr ih
      | obj fs =>
          refine fieldsDoubleFree_iff.mpr fun f hf => ?_
          exact ih f.2 (List.mem_map_of_mem hf)
      | _ => rfl

instance
    (x : Json) :
    Decidable (DoubleFree x) :=
  decidable_of_iff _ (isDoubleFree_iff x)

----
-- Values that are read
----

/- Numbers and named values have no parts. -/
theorem distinct_readAtom
    {cs rest : List Char}
    {x : Json}
    (h : readAtom cs = .ok (x, rest)) :
    Distinct x := by
  have hNamed :
      ∀ p ∈ namedValues, Distinct p.2 := by
    intro p hp
    simp only [namedValues, List.mem_cons, List.not_mem_nil,
      or_false] at hp
    rcases hp with rfl | rfl | rfl | rfl | rfl | rfl <;>
      exact throughout_of_parts_eq_nil trivial rfl
  have hUnsigned :
      ∀ negative ds, readUnsigned negative ds = some (x, rest) →
        Distinct x := by
    intro negative ds hRead
    unfold readUnsigned at hRead
    split at hRead
    · cases hRead
    · dsimp only at hRead
      split at hRead
      · cases hRead
        exact throughout_of_parts_eq_nil trivial rfl
      · split at hRead
        · cases hRead
          exact throughout_of_parts_eq_nil trivial rfl
        · cases hRead
          exact throughout_of_parts_eq_nil trivial rfl
  unfold readAtom at h
  split at h
  next r hFound =>
    cases h
    rcases List.exists_of_findSome?_eq_some hFound with
      ⟨p, hp, hAfter⟩
    rcases Option.map_eq_some_iff.mp hAfter with
      ⟨after, -, hEq⟩
    cases hEq
    exact hNamed p hp
  next =>
    split at h
    next r hNumber =>
      cases h
      unfold readNumber at hNumber
      split at hNumber
      · exact hUnsigned true _ hNumber
      · exact hUnsigned false _ hNumber
    next => cases h

/-
  What is read has distinct names, by induction on the fuel.
  The fields of an object are added to a table one by one.
-/
theorem distinct_readValue
    (fuel : Nat) :
    (∀ cs x rest,
        readValue fuel cs = .ok (x, rest) → Distinct x) ∧
      (∀ cs xs rest,
        readItems fuel cs = .ok (xs, rest) →
          Distinct (.arr xs)) ∧
      ∀ acc cs fs rest,
        Distinct (.obj acc) →
          readFields fuel acc cs = .ok (fs, rest) →
            Distinct (.obj fs) := by
  induction fuel with
  | zero =>
      refine ⟨?_, ?_, ?_⟩
      · intro cs x rest h
        rw [readValue] at h
        cases h
      · intro cs xs rest h
        rw [readItems] at h
        cases h
      · intro acc cs fs rest _ h
        rw [readFields] at h
        cases h
  | succ n ih =>
      rcases ih with ⟨ihValue, ihItems, ihFields⟩
      refine ⟨?_, ?_, ?_⟩
      · intro cs x rest h
        unfold readValue at h
        split at h
        next =>
          split at h
          · cases h
            exact distinct_str _
          · cases h
        next =>
          split at h
          · cases h
            exact throughout_of_parts_eq_nil trivial rfl
          · split at h
            next hItems =>
              cases h
              exact ihItems _ _ _ hItems
            next => cases h
        next =>
          split at h
          · cases h
            exact throughout_of_parts_eq_nil List.nodup_nil rfl
          · split at h
            next hFields =>
              cases h
              refine ihFields _ _ _ _ ?_ hFields
              exact throughout_of_parts_eq_nil List.nodup_nil
                rfl
            next => cases h
        next => exact distinct_readAtom h
      · intro cs xs rest h
        unfold readItems at h
        split at h
        next => cases h
        next x after hValue =>
          have hHead := ihValue _ _ _ hValue
          split at h
          next =>
            cases h
            apply distinct_arr_of
            intro y hy
            rw [List.mem_singleton.mp hy]
            exact hHead
          next =>
            split at h
            next ys last hItems =>
              cases h
              have hTail := ihItems _ _ _ hItems
              apply distinct_arr_of
              intro y hy
              rcases List.mem_cons.mp hy with rfl | hRest
              · exact hHead
              · exact (throughout_arr_iff.mp hTail).2 y hRest
            next => cases h
          next => cases h
      · intro acc cs fs rest hAcc h
        unfold readFields at h
        split at h
        next =>
          split at h
          next => cases h
          next name after hName =>
            split at h
            next =>
              split at h
              next => cases h
              next x after₁ hValue =>
                have hNext :=
                  fieldStable_namesDiffer.throughout_insert hAcc
                    (String.ofList name) (ihValue _ _ _ hValue)
                dsimp only at h
                split at h
                next =>
                  cases h
                  exact hNext
                next => exact ihFields _ _ _ _ hNext h
                next => cases h
            next => cases h
        next => cases h

theorem distinct_read
    {cs : List Char}
    {x : Json}
    (h : read cs = .ok x) :
    Distinct x := by
  unfold read at h
  split at h
  · cases h
  · split at h
    next => cases h
    next y after hValue =>
      split at h
      next =>
        cases h
        exact (distinct_readValue _).1 _ _ _ hValue
      next => cases h

end Json

end StyleCompanion
