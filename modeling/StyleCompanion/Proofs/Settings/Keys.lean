import StyleCompanion.Proofs.Json.Equality
import StyleCompanion.Proofs.Settings.Honesty

/-
  Laws of keys with dots.

  What is put under a key is found under it, and the last value
  that is put under a key counts.  Keys of which neither leads
  along the other do not get in each other's way: what is read
  under one of them stays when the other is set, even if that
  puts an object in place of something else, and the order in
  which both are set decides on the order of fields alone.  A
  store that is given the value it has does nothing.

  Main declarations:
    * `Json.alike_of_perm`
    * `Tree.assign_cons`
    * `Tree.assign_assign_self`
    * `Tree.alike_assign_assign`
    * `SettingsStore.set_eq_of_equal`
    * `SettingsStore.set_eq_of_not_equal`
    * `SettingsStore.keys_obey_store_laws`
-/

namespace StyleCompanion

----
-- Order of fields
----

namespace Json

variable {fs gs : Table String Json}

/- Objects with the same fields are alike. -/
theorem alike_of_perm
    (hNames : (Table.keys fs).Nodup)
    (hPerm : fs.Perm gs) :
    Alike (.obj fs) (.obj gs) := by
  unfold Alike
  rw [ordered_obj, ordered_obj,
    sortFields_eq_of_perm hNames hPerm]

/- Fields that are alike may be exchanged. -/
theorem Alike.insert
    {x y : Json}
    (h : Alike x y)
    (fs : Table String Json)
    (k : String) :
    Alike (.obj (Table.insert fs k x))
      (.obj (Table.insert fs k y)) := by
  unfold Alike at h ⊢
  rw [ordered, ordered, orderedFields_insert,
    orderedFields_insert, h]

end Json

namespace Path

/- A text has at least one part. -/
theorem splitOnChar_ne_nil
    (sep : Char)
    (cs : List Char) :
    splitOnChar sep cs ≠ [] := by
  unfold splitOnChar
  split
  · exact List.cons_ne_nil _ _
  · split
    · exact List.cons_ne_nil _ _
    · split <;> exact List.cons_ne_nil _ _

end Path

namespace Tree

open Json

variable {t : Tree}
variable {path other : List String}

----
-- Two assignments
----

/- What a field holds after something was put below it. -/
def branch
    (t : Tree)
    (part : String)
    (rest : List String)
    (v : Json) : Json :=
  match rest with
  | [] => v
  | _ => .obj (assign (childAt t part) rest v)

theorem branch_cons
    (t : Tree)
    (part next : String)
    (rest : List String)
    (v : Json) :
    branch t part (next :: rest) v =
      .obj (assign (childAt t part) (next :: rest) v) := rfl

/- An assignment changes the field that its path begins with. -/
theorem assign_cons
    (t : Tree)
    (part : String)
    (rest : List String)
    (v : Json) :
    assign t (part :: rest) v =
      Table.insert t part (branch t part rest v) := by
  cases rest <;> rfl

theorem childAt_insert_self
    (t : Tree)
    (part : String)
    (fs : Tree) :
    childAt (Table.insert t part (.obj fs)) part = fs := by
  unfold childAt
  rw [Table.get?_insert_self]

theorem branch_insert_of_ne
    {part first : String}
    (hNe : first ≠ part)
    (t : Tree)
    (x : Json)
    (rest : List String)
    (v : Json) :
    branch (Table.insert t first x) part rest v =
      branch t part rest v := by
  unfold branch childAt
  rw [Table.get?_insert, if_neg hNe]

/- The last value at a path counts. -/
theorem assign_assign_self
    (t : Tree)
    (path : List String)
    (v w : Json) :
    assign (assign t path v) path w = assign t path w := by
  induction path generalizing t with
  | nil => rfl
  | cons part rest ih =>
      rw [assign_cons, assign_cons, Table.insert_insert_self,
        assign_cons]
      cases rest with
      | nil => rfl
      | cons next rest =>
          rw [branch_cons, branch_cons, branch_cons,
            childAt_insert_self, ih]

theorem distinct_childAt
    (h : Distinct (.obj t))
    (part : String) :
    Distinct (.obj (childAt t part)) := by
  unfold childAt
  split
  next fs hField => exact h.get? hField
  next => exact fieldStable_namesDiffer.throughout_empty

/-
  Assignments at paths apart may come in either order.  Where
  the paths part, two fields of one object are set; before,
  both go down into the same field.
-/
theorem alike_assign_assign
    (hNames : Distinct (.obj t))
    (hApart : Apart path other)
    (v w : Json) :
    Alike (.obj (assign (assign t path v) other w))
      (.obj (assign (assign t other w) path v)) := by
  induction path generalizing t other with
  | nil => exact absurd List.nil_prefix hApart.1
  | cons part rest ih =>
      cases other with
      | nil => exact absurd List.nil_prefix hApart.2
      | cons first others =>
          simp only [assign_cons]
          by_cases hEq : part = first
          · subst hEq
            have hTail := hApart.tail
            rw [Table.insert_insert_self,
              Table.insert_insert_self]
            refine Alike.insert ?_ t part
            cases rest with
            | nil => exact absurd List.nil_prefix hTail.1
            | cons next rest =>
                cases others with
                | nil => exact absurd List.nil_prefix hTail.2
                | cons second others =>
                    simp only [branch_cons,
                      childAt_insert_self]
                    exact ih (distinct_childAt hNames part)
                      hTail
          · rw [branch_insert_of_ne hEq,
              branch_insert_of_ne (Ne.symm hEq)]
            have hKeys := (distinct_obj_iff.mp hNames).1
            apply alike_of_perm
            · exact Table.nodup_keys_insert
                (Table.nodup_keys_insert hKeys _ _) _ _
            · exact Table.insert_insert_perm hEq t _ _

/- Every key but the empty one can be set. -/
theorem set_eq_ok
    {key : String}
    (h : key ≠ "")
    (t : Tree)
    (v : Json) :
    set t key v = .ok (assign t (keyPath key) v) := by
  unfold set
  rw [if_neg (by simpa using h)]

theorem keyPath_ne_nil
    {key : String}
    (h : key ≠ "") :
    keyPath key ≠ [] := by
  unfold keyPath
  rw [if_neg (by simpa using h), ne_eq, List.map_eq_nil_iff]
  exact Path.splitOnChar_ne_nil '.' key.toList

end Tree

----
-- Stores
----

namespace SettingsStore

open Json

variable {s : SettingsStore}
variable {key : String}
variable {v : Json}

theorem distinct_get
    (h : Distinct (.obj s.data))
    (key : String) :
    Distinct (s.get key .null) := by
  unfold get Tree.get
  cases hFound : Tree.lookup (.obj s.data) (Tree.keyPath key)
    with
  | none => exact throughout_of_parts_eq_nil trivial rfl
  | some x => exact Tree.throughout_of_lookup h hFound

/- A store that has the value already does nothing. -/
theorem set_eq_of_equal
    (hNames : Distinct (.obj s.data))
    (key : String)
    (hv : Distinct v)
    (hNan : NanFree v)
    (h : Equal (s.get key .null) v) :
    s.set key v = (s, .ok false) := by
  have hSame :=
    (same_iff_equal (distinct_get hNames key) hv hNan).mpr h
  unfold set
  rw [if_pos hSame]

/- Otherwise the value is put, and the store is dirty. -/
theorem set_eq_of_not_equal
    (hNames : Distinct (.obj s.data))
    (hv : Distinct v)
    (hNan : NanFree v)
    (hKey : key ≠ "")
    (h : ¬ Equal (s.get key .null) v) :
    s.set key v =
      ({ s with
          data := Tree.assign s.data (Tree.keyPath key) v
          dirty := true }, .ok true) := by
  have hOther :=
    (same_iff_equal (distinct_get hNames key) hv hNan).not.mpr h
  unfold set
  rw [if_neg hOther, Tree.set_eq_ok hKey]

/-
  A value that is put under a key is found under it, and a
  second value takes its place as if it were the first.  A key
  apart from it reads as before, and if both are set, in either
  order, the same settings come out but for the order of their
  fields.  A store refuses exactly the value that it has and is
  as it was then; it takes any other one and is dirty.
-/
theorem keys_obey_store_laws
    {t : Tree}
    (hNames : Distinct (.obj t))
    (key other : String)
    (hKey : key ≠ "")
    (hOther : other ≠ "")
    (v w : Json) :
    ∃ u, Tree.set t key v = .ok u ∧
      (∀ default, Tree.get (.obj u) key default = v) ∧
      Tree.set u key w = Tree.set t key w ∧
      (Tree.Apart (Tree.keyPath key) (Tree.keyPath other) →
        (∀ default,
          Tree.get (.obj u) other default =
            Tree.get (.obj t) other default) ∧
        ∃ x y z, Tree.set t other w = .ok x ∧
          Tree.set u other w = .ok y ∧
          Tree.set x key v = .ok z ∧
          Alike (.obj y) (.obj z)) ∧
      ∀ s : SettingsStore, s.data = t →
        Distinct v → NanFree v →
        ((s.set key v).2 = .ok false ↔
          Equal (s.get key .null) v) ∧
        (Equal (s.get key .null) v → (s.set key v).1 = s) ∧
        (¬ Equal (s.get key .null) v →
          (s.set key v).2 = .ok true ∧
          (s.set key v).1 =
            { s with data := u, dirty := true } ∧
          ∀ default,
            (s.set key v).1.get key default = v) := by
  have hFound :
      ∀ default,
        Tree.get (.obj (Tree.assign t (Tree.keyPath key) v)) key
          default = v := by
    intro default
    rw [Tree.get, Tree.lookup_assign_self t
      (Tree.keyPath_ne_nil hKey), Option.getD_some]
  refine ⟨_, Tree.set_eq_ok hKey t v, hFound, ?_, ?_, ?_⟩
  · rw [Tree.set_eq_ok hKey, Tree.set_eq_ok hKey,
      Tree.assign_assign_self]
  · intro hApart
    refine ⟨fun default => ?_, _, _, _,
      Tree.set_eq_ok hOther t w, Tree.set_eq_ok hOther _ w,
      Tree.set_eq_ok hKey _ v,
      Tree.alike_assign_assign hNames hApart v w⟩
    rw [Tree.get, Tree.lookup_assign_of_apart t hApart,
      Tree.get]
  · rintro s rfl hv hNan
    have hRefuse := set_eq_of_equal hNames key hv hNan
    have hTake := set_eq_of_not_equal hNames hv hNan hKey
    refine ⟨⟨fun hFalse => ?_, fun hEqual => ?_⟩, ?_, ?_⟩
    · by_contra hNot
      rw [hTake hNot] at hFalse
      cases hFalse
    · rw [hRefuse hEqual]
    · intro hEqual
      rw [hRefuse hEqual]
    · intro hNot
      rw [hTake hNot]
      exact ⟨rfl, rfl, hFound⟩

/-
  A store with a number where a section could be, and with a
  section in which one name is empty.
-/
def crossed : SettingsStore where
  path := "settings.json"
  defaults := []
  data := [("a", .int 5), ("b", .obj [("", .int 1)])]
  dirty := false
  lastError := none

theorem distinct_crossed :
    Distinct (.obj crossed.data) := by
  have hTidy : Tidy (.obj crossed.data) := by
    simp only [crossed, tidy_obj_iff, List.forall_mem_cons,
      List.not_mem_nil, false_imp_iff, forall_const, and_true,
      tidy_int]
    decide
  exact hTidy.imp fun _ h => h.1

/-
  A key below the number can be set, which makes a section of
  it and leaves the other section alone.  A truth value is no
  news where the number one is.
-/
theorem crossed_obeys_store_laws :
    Tree.Apart (Tree.keyPath "a.x") (Tree.keyPath "b.") ∧
      (∃ u, Tree.set crossed.data "a.x" .null = .ok u ∧
        Tree.get (.obj u) "a.x" (.int 0) = .null ∧
        Tree.get (.obj u) "b." .null = .int 1) ∧
      (crossed.set "a.x" (.bool true)).2 = .ok true ∧
      (crossed.set "a.x" (.bool true)).1.dirty = true ∧
      crossed.set "b." (.bool true) = (crossed, .ok false) := by
  have hApart :
      Tree.Apart (Tree.keyPath "a.x") (Tree.keyPath "b.") := by
    decide
  have hDistinct : Distinct (.bool true) :=
    throughout_of_parts_eq_nil trivial rfl
  have hNan : NanFree (.bool true) :=
    throughout_of_parts_eq_nil trivial rfl
  have hAbsent :
      ¬ Equal (crossed.get "a.x" .null) (.bool true) := by
    intro h
    cases h with
    | number hLeft _ => cases hLeft
  have hThere :
      Equal (crossed.get "b." .null) (.bool true) :=
    .number (x := .int 1) rfl rfl
  have hLaws := keys_obey_store_laws distinct_crossed
  rcases hLaws "a.x" "b." (by decide) (by decide) .null .null
    with ⟨u, hSet, hFound, -, hFrame, -⟩
  rcases hLaws "a.x" "b." (by decide) (by decide) (.bool true)
      .null with
    ⟨_, -, -, -, -, hTakes⟩
  rcases hLaws "b." "a.x" (by decide) (by decide) (.bool true)
      .null with
    ⟨_, -, -, -, -, hRefuses⟩
  rcases (hTakes crossed rfl hDistinct hNan).2.2 hAbsent with
    ⟨hTaken, hStore, -⟩
  rcases hRefuses crossed rfl hDistinct hNan with
    ⟨hFalse, hSame, -⟩
  refine ⟨hApart, ⟨u, hSet, hFound _, ?_⟩, hTaken, ?_, ?_⟩
  · exact (hFrame hApart).1 .null
  · rw [hStore]
  · exact Prod.ext (hSame hThere) (hFalse.mpr hThere)

end SettingsStore

end StyleCompanion
