import Mathlib.Data.List.Nodup
import StyleCompanion.Table

/-
  Laws of tables.

  Main declarations:
    * `Table.get?_erase_self`
    * `Table.insert_of_notMem_keys`
    * `Table.get?_eq_none_iff`
    * `Table.get?_of_mem`
    * `Table.insert_perm`
    * `Table.insert_insert_self`
    * `Table.insert_insert_perm`
-/

namespace StyleCompanion

namespace Table

variable {α β : Type}

@[simp] theorem keys_cons
    (k : α)
    (v : β)
    (t : Table α β) :
    keys ((k, v) :: t) = k :: keys t := rfl

theorem keys_append
    (t u : Table α β) :
    keys (t ++ u) = keys t ++ keys u :=
  List.map_append

/- A key that comes once does not come before. -/
theorem notMem_keys_of_nodup
    {t u : Table α β}
    {k : α}
    {v : β}
    (h : (keys (t ++ (k, v) :: u)).Nodup) :
    k ∉ keys t := by
  rw [keys_append, keys_cons, List.nodup_append] at h
  intro hMem
  exact h.2.2 k hMem k (by simp) rfl

theorem mem_values
    {t : Table α β}
    {v : β} :
    v ∈ values t ↔ ∃ k, (k, v) ∈ t := by
  simp [values]

theorem mem_keys
    {t : Table α β}
    {k : α} :
    k ∈ keys t ↔ ∃ v, (k, v) ∈ t := by
  simp [keys]

variable [DecidableEq α]

theorem get?_insert_self
    (t : Table α β)
    (k : α)
    (v : β) :
    get? (insert t k v) k = some v := by
  rw [get?_insert, if_pos rfl]

/- A key that was erased has no value. -/
theorem get?_erase_self
    (t : Table α β)
    (k : α) :
    get? (erase t k) k = none := by
  rw [get?_erase, if_pos rfl]

/- A new key is inserted behind the others. -/
theorem insert_of_notMem_keys
    {t : Table α β}
    {k : α}
    (h : k ∉ keys t)
    (v : β) :
    insert t k v = t ++ [(k, v)] := by
  induction t with
  | nil => rfl
  | cons e rest ih =>
      rcases e with ⟨l, w⟩
      rw [keys_cons, List.mem_cons, not_or] at h
      rw [insert, if_neg (Ne.symm h.1), ih h.2]
      rfl

/- A value that is there already changes nothing. -/
theorem insert_of_get?
    {t : Table α β}
    {k : α}
    {v : β}
    (h : get? t k = some v) :
    insert t k v = t := by
  induction t with
  | nil => cases h
  | cons e rest ih =>
      rcases e with ⟨l, w⟩
      rw [get?] at h
      rw [insert]
      by_cases hEq : l = k
      · rw [if_pos hEq] at h ⊢
        cases h
        rw [hEq]
      · rw [if_neg hEq] at h ⊢
        rw [ih h]

/- A value that is found is an entry. -/
theorem mem_of_get?
    {t : Table α β}
    {k : α}
    {v : β}
    (h : get? t k = some v) :
    (k, v) ∈ t := by
  induction t with
  | nil => cases h
  | cons e rest ih =>
      rcases e with ⟨l, w⟩
      rw [get?] at h
      split at h
      next hEq =>
        subst hEq
        cases h
        exact List.mem_cons_self
      next =>
        exact List.mem_cons_of_mem _ (ih h)

/- A key has a value if it is one of the keys. -/
theorem get?_eq_none_iff
    {t : Table α β}
    {k : α} :
    get? t k = none ↔ k ∉ keys t := by
  induction t with
  | nil => simp [keys]
  | cons e rest ih =>
      rcases e with ⟨l, w⟩
      rw [get?, keys_cons, List.mem_cons, not_or]
      by_cases hEq : l = k
      · simp [hEq]
      · rw [if_neg hEq, ih]
        simp [Ne.symm hEq]

theorem contains_iff
    {t : Table α β}
    {k : α} :
    contains t k = true ↔ k ∈ keys t := by
  rw [contains, Option.isSome_iff_ne_none, ne_eq,
    get?_eq_none_iff, not_not]

/- Under distinct keys every entry is found. -/
theorem get?_of_mem
    {t : Table α β}
    {k : α}
    {v : β}
    (hKeys : (keys t).Nodup)
    (h : (k, v) ∈ t) :
    get? t k = some v := by
  induction t with
  | nil => cases h
  | cons e rest ih =>
      rcases e with ⟨l, w⟩
      rw [keys_cons, List.nodup_cons] at hKeys
      rcases List.mem_cons.mp h with hHead | hTail
      · cases hHead
        rw [get?, if_pos rfl]
      · have hOther : l ≠ k := by
          intro hEq
          subst hEq
          exact hKeys.1 (mem_keys.mpr ⟨v, hTail⟩)
        rw [get?, if_neg hOther]
        exact ih hKeys.2 hTail

/- With unique keys the order of entries does not count. -/
theorem get?_of_perm
    {t u : Table α β}
    (hPerm : t.Perm u)
    (hKeys : (keys t).Nodup)
    (k : α) :
    get? u k = get? t k := by
  have hNames : (keys t).Perm (keys u) := hPerm.map _
  have hOther : (keys u).Nodup := hNames.nodup_iff.mp hKeys
  cases hFound : get? t k with
  | none =>
      rw [get?_eq_none_iff] at hFound ⊢
      intro hMem
      exact hFound (hNames.mem_iff.mpr hMem)
  | some v =>
      exact get?_of_mem hOther
        (hPerm.mem_iff.mp (mem_of_get? hFound))

/- Look-up after every value was replaced. -/
theorem get?_map_values
    {γ : Type}
    (f : β → γ)
    (t : Table α β)
    (k : α) :
    get? (t.map fun e => (e.1, f e.2)) k = (get? t k).map f := by
  induction t with
  | nil => rfl
  | cons e rest ih =>
      rcases e with ⟨l, v⟩
      rw [List.map_cons, get?, get?]
      by_cases hEq : l = k
      · rw [if_pos hEq, if_pos hEq]
        rfl
      · rw [if_neg hEq, if_neg hEq, ih]

/- Erasing takes entries away and adds none. -/
theorem erase_sublist
    (t : Table α β)
    (k : α) :
    (erase t k).Sublist t :=
  List.filter_sublist

/- Erasing a key that is not there changes nothing. -/
theorem erase_of_notMem_keys
    {t : Table α β}
    {k : α}
    (h : k ∉ keys t) :
    erase t k = t := by
  unfold erase
  rw [List.filter_eq_self]
  intro e he
  have hKey : e.1 ≠ k := by
    intro hEq
    exact h (mem_keys.mpr ⟨e.2, hEq ▸ he⟩)
  simpa using hKey

theorem mem_erase
    {t : Table α β}
    {k : α}
    {e : α × β} :
    e ∈ erase t k ↔ e ∈ t ∧ e.1 ≠ k := by
  simp [erase]

theorem mem_keys_erase
    {t : Table α β}
    {k l : α} :
    l ∈ keys (erase t k) ↔ l ∈ keys t ∧ l ≠ k := by
  rw [mem_keys, mem_keys]
  constructor
  · intro h
    rcases h with ⟨v, hv⟩
    rcases mem_erase.mp hv with ⟨hMem, hNe⟩
    exact ⟨⟨v, hMem⟩, hNe⟩
  · intro h
    rcases h with ⟨⟨v, hv⟩, hNe⟩
    exact ⟨v, mem_erase.mpr ⟨hv, hNe⟩⟩

theorem mem_keys_insert
    {t : Table α β}
    {k l : α}
    {v : β} :
    l ∈ keys (insert t k v) ↔ l = k ∨ l ∈ keys t := by
  rw [← not_iff_not, not_or, ← get?_eq_none_iff,
    ← get?_eq_none_iff, get?_insert]
  by_cases hEq : k = l
  · simp [hEq]
  · simp [hEq, Ne.symm hEq]

/- An insertion brings in no other entry. -/
theorem eq_or_mem_of_mem_insert
    {t : Table α β}
    {k : α}
    {v : β}
    {e : α × β}
    (h : e ∈ insert t k v) :
    e = (k, v) ∨ e ∈ t := by
  induction t with
  | nil => exact Or.inl (List.mem_singleton.mp h)
  | cons first rest ih =>
      unfold insert at h
      split at h
      · rcases List.mem_cons.mp h with hNew | hOld
        · exact Or.inl hNew
        · exact Or.inr (List.mem_cons_of_mem _ hOld)
      · rcases List.mem_cons.mp h with hFirst | hRest
        · exact Or.inr (List.mem_cons.mpr (Or.inl hFirst))
        · exact (ih hRest).imp_right (List.mem_cons_of_mem _)

/-
  Under distinct keys an insertion puts one entry in place of
  the entry of its key.
-/
theorem insert_perm
    {t : Table α β}
    (hKeys : (keys t).Nodup)
    (k : α)
    (v : β) :
    (insert t k v).Perm ((k, v) :: erase t k) := by
  induction t with
  | nil => exact List.Perm.refl _
  | cons e rest ih =>
      rcases e with ⟨l, w⟩
      rw [keys_cons, List.nodup_cons] at hKeys
      by_cases hEq : l = k
      · subst hEq
        have hRest : erase ((l, w) :: rest) l = rest := by
          unfold erase
          rw [List.filter_cons_of_neg (by simp)]
          exact erase_of_notMem_keys hKeys.1
        rw [insert, if_pos rfl, hRest]
      · have hRest :
            erase ((l, w) :: rest) k =
              (l, w) :: erase rest k := by
          unfold erase
          exact List.filter_cons_of_pos (by simpa using hEq)
        rw [insert, if_neg hEq, hRest]
        exact ((ih hKeys.2).cons _).trans (.swap _ _ _)

theorem nodup_keys_insert
    {t : Table α β}
    (hKeys : (keys t).Nodup)
    (k : α)
    (v : β) :
    (keys (insert t k v)).Nodup := by
  have hPerm := (insert_perm hKeys k v).map (·.1)
  apply hPerm.nodup_iff.mpr
  rw [List.map_cons, List.nodup_cons]
  constructor
  · intro hMem
    rcases List.mem_map.mp hMem with ⟨e, he, hKey⟩
    exact (mem_erase.mp he).2 hKey
  · exact hKeys.sublist ((erase_sublist t k).map _)

/- The last value of a key counts. -/
theorem insert_insert_self
    (t : Table α β)
    (k : α)
    (v w : β) :
    insert (insert t k v) k w = insert t k w := by
  induction t with
  | nil => simp [insert]
  | cons e rest ih =>
      rcases e with ⟨l, u⟩
      by_cases hEq : l = k
      · rw [insert, if_pos hEq, insert, if_pos rfl, insert,
          if_pos hEq]
      · rw [insert, if_neg hEq, insert, if_neg hEq, insert,
          if_neg hEq, ih]

/- New entries of two keys may come in either order. -/
theorem insert_insert_perm
    {k l : α}
    (hNe : k ≠ l)
    (t : Table α β)
    (v w : β) :
    (insert (insert t k v) l w).Perm
      (insert (insert t l w) k v) := by
  induction t with
  | nil =>
      simp only [insert, if_neg hNe, if_neg hNe.symm]
      exact List.Perm.swap _ _ _
  | cons e rest ih =>
      rcases e with ⟨m, u⟩
      by_cases hk : m = k
      · subst hk
        simp [insert, hNe]
      · by_cases hl : m = l
        · subst hl
          simp [insert, hk]
        · simp [insert, hk, hl, ih]

end Table

end StyleCompanion
