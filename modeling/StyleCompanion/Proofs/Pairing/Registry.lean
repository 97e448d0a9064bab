import StyleCompanion.Pairing.Registry
import StyleCompanion.Proofs.Table

/-
  Laws of the pair registry.

  Pairs and openings are filed under their primaries.  Most
  operations only lose pairs and openings.  The exceptions
  are the registration of a pair and the beginning of an
  opening.

  Main declarations:
    * `PairRegistry.Filed`
    * `PairRegistry.Loses`
    * `PairRegistry.Awaits`
    * `PairRegistry.finishOpen_eq`
    * `PairRegistry.Apart`
    * `PairRegistry.Mentions`
-/

namespace StyleCompanion

namespace Pairing

namespace PairRegistry

----
-- Filing
----

/-
  There is at most one pair and one opening for a primary, and
  each is filed under its primary.
-/
structure Filed
    (r : PairRegistry) : Prop where
  pairKeys : (Table.keys r.pairs).Nodup
  pairs : ∀ e ∈ r.pairs, e.2.primary = e.1
  pendingKeys : (Table.keys r.pending).Nodup
  pending : ∀ e ∈ r.pending, e.2.primary = e.1

theorem filed_new : Filed .new := by
  constructor
  · exact List.nodup_nil
  · intro e he
    cases he
  · exact List.nodup_nil
  · intro e he
    cases he

variable {r t u : PairRegistry}

theorem mem_pairList_of_pairForPrimary
    {p : String}
    {pair : DocumentPair}
    (h : r.pairForPrimary p = some pair) :
    pair ∈ r.pairList :=
  Table.mem_values.mpr ⟨p, Table.mem_of_get? h⟩

theorem mem_pendingList_of_pendingFor
    {p : String}
    {q : PendingOpen}
    (h : r.pendingFor p = some q) :
    q ∈ r.pendingList :=
  Table.mem_values.mpr ⟨p, Table.mem_of_get? h⟩

theorem pairForPrimary_eq_none_iff
    {p : String} :
    r.pairForPrimary p = none ↔ p ∉ Table.keys r.pairs :=
  Table.get?_eq_none_iff

theorem pendingFor_eq_none_iff
    {p : String} :
    r.pendingFor p = none ↔ p ∉ Table.keys r.pending :=
  Table.get?_eq_none_iff

/- A companion is paired if a pair with it is registered. -/
theorem pairForCompanion_eq_none_iff
    {c : String} :
    r.pairForCompanion c = none ↔
      ∀ pair ∈ r.pairList, pair.companion ≠ c := by
  simp [pairForCompanion]

/- A pair that is found has the companion looked for. -/
theorem companion_of_pairForCompanion
    {c : String}
    {pair : DocumentPair}
    (h : r.pairForCompanion c = some pair) :
    pair.companion = c := by
  simpa using List.find?_some h

theorem mem_pairList_of_pairForCompanion
    {c : String}
    {pair : DocumentPair}
    (h : r.pairForCompanion c = some pair) :
    pair ∈ r.pairList :=
  List.mem_of_find?_eq_some h

namespace Filed

theorem pairForPrimary
    (h : r.Filed)
    {pair : DocumentPair}
    (hMem : pair ∈ r.pairList) :
    r.pairForPrimary pair.primary = some pair := by
  rcases Table.mem_values.mp hMem with ⟨k, hk⟩
  have hPrimary : pair.primary = k := h.pairs _ hk
  rw [hPrimary]
  exact Table.get?_of_mem h.pairKeys hk

theorem pendingFor
    (h : r.Filed)
    {q : PendingOpen}
    (hMem : q ∈ r.pendingList) :
    r.pendingFor q.primary = some q := by
  rcases Table.mem_values.mp hMem with ⟨k, hk⟩
  have hPrimary : q.primary = k := h.pending _ hk
  rw [hPrimary]
  exact Table.get?_of_mem h.pendingKeys hk

theorem primary_eq
    (h : r.Filed)
    {p : String}
    {pair : DocumentPair}
    (hPair : r.pairForPrimary p = some pair) :
    pair.primary = p :=
  h.pairs _ (Table.mem_of_get? hPair)

/- No two pairs have the same primary. -/
theorem eq_of_primary
    (h : r.Filed)
    {a b : DocumentPair}
    (ha : a ∈ r.pairList)
    (hb : b ∈ r.pairList)
    (hEq : a.primary = b.primary) :
    a = b := by
  have hFound := h.pairForPrimary ha
  rw [hEq, h.pairForPrimary hb] at hFound
  exact (Option.some.inj hFound).symm

theorem mem_remove
    (h : r.Filed)
    {p : String}
    {pair : DocumentPair} :
    pair ∈ (r.remove p).pairList ↔
      pair ∈ r.pairList ∧ pair.primary ≠ p := by
  unfold pairList remove
  rw [Table.mem_values, Table.mem_values]
  constructor
  · intro hMem
    rcases hMem with ⟨k, hk⟩
    rcases Table.mem_erase.mp hk with ⟨hOld, hNe⟩
    refine ⟨⟨k, hOld⟩, ?_⟩
    rw [h.pairs _ hOld]
    exact hNe
  · intro hMem
    rcases hMem with ⟨⟨k, hk⟩, hNe⟩
    refine ⟨k, Table.mem_erase.mpr ⟨hk, ?_⟩⟩
    rw [h.pairs _ hk] at hNe
    exact hNe

/- A registered pair stands beside those of other primaries. -/
theorem pairList_register_perm
    (h : r.Filed)
    (p c : String) :
    (r.register p c).pairList.Perm
      (⟨p, c⟩ :: (r.remove p).pairList) :=
  (Table.insert_perm h.pairKeys p ⟨p, c⟩).map Prod.snd

theorem mem_register
    (h : r.Filed)
    {p c : String}
    {pair : DocumentPair} :
    pair ∈ (r.register p c).pairList ↔
      pair = ⟨p, c⟩ ∨
        pair ∈ r.pairList ∧ pair.primary ≠ p := by
  rw [(h.pairList_register_perm p c).mem_iff, List.mem_cons,
    h.mem_remove]

theorem register
    (h : r.Filed)
    (p c : String) :
    (r.register p c).Filed where
  pairKeys := Table.nodup_keys_insert h.pairKeys p _
  pairs := by
    intro e he
    have hPerm := Table.insert_perm h.pairKeys p ⟨p, c⟩
    rcases List.mem_cons.mp (hPerm.mem_iff.mp he) with
      hNew | hOld
    · rw [hNew]
    · exact h.pairs e (Table.mem_erase.mp hOld).1
  pendingKeys := h.pendingKeys
  pending := h.pending

theorem beginOpen
    (h : r.Filed)
    (p c : String) :
    (r.beginOpen p c).1.Filed := by
  unfold PairRegistry.beginOpen
  split
  · exact h
  · refine ⟨h.pairKeys, h.pairs,
      Table.nodup_keys_insert h.pendingKeys p _, ?_⟩
    intro e he
    have hPerm :=
      Table.insert_perm h.pendingKeys p ⟨p, c, r.nextToken⟩
    rcases List.mem_cons.mp (hPerm.mem_iff.mp he) with
      hNew | hOld
    · rw [hNew]
    · exact h.pending e (Table.mem_erase.mp hOld).1

end Filed

----
-- Losses
----

/-
  A registry that may have lost pairs and openings.  It has
  gained none, and what is left is in the same order.
-/
structure Loses
    (r t : PairRegistry) : Prop where
  pairs : t.pairs.Sublist r.pairs
  pending : t.pending.Sublist r.pending
  nextToken : t.nextToken = r.nextToken

namespace Loses

theorem refl
    (r : PairRegistry) :
    r.Loses r :=
  ⟨.refl _, .refl _, rfl⟩

theorem trans
    (h : r.Loses t)
    (k : t.Loses u) :
    r.Loses u where
  pairs := k.pairs.trans h.pairs
  pending := k.pending.trans h.pending
  nextToken := k.nextToken.trans h.nextToken

theorem mem_pairList
    (h : r.Loses t)
    {pair : DocumentPair}
    (hMem : pair ∈ t.pairList) :
    pair ∈ r.pairList :=
  (h.pairs.map _).subset hMem

theorem mem_pendingList
    (h : r.Loses t)
    {q : PendingOpen}
    (hMem : q ∈ t.pendingList) :
    q ∈ r.pendingList :=
  (h.pending.map _).subset hMem

theorem pairForPrimary_eq_none
    (h : r.Loses t)
    {p : String}
    (hNone : r.pairForPrimary p = none) :
    t.pairForPrimary p = none := by
  rw [pairForPrimary_eq_none_iff] at hNone ⊢
  intro hMem
  exact hNone ((h.pairs.map _).subset hMem)

theorem pendingFor_eq_none
    (h : r.Loses t)
    {p : String}
    (hNone : r.pendingFor p = none) :
    t.pendingFor p = none := by
  rw [pendingFor_eq_none_iff] at hNone ⊢
  intro hMem
  exact hNone ((h.pending.map _).subset hMem)

theorem pairForCompanion_eq_none
    (h : r.Loses t)
    {c : String}
    (hNone : r.pairForCompanion c = none) :
    t.pairForCompanion c = none := by
  rw [pairForCompanion_eq_none_iff] at hNone ⊢
  intro pair hPair
  exact hNone pair (h.mem_pairList hPair)

theorem filed
    (h : r.Loses t)
    (hFiled : r.Filed) :
    t.Filed where
  pairKeys := hFiled.pairKeys.sublist (h.pairs.map _)
  pairs e he := hFiled.pairs e (h.pairs.subset he)
  pendingKeys := hFiled.pendingKeys.sublist (h.pending.map _)
  pending e he := hFiled.pending e (h.pending.subset he)

end Loses

theorem loses_remove
    (r : PairRegistry)
    (p : String) :
    r.Loses (r.remove p) :=
  ⟨Table.erase_sublist _ p, .refl _, rfl⟩

theorem Loses.size_le
    (h : r.Loses t) :
    t.size ≤ r.size :=
  h.pairs.length_le

/- A pair that is removed makes the registry smaller. -/
theorem size_remove_lt
    {p : String}
    {pair : DocumentPair}
    (h : r.pairForPrimary p = some pair) :
    (r.remove p).size < r.size := by
  have hMem := Table.mem_of_get? h
  unfold size remove Table.erase
  apply List.length_filter_lt_length_iff_exists.mpr
  exact ⟨_, hMem, by simp⟩

theorem loses_cancelOpen
    (r : PairRegistry)
    (p : String) :
    r.Loses (r.cancelOpen p).1 :=
  ⟨.refl _, Table.erase_sublist _ p, rfl⟩

theorem loses_clear
    (r : PairRegistry) :
    r.Loses r.clear :=
  ⟨List.nil_sublist _, List.nil_sublist _, rfl⟩

----
-- Openings
----

/- The primary of an opening still waits for it. -/
def Awaits
    (r : PairRegistry)
    (q : PendingOpen) : Prop :=
  (r.pendingFor q.primary).map (·.token) = some q.token

instance
    (r : PairRegistry)
    (q : PendingOpen) :
    Decidable (r.Awaits q) :=
  inferInstanceAs (Decidable (_ = _))

/- An opening that is waited for is taken out. -/
theorem finishOpen_eq
    {q : PendingOpen}
    (h : r.Awaits q) :
    r.finishOpen q =
      ({ r with pending := Table.erase r.pending q.primary },
        true) := by
  rcases Option.map_eq_some_iff.mp h with ⟨m, hm, hToken⟩
  rw [finishOpen, hm]
  exact if_pos hToken

/- Nothing is done to an opening that was given up. -/
theorem finishOpen_eq_self
    {q : PendingOpen}
    (h : ¬ r.Awaits q) :
    r.finishOpen q = (r, false) := by
  unfold finishOpen
  split
  next => rfl
  next m hm =>
    apply if_neg
    intro hToken
    apply h
    rw [Awaits, hm, Option.map_some, hToken]

theorem loses_finishOpen
    (r : PairRegistry)
    (q : PendingOpen) :
    r.Loses (r.finishOpen q).1 := by
  by_cases h : r.Awaits q
  · rw [finishOpen_eq h]
    exact loses_cancelOpen r q.primary
  · rw [finishOpen_eq_self h]
    exact .refl r

/- The end of an opening concerns no pair. -/
theorem pairs_finishOpen
    (r : PairRegistry)
    (q : PendingOpen) :
    (r.finishOpen q).1.pairs = r.pairs := by
  by_cases h : r.Awaits q
  · rw [finishOpen_eq h]
  · rw [finishOpen_eq_self h]

/- A primary without an opening gets a new one. -/
theorem beginOpen_eq
    {p : String}
    (h : r.pendingFor p = none)
    (c : String) :
    r.beginOpen p c =
      ({ r with
          pending :=
            Table.insert r.pending p ⟨p, c, r.nextToken⟩
          nextToken := r.nextToken + 1 },
        some ⟨p, c, r.nextToken⟩) := by
  have hAbsent : Table.contains r.pending p = false := by
    unfold Table.contains
    unfold pendingFor at h
    rw [h]
    rfl
  simp [beginOpen, hAbsent]

/- A primary that has an opening gets no other. -/
theorem beginOpen_eq_self
    {p : String}
    {q : PendingOpen}
    (h : r.pendingFor p = some q)
    (c : String) :
    r.beginOpen p c = (r, none) := by
  have hPresent : Table.contains r.pending p = true := by
    unfold Table.contains
    unfold pendingFor at h
    rw [h]
    rfl
  simp [beginOpen, hPresent]

/- What is under way after a beginning was so, or is new. -/
theorem Filed.mem_pendingList_beginOpen
    (h : r.Filed)
    {p c : String}
    {q : PendingOpen}
    (hMem : q ∈ (r.beginOpen p c).1.pendingList) :
    q ∈ r.pendingList ∨ q = ⟨p, c, r.nextToken⟩ := by
  cases hPending : r.pendingFor p with
  | some other =>
      rw [beginOpen_eq_self hPending] at hMem
      exact Or.inl hMem
  | none =>
      rw [beginOpen_eq hPending] at hMem
      rcases Table.mem_values.mp hMem with ⟨k, hk⟩
      have hPerm :=
        Table.insert_perm h.pendingKeys p ⟨p, c, r.nextToken⟩
      rcases List.mem_cons.mp (hPerm.mem_iff.mp hk) with
        hNew | hOld
      · cases hNew
        exact Or.inr rfl
      · exact Or.inl (Table.mem_values.mpr
          ⟨k, (Table.mem_erase.mp hOld).1⟩)

----
-- Pairs and openings
----

/- No primary has a pair and an opening at once. -/
def Apart
    (r : PairRegistry) : Prop :=
  ∀ p, r.pairForPrimary p = none ∨ r.pendingFor p = none

theorem Loses.apart
    (hLost : r.Loses t)
    (h : r.Apart) :
    t.Apart := by
  intro p
  rcases h p with hFree | hIdle
  · exact Or.inl (hLost.pairForPrimary_eq_none hFree)
  · exact Or.inr (hLost.pendingFor_eq_none hIdle)

/- A primary without an opening may get a pair. -/
theorem Apart.register
    (h : r.Apart)
    {p : String}
    (hIdle : r.pendingFor p = none)
    (c : String) :
    (r.register p c).Apart := by
  intro v
  by_cases hv : p = v
  · subst hv
    exact Or.inr hIdle
  · have hOther :
        (r.register p c).pairForPrimary v =
          r.pairForPrimary v :=
      (Table.get?_insert r.pairs p v _).trans (if_neg hv)
    rw [hOther]
    exact h v

/- A primary without a pair may get an opening. -/
theorem Apart.beginOpen
    (h : r.Apart)
    {p : String}
    (hFree : r.pairForPrimary p = none)
    (hIdle : r.pendingFor p = none)
    (c : String) :
    (r.beginOpen p c).1.Apart := by
  rw [beginOpen_eq hIdle]
  intro v
  by_cases hv : p = v
  · subst hv
    exact Or.inl hFree
  · rcases h v with hNone | hNone
    · exact Or.inl hNone
    · refine Or.inr ?_
      exact (Table.get?_insert r.pending p v _).trans
        ((if_neg hv).trans hNone)

----
-- The documents of the pairs
----

/- A document is the companion of a pair. -/
def HasCompanion
    (r : PairRegistry)
    (c : String) : Prop :=
  ∃ pair ∈ r.pairList, pair.companion = c

/- Other companions stay paired when a pair is removed. -/
theorem Filed.hasCompanion_remove
    (h : r.Filed)
    {pair : DocumentPair}
    (hOnly :
      ∀ other ∈ r.pairList,
        other.primary = pair.primary → other = pair)
    {c : String}
    (hNe : c ≠ pair.companion)
    (hc : r.HasCompanion c) :
    (r.remove pair.primary).HasCompanion c := by
  rcases hc with ⟨other, hOther, hEq⟩
  refine ⟨other, h.mem_remove.mpr ⟨hOther, ?_⟩, hEq⟩
  intro hPrimary
  rw [hOnly other hOther hPrimary] at hEq
  exact hNe hEq.symm

/- A document belongs to a pair. -/
def Mentions
    (r : PairRegistry)
    (u : String) : Prop :=
  ∃ pair ∈ r.pairList, pair.primary = u ∨ pair.companion = u

theorem Loses.mentions
    (hLost : r.Loses t)
    {u : String}
    (h : t.Mentions u) :
    r.Mentions u := by
  rcases h with ⟨pair, hPair, hEq⟩
  exact ⟨pair, hLost.mem_pairList hPair, hEq⟩

end PairRegistry

end Pairing

end StyleCompanion
