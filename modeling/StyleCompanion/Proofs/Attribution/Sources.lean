import StyleCompanion.Attribution.Source

/-
  Laws of the registry of sources.

  A registry is in increasing order of ids.  Sources can be
  added one after the other if no two of them, or of those
  registered before, share an id and differ, and the registry
  then holds all of them and no others.

  Main declarations:
    * `SourceRegistry.Ordered`
    * `SourceRegistry.Agree`
    * `SourceRegistry.insertSorted_ok_iff`
    * `SourceRegistry.addAll_ok_iff`
    * `SourceRegistry.mem_sources_addAll`
-/

namespace StyleCompanion

namespace Attribution

namespace SourceRegistry

/- Sources in increasing order of ids. -/
def Ordered
    (xs : List SourceFile) : Prop :=
  xs.Pairwise fun a b => a.id < b.id

/- Sources with the same id are the same. -/
def Agree
    (xs : List SourceFile) : Prop :=
  ∀ s ∈ xs, ∀ t ∈ xs, s.id = t.id → s = t

variable {r p : SourceRegistry}
variable {s : SourceFile}
variable {xs ys ss : List SourceFile}

theorem Ordered.agree
    (h : Ordered xs) :
    Agree xs := by
  induction xs with
  | nil =>
      intro s hs
      cases hs
  | cons x xs ih =>
      rw [Ordered, List.pairwise_cons] at h
      intro s hs t ht hId
      rcases List.mem_cons.mp hs with rfl | hs'
      · rcases List.mem_cons.mp ht with rfl | ht'
        · rfl
        · have hLess := h.1 t ht'
          omega
      · rcases List.mem_cons.mp ht with rfl | ht'
        · have hLess := h.1 s hs'
          omega
        · exact ih h.2 s hs' t ht' hId

theorem agree_congr
    (h : ∀ t, t ∈ xs ↔ t ∈ ys) :
    Agree xs ↔ Agree ys := by
  simp only [Agree, h]

----
-- One source
----

theorem mem_insertSorted
    (h : insertSorted s xs = .ok ys)
    (t : SourceFile) :
    t ∈ ys ↔ t = s ∨ t ∈ xs := by
  induction xs generalizing ys with
  | nil =>
      cases h
      simp
  | cons x xs ih =>
      rw [insertSorted] at h
      split at h
      next =>
        cases h
        simp
      next =>
        split at h
        next =>
          split at h
          next hSame =>
            cases h
            simp [hSame]
          next => cases h
        next =>
          split at h
          next zs hRest =>
            cases h
            rw [List.mem_cons, ih hRest, List.mem_cons]
            exact or_left_comm
          next => cases h

theorem ordered_insertSorted
    (hOrdered : Ordered xs)
    (h : insertSorted s xs = .ok ys) :
    Ordered ys := by
  induction xs generalizing ys with
  | nil =>
      cases h
      exact List.pairwise_singleton _ s
  | cons x xs ih =>
      rw [Ordered, List.pairwise_cons] at hOrdered
      rw [insertSorted] at h
      split at h
      next hLess =>
        cases h
        refine List.pairwise_cons.mpr ⟨fun t ht => ?_,
          List.pairwise_cons.mpr hOrdered⟩
        rcases List.mem_cons.mp ht with rfl | hRest
        · exact hLess
        · exact Int.lt_trans hLess (hOrdered.1 t hRest)
      next hNotLess =>
        split at h
        next =>
          split at h
          next =>
            cases h
            exact List.pairwise_cons.mpr hOrdered
          next => cases h
        next hOther =>
          split at h
          next zs hRest =>
            cases h
            refine List.pairwise_cons.mpr
              ⟨fun t ht => ?_, ih hOrdered.2 hRest⟩
            rcases (mem_insertSorted hRest t).mp ht with rfl | hOld
            · omega
            · exact hOrdered.1 t hOld
          next => cases h

/- A source is refused if another one has its id. -/
theorem insertSorted_ok_iff
    (hOrdered : Ordered xs) :
    (∃ ys, insertSorted s xs = .ok ys) ↔
      ∀ x ∈ xs, x.id = s.id → x = s := by
  induction xs with
  | nil => exact ⟨fun _ x hx => (nomatch hx), fun _ => ⟨[s], rfl⟩⟩
  | cons x xs ih =>
      rw [Ordered, List.pairwise_cons] at hOrdered
      rw [insertSorted, List.forall_mem_cons]
      split
      next hLess =>
        -- all that follow have greater ids still
        have hGreater : ∀ t ∈ xs, s.id < t.id :=
          fun t ht => Int.lt_trans hLess (hOrdered.1 t ht)
        refine ⟨fun _ => ⟨fun hId => ?_, fun t ht hId => ?_⟩,
          fun _ => ⟨_, rfl⟩⟩
        · omega
        · have := hGreater t ht
          omega
      next hNotLess =>
        split
        next hId =>
          split
          next hSame =>
            refine ⟨fun _ => ⟨fun _ => hSame, fun t ht hOwn => ?_⟩,
              fun _ => ⟨_, rfl⟩⟩
            have := hOrdered.1 t ht
            omega
          next hOther =>
            refine ⟨fun ⟨_, h⟩ => (nomatch h), fun h => ?_⟩
            exact absurd (h.1 hId.symm) hOther
        next hApart =>
          have hHead : x.id = s.id → x = s :=
            fun hId => absurd hId.symm hApart
          rw [and_iff_right hHead, ← ih hOrdered.2]
          cases insertSorted s xs with
          | ok zs => exact ⟨fun _ => ⟨zs, rfl⟩, fun _ => ⟨_, rfl⟩⟩
          | error e =>
              exact ⟨fun ⟨_, h⟩ => (nomatch h),
                fun ⟨_, h⟩ => (nomatch h)⟩

----
-- Sources in order
----

theorem add_ok_iff :
    r.add s = .ok p ↔ insertSorted s r.sources = .ok p.sources := by
  unfold add
  cases insertSorted s r.sources with
  | ok zs =>
      rw [Except.ok.injEq, Except.ok.injEq]
      exact ⟨fun h => by rw [← h], fun h => by rw [h]⟩
  | error e => exact ⟨fun h => (nomatch h), fun h => (nomatch h)⟩

theorem addAll_cons_ok_iff :
    r.addAll (s :: ss) = .ok p ↔
      ∃ q, r.add s = .ok q ∧ q.addAll ss = .ok p := by
  rw [addAll]
  cases r.add s <;> simp

/- The registry holds what was added and what was there. -/
theorem mem_sources_addAll
    (h : r.addAll ss = .ok p)
    (t : SourceFile) :
    t ∈ p.sources ↔ t ∈ r.sources ∨ t ∈ ss := by
  induction ss generalizing r with
  | nil =>
      cases h
      simp
  | cons s ss ih =>
      rcases addAll_cons_ok_iff.mp h with ⟨q, hq, hp⟩
      rw [ih hp, mem_insertSorted (add_ok_iff.mp hq),
        List.mem_cons, or_assoc, or_left_comm]

theorem ordered_addAll
    (hOrdered : Ordered r.sources)
    (h : r.addAll ss = .ok p) :
    Ordered p.sources := by
  induction ss generalizing r with
  | nil =>
      cases h
      exact hOrdered
  | cons s ss ih =>
      rcases addAll_cons_ok_iff.mp h with ⟨q, hq, hp⟩
      exact ih (ordered_insertSorted hOrdered
        (add_ok_iff.mp hq)) hp

/-
  Sources can be added if all of them, those registered before
  included, are told apart by their ids.
-/
theorem addAll_ok_iff
    (hOrdered : Ordered r.sources) :
    (∃ p, r.addAll ss = .ok p) ↔ Agree (r.sources ++ ss) := by
  induction ss generalizing r with
  | nil =>
      rw [List.append_nil]
      exact ⟨fun _ => hOrdered.agree, fun _ => ⟨r, rfl⟩⟩
  | cons s ss ih =>
      -- a registry with `s` has the same sources as both lists
      have hNext : ∀ q, r.add s = .ok q →
          ((∃ p, q.addAll ss = .ok p) ↔
            Agree (r.sources ++ s :: ss)) := by
        intro q hq
        have hMem := mem_insertSorted (add_ok_iff.mp hq)
        rw [ih (ordered_insertSorted hOrdered
          (add_ok_iff.mp hq))]
        apply agree_congr
        intro t
        rw [List.mem_append, hMem, List.mem_append,
          List.mem_cons, or_assoc, or_left_comm]
      constructor
      · rintro ⟨p, hp⟩
        rcases addAll_cons_ok_iff.mp hp with ⟨q, hq, hRest⟩
        exact (hNext q hq).mp ⟨p, hRest⟩
      · intro h
        have hFits : ∀ x ∈ r.sources, x.id = s.id → x = s :=
          fun x hx => h x (by simp [hx]) s (by simp)
        rcases (insertSorted_ok_iff hOrdered).mpr hFits with
          ⟨ys, hys⟩
        have hq : r.add s = .ok ⟨ys⟩ := add_ok_iff.mpr hys
        rcases (hNext ⟨ys⟩ hq).mpr h with ⟨p, hp⟩
        exact ⟨p, addAll_cons_ok_iff.mpr ⟨⟨ys⟩, hq, hp⟩⟩

theorem contains_iff
    {id : Int} :
    r.contains id = true ↔ ∃ t ∈ r.sources, t.id = id := by
  unfold contains get?
  rw [List.find?_isSome]
  simp

end SourceRegistry

end Attribution

end StyleCompanion
