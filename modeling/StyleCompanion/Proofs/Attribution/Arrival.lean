import Mathlib.Data.List.Induction
import Mathlib.Data.List.Nodup
import StyleCompanion.Proofs.Attribution.Sources

/-
  The order in which sources arrive does not matter.

  A registry in increasing order of ids is determined by its
  sources.  Which sources can be registered together is a
  question of which they are, not of when they come; so every
  order of the same sources is refused, or leads to the same
  registry.  A registry that stays in use after a refusal is
  none the wiser: for every id it holds the source that was
  offered first.

  Main declarations:
    * `SourceRegistry.Ordered.eq_of_mem_iff`
    * `SourceRegistry.ofList_error_iff`
    * `SourceRegistry.offerAll`
    * `SourceRegistry.get?_offer`
    * `SourceRegistry.get?_offerAll`
    * `SourceRegistry.arrival_order_is_forgotten`
-/

namespace StyleCompanion

namespace Attribution

namespace SourceRegistry

variable {r q : SourceRegistry}
variable {s t : SourceFile}
variable {xs ys ss ts : List SourceFile}
variable {id : Int}

----
-- Sources in order
----

theorem Ordered.nodup
    (h : Ordered xs) :
    xs.Nodup := by
  apply List.Pairwise.imp _ h
  intro a b hLess hSame
  rw [hSame] at hLess
  exact Int.lt_irrefl _ hLess

/- Sources have one increasing order. -/
theorem Ordered.eq_of_mem_iff
    (h : Ordered xs)
    (hOther : Ordered ys)
    (hMem : ∀ t, t ∈ xs ↔ t ∈ ys) :
    xs = ys := by
  have hPerm : xs.Perm ys :=
    (List.perm_ext_iff_of_nodup h.nodup hOther.nodup).mpr
      fun t => hMem t
  refine hPerm.eq_of_pairwise ?_ h hOther
  intro a b _ _ hLess hGreater
  omega

/- Every source stands in a registry once. -/
theorem Ordered.count_eq
    (h : Ordered xs)
    (t : SourceFile) :
    xs.count t = if t ∈ xs then 1 else 0 := by
  split
  next hMem => exact List.count_eq_one_of_mem h.nodup hMem
  next hMem => exact List.count_eq_zero_of_not_mem hMem

theorem get?_eq_some_iff
    (h : Ordered r.sources) :
    r.get? id = some t ↔ t ∈ r.sources ∧ t.id = id := by
  unfold get?
  constructor
  · intro hFound
    have hId := List.find?_some hFound
    exact ⟨List.mem_of_find?_eq_some hFound,
      of_decide_eq_true hId⟩
  · rintro ⟨hMem, rfl⟩
    cases hFound : r.sources.find? fun s =>
        decide (s.id = t.id) with
    | none =>
        have hNone := List.find?_eq_none.mp hFound t hMem
        exact absurd (decide_eq_true rfl) hNone
    | some u =>
        have hId := List.find?_some hFound
        have hOther := List.mem_of_find?_eq_some hFound
        rw [h.agree u hOther t hMem (of_decide_eq_true hId)]

----
-- Registries of lists
----

theorem ordered_empty :
    Ordered empty.sources :=
  List.Pairwise.nil

/- Sources cannot all be registered if two of them clash. -/
theorem ofList_error_iff :
    (∃ e, ofList ss = .error e) ↔
      ∃ s ∈ ss, ∃ t ∈ ss, s.id = t.id ∧ s ≠ t := by
  have hOk : (∃ p, ofList ss = .ok p) ↔ Agree ss :=
    addAll_ok_iff ordered_empty
  have hError : (∃ e, ofList ss = .error e) ↔
      ¬ ∃ p, ofList ss = .ok p := by
    cases ofList ss <;> simp
  rw [hError, hOk]
  simp only [Agree, not_forall, exists_prop]

/- A registry is ordered and holds what it was built of. -/
theorem sources_ofList
    (h : ofList ss = .ok r) :
    Ordered r.sources ∧ ∀ t, t ∈ r.sources ↔ t ∈ ss := by
  refine ⟨ordered_addAll ordered_empty h, ?_⟩
  intro t
  rw [mem_sources_addAll h]
  exact or_iff_right List.not_mem_nil

/- The same sources make the same registry. -/
theorem ofList_eq_of_mem_iff
    (hMem : ∀ t, t ∈ ss ↔ t ∈ ts)
    (h : ofList ss = .ok r) :
    ofList ts = .ok r := by
  rcases sources_ofList h with ⟨hOrdered, hSources⟩
  have hAgree : Agree ([] ++ ts) :=
    (agree_congr hMem).mp ((addAll_ok_iff ordered_empty).mp ⟨r, h⟩)
  rcases (addAll_ok_iff ordered_empty).mpr hAgree with ⟨q, hq⟩
  rcases sources_ofList hq with ⟨hOther, hOthers⟩
  have hSame : q.sources = r.sources := by
    apply hOther.eq_of_mem_iff hOrdered
    intro t
    rw [hOthers, hSources, hMem]
  have hEq : q = r := congrArg mk hSame
  rw [← hEq]
  exact hq

----
-- Registries in use
----

/- A registry after sources were offered in order. -/
def offerAll
    (r : SourceRegistry)
    (ss : List SourceFile) : SourceRegistry :=
  ss.foldl (fun r s => (r.offer s).1) r

theorem offer_of_ok
    (h : r.add s = .ok q) :
    r.offer s = (q, none) := by
  rw [offer, h]

theorem offer_of_error
    {e : PayloadError}
    (h : r.add s = .error e) :
    r.offer s = (r, some e) := by
  rw [offer, h]

/- A source that is refused leaves the registry as it was. -/
theorem offer_refused
    (h : (r.offer s).2 ≠ none) :
    (r.offer s).1 = r := by
  cases hAdd : r.add s with
  | ok q =>
      rw [offer_of_ok hAdd] at h
      exact absurd rfl h
  | error e => rw [offer_of_error hAdd]

theorem ordered_offer
    (h : Ordered r.sources) :
    Ordered (r.offer s).1.sources := by
  cases hAdd : r.add s with
  | ok q =>
      rw [offer_of_ok hAdd]
      exact ordered_insertSorted h (add_ok_iff.mp hAdd)
  | error e =>
      rw [offer_of_error hAdd]
      exact h

/- A source is refused because its id is taken. -/
theorem get?_of_error
    {e : PayloadError}
    (h : Ordered r.sources)
    (hAdd : r.add s = .error e) :
    ∃ t, r.get? s.id = some t := by
  have hRefused : ¬ ∃ zs, insertSorted s r.sources = .ok zs := by
    rintro ⟨zs, hOk⟩
    have hAdded : r.add s = .ok ⟨zs⟩ := add_ok_iff.mpr hOk
    rw [hAdd] at hAdded
    cases hAdded
  rw [insertSorted_ok_iff h] at hRefused
  simp only [not_forall] at hRefused
  rcases hRefused with ⟨t, hMem, hId, -⟩
  exact ⟨t, (get?_eq_some_iff h).mpr ⟨hMem, hId⟩⟩

/- An offer fills an id that is free and does nothing else. -/
theorem get?_offer
    (h : Ordered r.sources)
    (id : Int) :
    (r.offer s).1.get? id =
      (r.get? id).or (if s.id = id then some s else none) := by
  cases hAdd : r.add s with
  | ok q =>
      have hInserted := add_ok_iff.mp hAdd
      have hMem := mem_insertSorted hInserted
      have hNew := ordered_insertSorted h hInserted
      rw [offer_of_ok hAdd]
      cases hFound : r.get? id with
      | some t =>
          rcases (get?_eq_some_iff h).mp hFound with ⟨hOld, hId⟩
          exact (get?_eq_some_iff hNew).mpr
            ⟨(hMem t).mpr (.inr hOld), hId⟩
      | none =>
          rw [Option.none_or]
          split
          next hId =>
            exact (get?_eq_some_iff hNew).mpr
              ⟨(hMem s).mpr (.inl rfl), hId⟩
          next hId =>
            apply Option.eq_none_iff_forall_ne_some.mpr
            intro t ht
            rcases (get?_eq_some_iff hNew).mp ht with
              ⟨hIn, hOwn⟩
            rcases (hMem t).mp hIn with rfl | hOld
            · exact hId hOwn
            · rw [(get?_eq_some_iff h).mpr ⟨hOld, hOwn⟩] at hFound
              cases hFound
  | error e =>
      rw [offer_of_error hAdd]
      split
      next hId =>
        rcases get?_of_error h hAdd with ⟨t, ht⟩
        rw [← hId, ht, Option.some_or]
      next => rw [Option.or_none]

theorem ordered_offerAll
    (h : Ordered r.sources)
    (ss : List SourceFile) :
    Ordered (r.offerAll ss).sources := by
  unfold offerAll
  induction ss generalizing r with
  | nil => exact h
  | cons s ss ih => exact ih (ordered_offer h)

/- For every id the source that was offered first is kept. -/
theorem get?_offerAll
    (ss : List SourceFile)
    (id : Int) :
    (empty.offerAll ss).get? id =
      ss.find? fun s => decide (s.id = id) := by
  induction ss using List.reverseRecOn with
  | nil => rfl
  | append_singleton ss s ih =>
      have hOrdered := ordered_offerAll ordered_empty ss
      have hLast : empty.offerAll (ss ++ [s]) =
          ((empty.offerAll ss).offer s).1 :=
        List.foldl_append
      rw [hLast, get?_offer hOrdered, ih, List.find?_append,
        List.find?_singleton]
      simp only [decide_eq_true_eq]

/-
  Whatever the order of some sources, they are refused if two
  of them share an id and differ; otherwise they make one and
  the same registry, which lists each of them once in
  increasing order of ids.  A source that is refused leaves
  the registry as it was, so that a registry keeps the first
  source of each id, whatever else is offered to it.
-/
theorem arrival_order_is_forgotten
    (h : ss.Perm ts) :
    ((∃ e, ofList ss = .error e) ↔ ∃ e, ofList ts = .error e) ∧
      ((∃ e, ofList ss = .error e) ↔
        ∃ s ∈ ss, ∃ t ∈ ss, s.id = t.id ∧ s ≠ t) ∧
      ((¬ ∃ e, ofList ss = .error e) →
        ∃ r, ofList ss = .ok r ∧ ofList ts = .ok r ∧
          (r.sources.Pairwise fun a b => a.id < b.id) ∧
          ∀ t, r.sources.count t = if t ∈ ss then 1 else 0) ∧
      (∀ r s, (offer r s).2 ≠ none → (offer r s).1 = r) ∧
      ∀ us id, (empty.offerAll us).get? id =
        us.find? fun s => decide (s.id = id) := by
  have hMem : ∀ t, t ∈ ss ↔ t ∈ ts := fun t => h.mem_iff
  refine ⟨?_, ofList_error_iff, ?_,
    fun r s => offer_refused, get?_offerAll⟩
  · rw [ofList_error_iff, ofList_error_iff]
    simp only [hMem]
  · intro hFine
    cases hBuilt : ofList ss with
    | error e => exact absurd ⟨e, hBuilt⟩ hFine
    | ok r =>
        rcases sources_ofList hBuilt with ⟨hOrdered, hSources⟩
        refine ⟨r, rfl, ofList_eq_of_mem_iff hMem hBuilt,
          hOrdered, ?_⟩
        intro t
        rw [hOrdered.count_eq]
        simp only [hSources]

/- Two sheets, one of which arrives twice. -/
def lateSheet : SourceFile :=
  ⟨7, "late.css", "/css/late.css"⟩

def earlySheet : SourceFile :=
  ⟨-2, "early.css", "/css/early.css"⟩

theorem sheets_make_one_registry :
    [lateSheet, earlySheet, lateSheet].Perm
        [earlySheet, lateSheet, lateSheet] ∧
      ∃ r, ofList [lateSheet, earlySheet, lateSheet] = .ok r ∧
        ofList [earlySheet, lateSheet, lateSheet] = .ok r ∧
        r.sources = [earlySheet, lateSheet] := by
  have hPerm : [lateSheet, earlySheet, lateSheet].Perm
      [earlySheet, lateSheet, lateSheet] :=
    .swap _ _ _
  have hBuilt : ofList [lateSheet, earlySheet, lateSheet] =
      .ok ⟨[earlySheet, lateSheet]⟩ :=
    rfl
  have hFine : ¬ ∃ e,
      ofList [lateSheet, earlySheet, lateSheet] = .error e := by
    rw [hBuilt]
    rintro ⟨e, he⟩
    cases he
  rcases (arrival_order_is_forgotten hPerm).2.2.1 hFine with
    ⟨r, hr, hOther, -⟩
  refine ⟨hPerm, r, hr, hOther, ?_⟩
  rw [hBuilt] at hr
  cases hr
  rfl

end SourceRegistry

end Attribution

end StyleCompanion
