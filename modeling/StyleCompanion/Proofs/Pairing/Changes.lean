import StyleCompanion.Pairing.Session
import StyleCompanion.Proofs.Pairing.Registry

/-
  What becomes of the registry, over any editor.

  Whatever the editor reports, the registry only loses pairs
  and openings.  It gains one by a request, which takes over a
  companion or begins an opening, or by the completion of an
  opening that is waited for.

  Main declarations:
    * `Session.loses_reconcile`
    * `Session.companion_present_of_reconcile`
    * `Session.loses_close`
    * `PairRegistry.Serves`
    * `Session.serves_showFor`
    * `Session.Joins`
    * `Session.registry_companionOpened`
    * `Session.companionOpened_orphaned`
-/

namespace StyleCompanion

namespace Pairing

open Attribution

namespace Session

variable {H : Type}

----
-- Reports of the editor
----

theorem loses_dropPair
    (s : Session H)
    (pair : DocumentPair) :
    s.registry.Loses (s.dropPair pair).registry :=
  s.registry.loses_remove pair.primary

variable [Host H] (s : Session H)

theorem loses_unpairVanished
    (present : List String)
    (pair : DocumentPair) :
    s.registry.Loses
      (s.unpairVanished present pair).registry := by
  unfold unpairVanished
  split
  · exact .refl _
  · exact loses_dropPair (s.info _) pair

theorem loses_unpairAll
    (present : List String)
    (pairs : List DocumentPair) :
    s.registry.Loses
      (pairs.foldl (unpairVanished present) s).registry := by
  induction pairs generalizing s with
  | nil => exact .refl _
  | cons pair pairs ih =>
      exact (loses_unpairVanished s present pair).trans (ih _)

theorem loses_reconcile :
    s.registry.Loses s.reconcile.registry :=
  s.loses_unpairAll _ _

/- What holds and outlasts that a pair is dropped. -/
theorem reconcile_induction
    {P : Session H → Prop}
    (hStart : P s)
    (hDrop : ∀ t text pair, P t →
      P (dropPair (info t text) pair)) :
    P s.reconcile := by
  refine List.foldlRecOn _ _ hStart fun t ht pair _ => ?_
  unfold unpairVanished
  split
  · exact ht
  · exact hDrop t _ pair ht

theorem paletteSize_reconcile :
    s.reconcile.engine.paletteSize = s.engine.paletteSize :=
  s.reconcile_induction
    (P := (·.engine.paletteSize = s.engine.paletteSize)) rfl
    fun _ _ _ h => h

/- A pair whose companion has vanished is dropped. -/
theorem companion_present_of_unpairAll
    {present : List String}
    {pairs : List DocumentPair}
    {pair : DocumentPair}
    (hFiled : s.registry.Filed)
    (hMem : pair ∈ pairs)
    (hLeft :
      pair ∈ (pairs.foldl (unpairVanished present)
        s).registry.pairList) :
    pair.companion ∈ present := by
  induction pairs generalizing s with
  | nil => cases hMem
  | cons first pairs ih =>
      have hStep := loses_unpairVanished s present first
      rcases List.mem_cons.mp hMem with hFirst | hRest
      · subst hFirst
        by_contra hGone
        have hThere :=
          (loses_unpairAll _ present pairs).mem_pairList hLeft
        rw [unpairVanished, if_neg hGone] at hThere
        exact (hFiled.mem_remove.mp hThere).2 rfl
      · exact ih (unpairVanished present s first)
          (hStep.filed hFiled) hRest hLeft

/- What is paired after a reconciliation is present. -/
theorem companion_present_of_reconcile
    {pair : DocumentPair}
    (hFiled : s.registry.Filed)
    (hPair : pair ∈ s.reconcile.registry.pairList) :
    pair.companion ∈ Host.documentsIn s.host .secondary :=
  s.companion_present_of_unpairAll hFiled
    (s.loses_reconcile.mem_pairList hPair) hPair

/- A pair whose companion is present stays. -/
theorem pairForPrimary_unpairAll
    {present : List String}
    {pairs : List DocumentPair}
    {p : String}
    (h : ∀ pair ∈ pairs, pair.primary = p →
      pair.companion ∈ present) :
    (pairs.foldl (unpairVanished present)
        s).registry.pairForPrimary p =
      s.registry.pairForPrimary p := by
  induction pairs generalizing s with
  | nil => rfl
  | cons pair pairs ih =>
      rw [List.forall_mem_cons] at h
      rw [List.foldl_cons, ih _ h.2]
      unfold unpairVanished
      split
      next => rfl
      next hGone =>
        have hOther : pair.primary ≠ p := fun hEq =>
          hGone (h.1 hEq)
        exact (Table.get?_erase _ pair.primary p).trans
          (if_neg hOther)

theorem pairForPrimary_reconcile
    (hFiled : s.registry.Filed)
    {pair : DocumentPair}
    (hPair : pair ∈ s.registry.pairList)
    (hPresent : pair.companion ∈
      Host.documentsIn s.host .secondary) :
    s.reconcile.registry.pairForPrimary pair.primary =
      some pair := by
  rw [← hFiled.pairForPrimary hPair]
  apply pairForPrimary_unpairAll
  intro other hOther hEq
  rw [hFiled.eq_of_primary hOther hPair hEq]
  exact hPresent

/- Nothing happens when all companions are present. -/
theorem reconcile_eq_self
    (h : ∀ pair ∈ s.registry.pairList,
      pair.companion ∈ Host.documentsIn s.host .secondary) :
    s.reconcile = s := by
  unfold reconcile
  generalize s.registry.pairList = pairs at h
  induction pairs with
  | nil => rfl
  | cons pair pairs ih =>
      rw [List.forall_mem_cons] at h
      have hStep :
          unpairVanished (Host.documentsIn s.host .secondary)
            s pair = s :=
        if_pos h.1
      rw [List.foldl_cons, hStep]
      exact ih h.2

/- A reconciliation concerns no opening. -/
theorem pending_reconcile :
    s.reconcile.registry.pending = s.registry.pending :=
  s.reconcile_induction
    (P := (·.registry.pending = s.registry.pending)) rfl
    fun _ _ _ h => h

theorem pendingFor_reconcile
    (p : String) :
    s.reconcile.registry.pendingFor p =
      s.registry.pendingFor p :=
  congrArg (Table.get? · p) s.pending_reconcile

/- A change of the active document drops stale pairs only. -/
theorem registry_activeViewChanged
    (uri : String) :
    (s.activeViewChanged uri).registry =
      s.reconcile.registry := by
  unfold activeViewChanged
  dsimp only
  split
  · unfold primaryFocused
    split <;> rfl
  · split
    · unfold companionFocused
      split <;> rfl
    · rfl

theorem loses_activeViewChanged
    (uri : String) :
    s.registry.Loses (s.activeViewChanged uri).registry := by
  rw [registry_activeViewChanged]
  exact s.loses_reconcile

theorem loses_noticeActivated
    (activated : Option (String × Region)) :
    s.registry.Loses
      (s.noticeActivated activated).registry := by
  cases activated with
  | none => exact .refl _
  | some place => exact s.loses_activeViewChanged place.1

theorem loses_releasePrimary
    (uri : String) :
    s.registry.Loses (s.releasePrimary uri).1.registry := by
  have hCancel := s.registry.loses_cancelOpen uri
  unfold releasePrimary
  dsimp only
  split
  · split <;> exact hCancel
  · refine hCancel.trans ?_
    split <;> exact PairRegistry.loses_remove _ _

theorem loses_companionClosed
    (uri : String) :
    s.registry.Loses (s.companionClosed uri).registry := by
  unfold companionClosed
  split
  · exact .refl _
  · exact s.loses_dropPair _

theorem loses_releaseClosed
    (uri : String) :
    s.registry.Loses (s.releaseClosed uri).1.registry := by
  unfold releaseClosed
  split
  · exact s.loses_releasePrimary uri
  · split
    · exact s.loses_companionClosed uri
    · exact .refl _

/- Whoever lets a companion go has lost a pair. -/
theorem size_releasePrimary
    (hFiled : s.registry.Filed)
    {uri c : String}
    (h : (s.releasePrimary uri).2 = some c) :
    (s.releasePrimary uri).1.registry.size <
      s.registry.size := by
  unfold releasePrimary at h ⊢
  dsimp only at h ⊢
  split at h
  next => cases h
  next pair hPair =>
    have hFound : s.registry.pairForPrimary uri = some pair := by
      split at hPair <;> exact hPair
    have hRemove := PairRegistry.size_remove_lt hFound
    rw [← hFiled.primary_eq hFound] at hRemove
    refine Nat.lt_of_le_of_lt ?_ hRemove
    split <;> exact Nat.le_refl _

theorem size_releaseClosed
    (hFiled : s.registry.Filed)
    {uri c : String}
    (h : (s.releaseClosed uri).2 = some c) :
    (s.releaseClosed uri).1.registry.size <
      s.registry.size := by
  unfold releaseClosed at h ⊢
  split at h
  next hPrimary =>
    rw [if_pos hPrimary]
    exact s.size_releasePrimary hFiled h
  next => split at h <;> cases h

theorem loses_closeWithin
    (fuel : Nat)
    (uri : String) :
    s.registry.Loses (closeWithin fuel s uri).registry := by
  induction fuel generalizing s uri with
  | zero => exact .refl _
  | succ n ih =>
      unfold closeWithin
      dsimp only
      have hNotice :=
        loses_noticeActivated
          { s with host := (Host.close s.host uri).host }
          (Host.close s.host uri).activated
      have hRelease :=
        hNotice.trans (loses_releaseClosed _ uri)
      split
      · split
        · exact hRelease
        · exact hRelease.trans (ih _ _)
      · exact hNotice

theorem loses_close
    (uri : String) :
    s.registry.Loses (s.close uri).registry :=
  s.loses_closeWithin _ uri

theorem loses_closeReleased
    (r : Session H × Option String) :
    r.1.registry.Loses (closeReleased r).registry := by
  unfold closeReleased
  split
  · exact .refl _
  · exact loses_close _ _

theorem loses_documentClosed
    (uri : String) :
    s.registry.Loses (s.documentClosed uri).registry :=
  (s.loses_releaseClosed uri).trans (loses_closeReleased _)

theorem loses_primaryClosed
    (uri : String) :
    s.registry.Loses (s.primaryClosed uri).registry :=
  (s.loses_releasePrimary uri).trans (loses_closeReleased _)

theorem companionEdited_registry
    (uri : String) :
    (s.companionEdited uri).registry = s.registry := by
  unfold companionEdited
  split <;> rfl

theorem refreshAndRender_registry
    (companion : String)
    (m : Model) :
    (s.refreshAndRender companion m).1.registry =
      s.registry := by
  unfold refreshAndRender
  split
  · rfl
  · dsimp only
    split
    · exact companionEdited_registry _ companion
    · rfl

theorem loses_teardown :
    s.registry.Loses s.teardown.registry := by
  have hViews : ∀ (pairs : List DocumentPair) (s : Session H),
      (pairs.foldl
        (fun s pair => s.clearView pair.companion)
        s).registry = s.registry := by
    intro pairs
    induction pairs with
    | nil => exact fun _ => rfl
    | cons pair pairs ih => exact fun s => ih _
  unfold teardown
  dsimp only
  rw [hViews]
  exact s.registry.loses_clear

end Session

----
-- Requests
----

/-
  What a request for a companion does to a registry.  The
  primary has the companion already, takes it over from
  another, or waits for it.
-/
inductive PairRegistry.Serves
    (p c : String)
    (r : PairRegistry) : PairRegistry → Prop where
  | renew
      {t : PairRegistry}
      {pair : DocumentPair}
      (hLost : r.Loses t)
      (hPair : t.pairForPrimary p = some pair)
      (hCompanion : pair.companion = c) :
      Serves p c r t
  | takeOver
      {t : PairRegistry}
      {shared : DocumentPair}
      (hLost : r.Loses t)
      (hFree : t.pairForPrimary p = none)
      (hShared : t.pairForCompanion c = some shared) :
      Serves p c r ((t.remove shared.primary).register p c)
  | wait
      {t : PairRegistry}
      {q : PendingOpen}
      (hLost : r.Loses t)
      (hFree : t.pairForPrimary p = none)
      (hNone : t.pairForCompanion c = none)
      (hPending : t.pendingFor p = some q)
      (hCompanion : q.companion = c) :
      Serves p c r t
  | begin
      {t : PairRegistry}
      (hLost : r.Loses t)
      (hFree : t.pairForPrimary p = none)
      (hNone : t.pairForCompanion c = none)
      (hIdle : t.pendingFor p = none) :
      Serves p c r (t.beginOpen p c).1

theorem PairRegistry.Serves.of_loses
    {p c : String}
    {r t u : PairRegistry}
    (h : r.Loses t)
    (hServes : t.Serves p c u) :
    r.Serves p c u := by
  cases hServes with
  | renew hLost hPair hCompanion =>
      exact .renew (h.trans hLost) hPair hCompanion
  | takeOver hLost hFree hShared =>
      exact .takeOver (h.trans hLost) hFree hShared
  | wait hLost hFree hNone hPending hCompanion =>
      exact .wait (h.trans hLost) hFree hNone hPending
        hCompanion
  | begin hLost hFree hNone hIdle =>
      exact .begin (h.trans hLost) hFree hNone hIdle

namespace Session

variable {H : Type} [Host H] {s : Session H}
variable {p c : String}

theorem beginOpening_registry
    (s : Session H)
    (p c : String) :
    (s.beginOpening p c).registry =
      (s.registry.beginOpen p c).1 := by
  unfold beginOpening
  dsimp only
  split <;> rfl

/- A companion of another primary moves to this one. -/
theorem showUnpaired_registry_shared
    {shared : DocumentPair}
    (hShared : s.registry.pairForCompanion c = some shared)
    (m : Model) :
    (s.showUnpaired p c m).1.registry =
      (s.registry.remove shared.primary).register p c := by
  have hCompanion :=
    PairRegistry.companion_of_pairForCompanion hShared
  subst hCompanion
  unfold showUnpaired
  rw [hShared]
  exact refreshAndRender_registry _ _ m

theorem serves_openCompanion
    (hFree : s.registry.pairForPrimary p = none)
    (hNone : s.registry.pairForCompanion c = none) :
    s.registry.Serves p c (s.openCompanion p c).registry := by
  unfold openCompanion
  split
  next hPending =>
    rw [beginOpening_registry]
    exact .begin (.refl _) hFree hNone hPending
  next q hPending =>
    split
    next hEq =>
      exact .wait (.refl _) hFree hNone hPending hEq
    next hNe =>
      rw [beginOpening_registry]
      exact .begin (s.registry.loses_cancelOpen p) hFree hNone
        (Table.get?_erase_self _ p)

theorem serves_showUnpaired
    (hFree : s.registry.pairForPrimary p = none)
    (m : Model) :
    s.registry.Serves p c
      (s.showUnpaired p c m).1.registry := by
  cases hShared : s.registry.pairForCompanion c with
  | some shared =>
      rw [showUnpaired_registry_shared hShared]
      exact .takeOver (.refl _) hFree hShared
  | none =>
      unfold showUnpaired
      rw [hShared]
      exact serves_openCompanion hFree hShared

theorem loses_replacePair
    (s : Session H)
    (pair : DocumentPair)
    (c : String) :
    s.registry.Loses (s.replacePair pair c).registry :=
  (loses_dropPair (s.info _) pair).trans (loses_close _ _)

/- A primary that is parted from its companion is free. -/
theorem pairForPrimary_replacePair
    {pair : DocumentPair}
    (hFiled : s.registry.Filed)
    (hPair : s.registry.pairForPrimary p = some pair)
    (c : String) :
    (s.replacePair pair c).registry.pairForPrimary p =
      none := by
  have hGone :
      (s.registry.remove pair.primary).pairForPrimary p =
        none := by
    rw [hFiled.primary_eq hPair]
    exact Table.get?_erase_self _ p
  have hClose := loses_close
    ((s.info
      ("Companion for " ++ pair.primary ++ " changed from " ++
        pair.companion ++ " to " ++ c)).dropPair pair)
    pair.companion
  exact hClose.pairForPrimary_eq_none hGone

theorem serves_showFor
    (hFiled : s.registry.Filed)
    (m : Model) :
    s.reconcile.registry.Serves p c
      (s.showFor p c m).1.registry := by
  have hReconciled := s.loses_reconcile.filed hFiled
  unfold showFor
  dsimp only
  split
  next hFree => exact serves_showUnpaired hFree m
  next pair hPair =>
    split
    next hEq =>
      rw [refreshAndRender_registry]
      exact .renew (.refl _) hPair hEq
    next hNe =>
      have hFree :=
        pairForPrimary_replacePair
          (s := s.reconcile.keepModel c m) hReconciled hPair c
      exact .of_loses
        (loses_replacePair (s.reconcile.keepModel c m) pair c)
        (serves_showUnpaired hFree m)

/-
  A primary without a pair takes over the companion that it
  asks for, if that is paired.
-/
theorem showFor_registry_shared
    {shared : DocumentPair}
    (hFree : s.reconcile.registry.pairForPrimary p = none)
    (hShared :
      s.reconcile.registry.pairForCompanion c = some shared)
    (m : Model) :
    (s.showFor p c m).1.registry =
      (s.reconcile.registry.remove
        shared.primary).register p c := by
  have hKept :
      (s.reconcile.keepModel c m).registry.pairForPrimary p =
        none := hFree
  unfold showFor
  simp only [hKept]
  exact showUnpaired_registry_shared
    (s := s.reconcile.keepModel c m) hShared m

----
-- Completions
----

/-
  The completion of an opening joins a pair: it succeeded, it
  is waited for, and the primary is open.
-/
def Joins
    (s : Session H)
    (q : PendingOpen)
    (ok : Bool) : Prop :=
  ok = true ∧ s.registry.Awaits q ∧
    Host.isOpen s.host q.primary = true

instance
    (s : Session H)
    (q : PendingOpen)
    (ok : Bool) :
    Decidable (s.Joins q ok) :=
  inferInstanceAs (Decidable (_ ∧ _ ∧ _))

theorem registry_companionOpened
    {q : PendingOpen}
    {ok : Bool}
    (h : s.Joins q ok) :
    (s.companionOpened q ok).registry =
      (s.registry.finishOpen q).1.register q.primary
        q.companion := by
  rcases h with ⟨rfl, hAwaits, hOpen⟩
  have hFinish := PairRegistry.finishOpen_eq hAwaits
  unfold companionOpened
  simp only [hFinish, hOpen, Bool.not_true, Bool.or_self,
    Bool.false_eq_true, if_false]
  split <;> rfl

/- A companion that joins no pair is closed again. -/
theorem companionOpened_orphaned
    {q : PendingOpen}
    (h : ¬ s.Joins q true) :
    ∃ text,
      s.companionOpened q true =
        ((({ s with registry := (s.registry.finishOpen q).1 } :
          Session H).info text).dropModel q.companion).close
            q.companion := by
  have hUnwanted :
      (!(s.registry.finishOpen q).2 ||
        !Host.isOpen s.host q.primary) = true := by
    by_cases hAwaits : s.registry.Awaits q
    · have hClosed : ¬ Host.isOpen s.host q.primary = true :=
        fun hOpen => h ⟨rfl, hAwaits, hOpen⟩
      rw [PairRegistry.finishOpen_eq hAwaits]
      simpa using hClosed
    · rw [PairRegistry.finishOpen_eq_self hAwaits]
      rfl
  unfold companionOpened
  simp only [hUnwanted, Bool.not_true, Bool.false_eq_true,
    if_true, if_false]
  exact ⟨_, rfl⟩

theorem loses_companionOpened
    {q : PendingOpen}
    {ok : Bool}
    (h : ¬ s.Joins q ok) :
    s.registry.Loses (s.companionOpened q ok).registry := by
  have hFinish := s.registry.loses_finishOpen q
  cases ok with
  | false => exact hFinish
  | true =>
      rcases companionOpened_orphaned h with ⟨text, hOpened⟩
      rw [hOpened]
      refine hFinish.trans ?_
      exact loses_close
        ((info { s with registry := _ } text).dropModel _) _

end Session

end Pairing

end StyleCompanion
