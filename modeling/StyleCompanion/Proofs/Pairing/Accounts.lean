import StyleCompanion.Proofs.Pairing.Coherence

/-
  Openings and pairs that were asked for.

  Whatever happens to a session, its pairs and the openings
  that its desk was asked for go back to requests.

  Main declarations:
    * `Session.mem_opens_step`
    * `Session.Accounted`
    * `Session.Accounted.step`
    * `Session.Accounted.run`
-/

namespace StyleCompanion

namespace Pairing

open Attribution

namespace Session

----
-- Openings that are asked for
----

variable {s : Session Desk} {p : String}

/- A closing asks for no opening. -/
theorem opens_closeWithin
    (hFiled : s.registry.Filed)
    (fuel : Nat)
    (uri : String) :
    (closeWithin fuel s uri).host.opens = s.host.opens := by
  induction fuel generalizing s uri with
  | zero => rfl
  | succ n ih =>
      have hShut : (s.shut uri).host.opens = s.host.opens :=
        (s.host.sameBut_close uri).opens
      have hRelease :=
        sheds_releaseClosed (s := s.shut uri) hFiled uri
      have hOpens := hRelease.opens.trans hShut
      rw [closeWithin_succ]
      split
      · split
        · exact hOpens
        · exact (ih (hRelease.registry.filed hFiled) _).trans
            hOpens
      · exact hShut

theorem opens_closeReleased
    {r : Session Desk × Option String}
    (hFiled : r.1.registry.Filed) :
    (closeReleased r).host.opens = r.1.host.opens := by
  unfold closeReleased
  split
  · rfl
  · exact opens_closeWithin hFiled _ _

theorem opens_refreshAndRender
    (s : Session Desk)
    (c : String)
    (m : Model) :
    (s.refreshAndRender c m).1.host.opens = s.host.opens := by
  rcases s.refreshAndRender_eq c m with ⟨t, hEq, hSame, -⟩
  rw [hEq]
  exact (t.sameBut_render c m).host.opens.trans
    hSame.host.opens

/- A request asks for an opening of its own. -/
theorem mem_opens_showUnpaired
    {c : String}
    {m : Model}
    {o : PendingOpen}
    (h : o ∈ (s.showUnpaired p c m).1.host.opens) :
    o ∈ s.host.opens ∨
      (⟨o.primary, o.companion⟩ : DocumentPair) = ⟨p, c⟩ := by
  have hBegin :
      ∀ t : Session Desk,
        t.registry.pendingFor p = none →
          o ∈ (t.beginOpening p c).host.opens →
            o ∈ t.host.opens ∨
              (⟨o.primary, o.companion⟩ : DocumentPair) =
                ⟨p, c⟩ := by
    intro t hIdle hMem
    unfold beginOpening at hMem
    rw [PairRegistry.beginOpen_eq hIdle] at hMem
    rcases List.mem_append.mp hMem with hOld | hNew
    · exact Or.inl hOld
    · rw [List.mem_singleton.mp hNew]
      exact Or.inr rfl
  unfold showUnpaired at h
  split at h
  next shared _ =>
    rw [opens_refreshAndRender] at h
    have hReveal :
        (s.takeOver p shared).host.opens = s.host.opens :=
      (sheds_reveal (s.info _) _ _).opens
    exact Or.inl (hReveal ▸ h)
  next =>
    unfold openCompanion at h
    split at h
    next hIdle => exact hBegin s hIdle h
    next other hPending =>
      split at h
      next => exact Or.inl h
      next =>
        exact hBegin (s.supersede p c other)
          (Table.get?_erase_self _ p) h

theorem mem_opens_showFor
    {c : String}
    {m : Model}
    {o : PendingOpen}
    (hFiled : s.registry.Filed)
    (h : o ∈ (s.showFor p c m).1.host.opens) :
    o ∈ s.host.opens ∨
      (⟨o.primary, o.companion⟩ : DocumentPair) = ⟨p, c⟩ := by
  have hOpens :
      (s.reconcile.keepModel c m).host.opens = s.host.opens :=
    (sheds_reconcile hFiled).opens
  have hReconciled := s.loses_reconcile.filed hFiled
  unfold showFor at h
  dsimp only at h
  split at h
  next =>
    rw [← hOpens]
    exact mem_opens_showUnpaired h
  next pair _ =>
    split at h
    next =>
      rw [opens_refreshAndRender, hOpens] at h
      exact Or.inl h
    next =>
      have hParted :
          ((s.reconcile.keepModel c m).replacePair pair
            c).host.opens = s.host.opens := by
        refine (opens_closeWithin ?_ _ _).trans hOpens
        exact (PairRegistry.loses_remove _ _).filed hReconciled
      rw [← hParted]
      exact mem_opens_showUnpaired h

theorem mem_opens_complete
    {i : Nat}
    {ok : Bool}
    {lines : Option Int}
    {o : PendingOpen}
    (hFiled : s.registry.Filed)
    (h : o ∈ (s.complete i ok lines).1.host.opens) :
    o ∈ s.host.opens := by
  cases hIndex : s.host.opens[i]? with
  | none =>
      simp only [complete, hIndex] at h
      exact h
  | some other =>
      rw [complete_eq hIndex] at h
      have hDelivered :
          (s.delivered i other ok lines).host.opens =
            s.host.opens.eraseIdx i := by
        unfold delivered
        split
        · exact (sheds_placeOpened (s := s.withoutOpening i)
            hFiled other.companion lines).1.opens
        · rfl
      have hKept := (s.loses_delivered i other ok lines).filed
        hFiled
      apply List.mem_of_mem_eraseIdx (i := i)
      rw [← hDelivered]
      generalize s.delivered i other ok lines = t at h hKept
      by_cases hJoins : t.Joins other ok
      · rcases hJoins with ⟨rfl, hAwaits, hOpen⟩
        rw [companionOpened_awaited
          (PairRegistry.finishOpen_eq hAwaits) hOpen] at h
        cases hModel : Table.get? t.models other.companion with
        | none =>
            rw [hModel] at h
            exact h
        | some m =>
            rw [hModel] at h
            exact (sameBut_render _ other.companion m
              ).host.opens ▸ h
      · cases ok with
        | false => exact h
        | true =>
            rcases companionOpened_orphaned hJoins with
              ⟨text, hOpened⟩
            rw [hOpened] at h
            have hClosed := opens_closeWithin
              (s := (({ t with
                  registry := (t.registry.finishOpen other).1 } :
                Session Desk).info text).dropModel
                  other.companion)
              ((t.registry.loses_finishOpen other).filed hKept)
            exact hClosed _ _ ▸ h

/- An opening that is waited for was so before, or is asked. -/
theorem mem_opens_step
    {e : Event}
    {o : PendingOpen}
    (hFiled : s.registry.Filed)
    (h : o ∈ (s.step e).host.opens) :
    o ∈ s.host.opens ∨
      s.asks e = some ⟨o.primary, o.companion⟩ := by
  cases e with
  | place uri region active =>
      exact Or.inl
        ((s.host.sameBut_add uri region active).opens ▸ h)
  | takeOut uri =>
      exact Or.inl ((s.host.sameBut_takeOut uri).opens ▸ h)
  | close uri =>
      exact Or.inl (opens_closeWithin hFiled _ uri ▸ h)
  | prepareReload _ _ => exact Or.inl h
  | setCount _ _ => exact Or.inl h
  | complete i ok lines =>
      exact Or.inl (mem_opens_complete hFiled h)
  | showCompanion uri m given =>
      cases hPair : s.asks (.showCompanion uri m given) with
      | none =>
          rcases step_of_asks_eq_none hPair with ⟨text, hStep⟩
          rw [hStep] at h
          exact Or.inl h
      | some pair =>
          rcases step_of_asks hPair with ⟨m', hStep⟩
          rw [hStep] at h
          rcases mem_opens_showFor hFiled h with hOld | hNew
          · exact Or.inl hOld
          · rw [hNew]
            exact Or.inr rfl
  | documentOpened =>
      exact Or.inl ((sheds_reconcile hFiled).opens ▸ h)
  | activeViewChanged uri =>
      exact Or.inl
        ((sheds_activeViewChanged hFiled uri).opens ▸ h)
  | documentClosed uri =>
      have hRelease := sheds_releaseClosed hFiled uri
      have hClosed := opens_closeReleased
        (hRelease.registry.filed hFiled)
      exact Or.inl (hClosed.trans hRelease.opens ▸ h)
  | companionEdited uri =>
      exact Or.inl ((s.sheds_companionEdited uri).opens ▸ h)
  | primaryClosed uri =>
      have hRelease := sheds_releasePrimary hFiled uri
      have hClosed := opens_closeReleased
        (hRelease.registry.filed hFiled)
      exact Or.inl (hClosed.trans hRelease.opens ▸ h)
  | companionClosed uri =>
      exact Or.inl
        ((sheds_companionClosed hFiled uri).opens ▸ h)
  | reconcile =>
      exact Or.inl ((sheds_reconcile hFiled).opens ▸ h)
  | teardown => exact Or.inl (s.sheds_teardown.opens ▸ h)
  | setPaletteSize size =>
      exact Or.inl ((s.sheds_setPaletteSize size).opens ▸ h)

----
-- Pairs that are asked for
----

namespace Enrolled

variable {asked : List DocumentPair} {r : PairRegistry}
variable {c : String}

theorem register
    (h : Enrolled asked r)
    (hAsked : ⟨p, c⟩ ∈ asked) :
    Enrolled asked (r.register p c) where
  filed := h.filed.register p c
  pairs pair hPair := by
    rcases h.filed.mem_register.mp hPair with
      hNew | ⟨hOld, -⟩
    · rw [hNew]
      exact hAsked
    · exact h.pairs pair hOld
  pending := h.pending

theorem beginOpen
    (h : Enrolled asked r)
    (hAsked : ⟨p, c⟩ ∈ asked) :
    Enrolled asked (r.beginOpen p c).1 where
  filed := h.filed.beginOpen p c
  pairs pair hPair := by
    apply h.pairs
    unfold PairRegistry.beginOpen at hPair
    split at hPair
    · exact hPair
    · exact hPair
  pending o ho := by
    rcases h.filed.mem_pendingList_beginOpen ho with
      hOld | hNew
    · exact h.pending o hOld
    · rw [hNew]
      exact hAsked

end Enrolled

/- All pairs and all openings were asked for. -/
structure Accounted
    (asked : List DocumentPair)
    (s : Session Desk) : Prop where
  enrolled : Enrolled asked s.registry
  opens :
    ∀ o ∈ s.host.opens, ⟨o.primary, o.companion⟩ ∈ asked

theorem accounted_new
    (asked : List DocumentPair)
    (paletteSize : Nat)
    {desk : Desk}
    (hIdle : desk.opens = []) :
    Accounted asked (Session.new paletteSize desk) := by
  refine ⟨⟨PairRegistry.filed_new, ?_, ?_⟩, ?_⟩
  · intro pair hPair
    cases hPair
  · intro o ho
    cases ho
  · intro o ho
    change o ∈ desk.opens at ho
    rw [hIdle] at ho
    cases ho

namespace Accounted

variable {asked : List DocumentPair}

theorem step
    {e : Event}
    (h : Accounted asked s)
    (hAsks : ∀ pair ∈ s.asks e, pair ∈ asked) :
    Accounted asked (s.step e) := by
  have hTurn := turn_step h.enrolled.filed e
  have hReconciled := h.enrolled.loses s.loses_reconcile
  constructor
  · generalize (s.step e).registry = t at hTurn
    cases hTurn with
    | lose hLost => exact h.enrolled.loses hLost
    | serve hPair hServes =>
        have hAsked := hAsks _ hPair
        cases hServes with
        | renew hLost _ _ => exact hReconciled.loses hLost
        | takeOver hLost _ _ =>
            exact ((hReconciled.loses hLost).loses
              (PairRegistry.loses_remove _ _)).register hAsked
        | wait hLost _ _ _ _ => exact hReconciled.loses hLost
        | begin hLost _ _ _ =>
            exact (hReconciled.loses hLost).beginOpen hAsked
    | join hEvent hIndex hJoins =>
        have hAsked := h.opens _ (List.mem_of_getElem? hIndex)
        exact ((h.enrolled.loses
          (s.loses_delivered _ _ _ _)).loses
            (PairRegistry.loses_finishOpen _ _)).register hAsked
  · intro o ho
    rcases mem_opens_step h.enrolled.filed ho with
      hOld | hPair
    · exact h.opens o hOld
    · exact hAsks _ hPair

theorem run
    {events : List Event}
    (h : Accounted asked s)
    (hAsked : ∀ pair ∈ s.asked events, pair ∈ asked) :
    Accounted asked (s.run events) := by
  induction events generalizing s with
  | nil => exact h
  | cons e events ih =>
      apply ih
      · apply h.step
        intro pair hPair
        apply hAsked
        exact List.mem_append_left _
          (Option.mem_toList.mpr hPair)
      · intro pair hPair
        exact hAsked pair (List.mem_append_right _ hPair)

end Accounted

/- What two runs ask for, one after the other. -/
theorem asked_append
    (s : Session Desk)
    (first second : List Event) :
    s.asked (first ++ second) =
      s.asked first ++ (s.run first).asked second := by
  induction first generalizing s with
  | nil => rfl
  | cons e first ih =>
      rw [List.cons_append, asked, ih, asked,
        List.append_assoc]
      rfl

end Session

end Pairing

end StyleCompanion
