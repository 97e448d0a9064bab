import StyleCompanion.Proofs.Pairing.Effects

/-
  Runs of the pairing over a desk, seen from the registry.

  An event lets the registry lose pairs and openings, serves a
  request, or joins a pair.  Whatever holds of a session and
  is kept by each of these holds after every run.

  Main declarations:
    * `Session.asks`
    * `Session.Turn`
    * `Session.turn_step`
    * `Session.filed_run`
    * `Session.run_induction`
    * `Session.run_forall_iff`
-/

namespace StyleCompanion

namespace Pairing

namespace Session

open Attribution

----
-- Requests
----

/-
  The pair that an event asks for.  A request without a
  companion or without a primary is ignored.
-/
def asks
    (s : Session Desk)
    (e : Event) : Option DocumentPair :=
  match e with
  | .showCompanion uri _ given =>
      if Text.trim uri = "" ∨ s.primaryFor given = "" then
        none
      else some ⟨s.primaryFor given, Text.trim uri⟩
  | _ => none

/- A request for a companion of a primary, with no rules. -/
def Event.request
    (uri primary : String) : Event :=
  .showCompanion uri ⟨.empty, [], [], [], []⟩ (some primary)

variable {s : Session Desk} {e : Event}

theorem step_of_asks
    {pair : DocumentPair}
    (h : s.asks e = some pair) :
    ∃ m,
      s.step e =
        (s.showFor pair.primary pair.companion m).1 := by
  unfold asks at h
  split at h
  next uri m given =>
    split at h
    next => cases h
    next hNamed =>
      rw [not_or] at hNamed
      cases h
      refine ⟨m, ?_⟩
      unfold step showCompanion
      simp [String.isEmpty_iff, hNamed]
  next => cases h

/- A request that asks for nothing is only logged. -/
theorem step_of_asks_eq_none
    {uri : String}
    {m : Model}
    {given : Option String}
    (h : s.asks (.showCompanion uri m given) = none) :
    ∃ text,
      s.step (.showCompanion uri m given) = s.warn text := by
  simp only [asks] at h
  split at h
  next hIgnored =>
    unfold step showCompanion
    by_cases hBlank : Text.trim uri = ""
    · simp only [String.isEmpty_iff, hBlank, if_true]
      exact ⟨_, rfl⟩
    · have hNone := hIgnored.resolve_left hBlank
      simp only [String.isEmpty_iff, hBlank, hNone, if_true,
        if_false]
      exact ⟨_, rfl⟩
  next => cases h

----
-- Completions
----

/-
  A companion that appears is added to the desk, which may let
  the pairing reconcile.
-/
theorem placeOpened_cases
    (s : Session Desk)
    (companion : String)
    (lines : Option Int) :
    ∃ (counts : Table String Int) (region : Region),
      s.placeOpened companion lines =
          s.onDesk (fun d =>
            { d with counts := counts }.add companion region
              true) ∨
        s.placeOpened companion lines =
          (s.onDesk (fun d =>
            { d with counts := counts }.add companion region
              true)).reconcile := by
  unfold placeOpened
  extract_lets d
  have hCounts :
      ∃ counts, d = { s.host with counts := counts } := by
    cases lines with
    | none => exact ⟨s.host.counts, rfl⟩
    | some n => exact ⟨_, rfl⟩
  clear_value d
  rcases hCounts with ⟨counts, rfl⟩
  refine ⟨counts, ?_⟩
  split
  · exact ⟨_, Or.inl rfl⟩
  · split
    · exact ⟨_, Or.inr rfl⟩
    · exact ⟨_, Or.inl rfl⟩

theorem loses_placeOpened
    (s : Session Desk)
    (companion : String)
    (lines : Option Int) :
    s.registry.Loses
      (s.placeOpened companion lines).registry := by
  rcases s.placeOpened_cases companion lines with
    ⟨counts, region, hPlace | hPlace⟩
  · rw [hPlace]
    exact .refl _
  · rw [hPlace]
    exact loses_reconcile (s.onDesk _)

theorem loses_delivered
    (s : Session Desk)
    (i : Nat)
    (q : PendingOpen)
    (ok : Bool)
    (lines : Option Int) :
    s.registry.Loses
      (s.delivered i q ok lines).registry := by
  unfold delivered
  split
  · exact loses_placeOpened (s.withoutOpening i) _ lines
  · exact .refl _

/- The appearing of a companion ends no opening. -/
theorem pending_delivered
    (s : Session Desk)
    (i : Nat)
    (q : PendingOpen)
    (ok : Bool)
    (lines : Option Int) :
    (s.delivered i q ok lines).registry.pending =
      s.registry.pending := by
  unfold delivered
  split
  · rcases (s.withoutOpening i).placeOpened_cases q.companion
        lines with ⟨counts, region, hPlace | hPlace⟩
    · rw [hPlace]
      rfl
    · rw [hPlace, pending_reconcile]
      rfl
  · rfl

----
-- Turns of the registry
----

/- What an event does to the registry. -/
inductive Turn
    (s : Session Desk)
    (e : Event) : PairRegistry → Prop where
  | lose
      {t : PairRegistry}
      (hLost : s.registry.Loses t) :
      Turn s e t
  | serve
      {pair : DocumentPair}
      {t : PairRegistry}
      (hAsks : s.asks e = some pair)
      (hServes :
        s.reconcile.registry.Serves pair.primary
          pair.companion t) :
      Turn s e t
  | join
      {i : Nat}
      {ok : Bool}
      {lines : Option Int}
      {q : PendingOpen}
      (hEvent : e = .complete i ok lines)
      (hIndex : s.host.opens[i]? = some q)
      (hJoins : (s.delivered i q ok lines).Joins q ok) :
      Turn s e
        (((s.delivered i q ok lines).registry.finishOpen
          q).1.register q.primary q.companion)

theorem turn_showCompanion
    (hFiled : s.registry.Filed)
    (uri : String)
    (m : Model)
    (given : Option String) :
    s.Turn (.showCompanion uri m given)
      (s.step (.showCompanion uri m given)).registry := by
  cases hAsks : s.asks (.showCompanion uri m given) with
  | none =>
      rcases step_of_asks_eq_none hAsks with ⟨text, hStep⟩
      rw [hStep]
      exact .lose (.refl _)
  | some pair =>
      rcases step_of_asks hAsks with ⟨m', hStep⟩
      rw [hStep]
      exact .serve hAsks (serves_showFor hFiled m')

theorem turn_complete
    (s : Session Desk)
    (i : Nat)
    (ok : Bool)
    (lines : Option Int) :
    s.Turn (.complete i ok lines)
      (s.complete i ok lines).1.registry := by
  cases hIndex : s.host.opens[i]? with
  | none =>
      simp only [complete, hIndex]
      exact .lose (.refl _)
  | some q =>
      rw [complete_eq hIndex]
      by_cases hJoins : (s.delivered i q ok lines).Joins q ok
      · rw [registry_companionOpened hJoins]
        exact .join rfl hIndex hJoins
      · exact .lose
          ((s.loses_delivered i q ok lines).trans
            (loses_companionOpened hJoins))

theorem turn_step
    (hFiled : s.registry.Filed)
    (e : Event) :
    s.Turn e (s.step e).registry := by
  cases e with
  | place _ _ _ => exact .lose (.refl _)
  | takeOut _ => exact .lose (.refl _)
  | close uri => exact .lose (s.loses_close uri)
  | prepareReload _ _ => exact .lose (.refl _)
  | setCount _ _ => exact .lose (.refl _)
  | complete i ok lines => exact s.turn_complete i ok lines
  | showCompanion uri m given =>
      exact turn_showCompanion hFiled uri m given
  | documentOpened => exact .lose s.loses_reconcile
  | activeViewChanged uri =>
      exact .lose (s.loses_activeViewChanged uri)
  | documentClosed uri =>
      exact .lose (s.loses_documentClosed uri)
  | companionEdited uri =>
      apply Turn.lose
      change s.registry.Loses (s.companionEdited uri).registry
      rw [companionEdited_registry]
      exact .refl _
  | primaryClosed uri =>
      exact .lose (s.loses_primaryClosed uri)
  | companionClosed uri =>
      exact .lose (s.loses_companionClosed uri)
  | reconcile => exact .lose s.loses_reconcile
  | teardown => exact .lose s.loses_teardown
  | setPaletteSize _ => exact .lose (.refl _)

/- Pairs and openings stay filed under their primaries. -/
theorem filed_step
    (hFiled : s.registry.Filed)
    (e : Event) :
    (s.step e).registry.Filed := by
  have hTurn := turn_step hFiled e
  have hReconciled := s.loses_reconcile.filed hFiled
  generalize (s.step e).registry = t at hTurn ⊢
  cases hTurn with
  | lose hLost => exact hLost.filed hFiled
  | serve hAsks hServes =>
      cases hServes with
      | renew hLost _ _ => exact hLost.filed hReconciled
      | takeOver hLost _ _ =>
          apply PairRegistry.Filed.register
          apply (PairRegistry.loses_remove _ _).filed
          exact hLost.filed hReconciled
      | wait hLost _ _ _ _ => exact hLost.filed hReconciled
      | begin hLost _ _ _ =>
          exact (hLost.filed hReconciled).beginOpen _ _
  | join hEvent hIndex hJoins =>
      apply PairRegistry.Filed.register
      apply (PairRegistry.loses_finishOpen _ _).filed
      exact (s.loses_delivered _ _ _ _).filed hFiled

----
-- Runs
----

/- What every event of a run keeps holds after the run. -/
theorem run_induction
    {P : Session Desk → Prop}
    {events : List Event}
    (hStep : ∀ s, ∀ e ∈ events, P s → P (s.step e))
    {s : Session Desk}
    (h : P s) :
    P (s.run events) := by
  induction events generalizing s with
  | nil => exact h
  | cons e events ih =>
      apply ih
      · intro t e' he'
        exact hStep t e' (List.mem_cons_of_mem e he')
      · exact hStep s e List.mem_cons_self h

theorem filed_run
    (paletteSize : Nat)
    (desk : Desk)
    (events : List Event) :
    ((Session.new paletteSize desk).run
      events).registry.Filed := by
  refine run_induction
    (P := fun t => t.registry.Filed) ?_ ?_
  · intro t e _ ht
    exact filed_step ht e
  · exact PairRegistry.filed_new

/- One event more. -/
theorem run_take_succ
    {events : List Event}
    {k : Nat}
    (s : Session Desk)
    (h : events[k]? = some e) :
    s.run (events.take (k + 1)) =
      (s.run (events.take k)).step e := by
  unfold run
  rw [List.take_add_one, h, List.foldl_append]
  rfl

/-
  A property that an event destroys exactly if it is bad holds
  throughout a run exactly if no event of the run is bad.
-/
theorem run_forall_iff
    {P : Session Desk → Prop}
    {Bad : Session Desk → Event → Prop}
    {events : List Event}
    (hStart : P s)
    (hStep :
      ∀ k e, events[k]? = some e →
        P (s.run (events.take k)) →
          (P ((s.run (events.take k)).step e) ↔
            ¬ Bad (s.run (events.take k)) e)) :
    (∀ k, P (s.run (events.take k))) ↔
      ∀ k e, events[k]? = some e →
        ¬ Bad (s.run (events.take k)) e := by
  constructor
  · intro hAll k e he
    apply (hStep k e he (hAll k)).mp
    rw [← run_take_succ s he]
    exact hAll (k + 1)
  · intro hGood k
    induction k with
    | zero => exact hStart
    | succ k ih =>
        cases he : events[k]? with
        | none =>
            rw [List.take_add_one, he]
            simpa using ih
        | some e =>
            rw [run_take_succ s he]
            exact (hStep k e he ih).mpr (hGood k e he)

end Session

end Pairing

end StyleCompanion
