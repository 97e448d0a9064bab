import StyleCompanion.Proofs.Application.Telling

/-
  Which documents the backend knows of.

  A marked-up primary is announced when it is opened, and
  never again.  A launch forgets all that was announced, and
  the application does not announce its documents anew.  So
  the backend knows of the primaries that were opened since
  the launch, and of no others.

  Main declarations:
    * `Application.Announced`
    * `Application.kept_announced`
    * `Application.announced_iff_opened_since_launch`
    * `Application.opened_before_launch_is_unknown`
-/

namespace StyleCompanion

open Pairing
open Client (Note Ledger notesOn)
open Desktop (Notice Reading)

namespace Application

----
-- One document
----

/-
  What a client that accepts messages knows of a document, in
  a session with these notes and notices.
-/
structure Announced
    (u : String)
    (posted : List (String × Note))
    (heard : List Notice)
    (o : Outline) : Prop where
  opened : Table.get? o.ledger.versions u ≠ none →
    o.page? u ≠ none
  tracked : isMarkup u = true →
    ∀ text, o.page? u = some (.primary, text) →
      (Table.get? o.ledger.versions u ≠ none ↔
        .opened u .primary ∈ heard)
  noted :
    (∃ text, .opened 1 text ∈ notesOn u posted) ↔
      .opened u .primary ∈ heard ∧ isMarkup u = true

variable {u : String} {posted : List (String × Note)}
variable {heard : List Notice} {o : Outline} {r : Reading}

namespace Announced

/- Other documents are none of its concern. -/
theorem hear_of_ne
    (h : Announced u posted heard o)
    {n : Notice}
    (hOther : n.subject? ≠ some u) :
    Announced u (posted ++ o.notesOf r n) (heard ++ [n])
      (o.hear r n) := by
  have hHeard : .opened u .primary ∈ heard ++ [n] ↔
      .opened u .primary ∈ heard := by
    have hNot : Notice.opened u .primary ≠ n := by
      rintro rfl
      exact hOther rfl
    simp [hNot]
  refine ⟨?_, ?_, ?_⟩
  · rw [Outline.get?_hear_of_ne hOther,
      Outline.page?_hear_of_ne hOther]
    exact h.opened
  · rw [Outline.get?_hear_of_ne hOther,
      Outline.page?_hear_of_ne hOther, hHeard]
    exact h.tracked
  · rw [Client.notesOn_append,
      Outline.notesOn_notesOf_of_ne hOther,
      List.append_nil, hHeard]
    exact h.noted

/- A document that is opened was not open, hence not known. -/
theorem hear_opened
    (h : Announced u posted heard o)
    (hAccepting : o.ledger.state.isAccepting = true)
    {region : Region}
    (hClosed : o.page? u = none) :
    Announced u (posted ++ o.notesOf r (.opened u region))
      (heard ++ [.opened u region])
      (o.hear r (.opened u region)) := by
  have hUnknown : Table.get? o.ledger.versions u = none := by
    by_contra hKnown
    exact h.opened hKnown hClosed
  have hPage : (o.hear r (.opened u region)).page? u =
      some (region, r.given u) := if_pos rfl
  rcases Outline.hear_opened_cases (r := r) hAccepting
      hUnknown region with
    ⟨⟨rfl, hMarkup⟩, hNotes, hVersion⟩ |
      ⟨hOther, hNotes, hVersion⟩
  · refine ⟨?_, ?_, ?_⟩
    · simp [hPage]
    · simp [hVersion]
    · rw [hNotes, Client.notesOn_append]
      simp [notesOn, hMarkup]
  · refine ⟨?_, ?_, ?_⟩
    · simp [hPage]
    · intro hMarkup text hText
      rw [hPage] at hText
      cases hText
      exact absurd ⟨rfl, hMarkup⟩ hOther
    · rw [hNotes, List.append_nil, h.noted]
      refine and_congr_left fun hMarkup => ?_
      have hRegion : region ≠ .primary := fun hEq =>
        hOther ⟨hEq, hMarkup⟩
      simp [Ne.symm hRegion]

/- An edit changes no more than the version of a document. -/
theorem hear_edited
    (h : Announced u posted heard o)
    (hAccepting : o.ledger.state.isAccepting = true) :
    Announced u (posted ++ o.notesOf r (.edited u))
      (heard ++ [.edited u]) (o.hear r (.edited u)) := by
  have hPage : (o.hear r (.edited u)).page? u =
      (o.page? u).map fun p => (p.1, r.given u) := if_pos rfl
  have hSame :
      (Table.get? (o.hear r (.edited u)).ledger.versions u ≠
          none ↔
        Table.get? o.ledger.versions u ≠ none) ∧
      ∀ text, .opened 1 text ∉
        notesOn u (o.notesOf r (.edited u)) := by
    rcases Outline.hear_edited_cases (r := r) (u := u)
        hAccepting with
      ⟨version, -, hFound, hNotes, hVersion⟩ |
        ⟨-, hNotes, hVersion⟩
    · rw [hVersion, hFound, hNotes]
      simp [notesOn]
    · rw [hVersion, hNotes]
      simp [notesOn]
  refine ⟨?_, ?_, ?_⟩
  · rw [hSame.1, hPage]
    simpa using h.opened
  · intro hMarkup text hText
    rw [hPage] at hText
    rcases Option.map_eq_some_iff.mp hText with
      ⟨⟨region, old⟩, hOld, hEq⟩
    cases hEq
    rw [hSame.1]
    simpa using h.tracked hMarkup old hOld
  · simpa [Client.notesOn_append, hSame.2] using h.noted

/- A document that is closed is not known any more. -/
theorem hear_closed
    (h : Announced u posted heard o) :
    Announced u (posted ++ o.notesOf r (.closed u))
      (heard ++ [.closed u]) (o.hear r (.closed u)) := by
  have hPage : (o.hear r (.closed u)).page? u = none :=
    if_pos rfl
  have hNotes : ∀ text, .opened 1 text ∉
      notesOn u (o.notesOf r (.closed u)) := by
    intro text hMem
    rcases List.mem_filterMap.mp hMem with ⟨n, hn, hOn⟩
    have hClosed := Outline.eq_closed_of_mem_notesOf hn
    split at hOn
    · cases hOn.symm.trans (congrArg some hClosed)
    · cases hOn
  refine ⟨?_, ?_, ?_⟩
  · simp [Outline.get?_hear_closed]
  · simp [hPage]
  · simpa [Client.notesOn_append, hNotes] using h.noted

end Announced

/- What is known of a document is kept in all phases. -/
theorem kept_announced
    (u : String) :
    Kept (fun _ => True) (fun _ => True)
      fun posted heard o =>
        o.ledger.state.isAccepting = true →
          Announced u posted heard o where
  launch _ _ := by
    refine ⟨?_, ?_, ?_⟩
    · intro hKnown
      exact absurd rfl hKnown
    · intro _ _ _
      simp [Ledger.launched]
    · simp [notesOn]
  move hAgrees h hMoves hAccepting := by
    rcases hMoves.accepting hAgrees hAccepting with
      ⟨hBefore, hVersions⟩
    have hKnown := h hBefore
    refine ⟨?_, ?_, hKnown.noted⟩
    · dsimp only
      rw [hVersions]
      exact hKnown.opened
    · dsimp only
      rw [hVersions]
      exact hKnown.tracked
  fault h _ hAccepting :=
    let hKnown := h hAccepting
    ⟨hKnown.opened, hKnown.tracked, hKnown.noted⟩
  hear {r posted heard o n} _ _ h hAdmits hAfter := by
    have hAccepting : o.ledger.state.isAccepting = true := by
      rw [← Outline.state_hear]
      exact hAfter
    have hKnown := h hAccepting
    by_cases hSubject : n.subject? = some u
    · cases n with
      | opened v region =>
          cases hSubject
          exact hKnown.hear_opened hAccepting hAdmits
      | edited v =>
          cases hSubject
          exact hKnown.hear_edited hAccepting
      | closed v =>
          cases hSubject
          exact hKnown.hear_closed
      | _ => cases hSubject
    · exact hKnown.hear_of_ne hSubject

----
-- Runs
----

variable {a : Application}

/-
  When the backend is ready, the client follows a marked-up
  primary exactly if it was opened since the launch, whatever
  was opened and closed, started and ended in which order.
  Unless writing fails, an opening of the document has then
  been written in this session, and otherwise none has.
-/
theorem announced_iff_opened_since_launch
    (hListens : a.Listens)
    {ts : List Turn}
    (hProper : a.areProper ts = true)
    {c : Client}
    (hClient : (a.turns ts).host.client = some c)
    (hReady : c.state = .ready)
    {u : String}
    (hMarkup : isMarkup u = true)
    (hPrimary :
      (a.turns ts).workspace.regionOf u = some .primary) :
    let sent := (c.ledgerOn
      (Desktop.effects (a.turns ts).host.journal)).wire
    (c.isTracking u = true ↔
      .opened u .primary ∈ a.heardSince [] ts) ∧
    ((∀ t ∈ ts, t.event? ≠ some (.writeFails true)) →
      ((∃ text, .opened 1 text ∈ notesOn u sent) ↔
        .opened u .primary ∈ a.heardSince [] ts)) := by
  intro sent
  -- Before the first launch nothing is accepted.
  have hNew : ∀ (o : Outline) (errorText : String),
      o.ledger = (Client.new errorText).ledgerOn [] →
      o.ledger.state.isAccepting = true →
      Announced u [] [] o := by
    intro o errorText hNew hAccepting
    rw [hNew] at hAccepting
    cases hAccepting
  rcases (kept_announced u).run hListens hNew hProper
      (fun _ _ => trivial) (fun _ _ _ _ => trivial) with
    ⟨q, hAfter, hKnown⟩
  have hLedger := ledger_of_client hAfter hClient
  have hAccepting : q.ledger.state.isAccepting = true := by
    rw [← hLedger]
    change c.state.isAccepting = true
    rw [hReady]
    rfl
  have hAnnounced := hKnown hAccepting
  refine ⟨?_, ?_⟩
  · rcases Workspace.page?_of_regionOf hPrimary with
      ⟨text, hText⟩
    rw [← hAnnounced.tracked hMarkup text
      ((hAfter.page_eq u).trans hText), ← hLedger]
    exact Option.isSome_iff_ne_none
  · intro hWrites
    have hSends :=
      delivers_turns hListens hProper hWrites hClient
    have hAll : sent = a.postedSince [] ts :=
      hSends.ready hReady
    rw [hAll, hAnnounced.noted]
    exact and_iff_left hMarkup

/-
  The page is open in one session and, after the backend has
  ended and was launched again, closed and opened anew.
-/
theorem announced_iff_opened_since_launch_anew :
    let ts := meeting 1 ++ [visitPage,
        .command (.client (.exited 0))] ++ meeting 2 ++
      [.command (.close "file:///index.html"), visitPage]
    ∃ c, (workbench.turns ts).host.client = some c ∧
      c.state = .ready ∧
      c.isTracking "file:///index.html" = true ∧
      ∃ text, .opened 1 text ∈ notesOn "file:///index.html"
        (c.ledgerOn (Desktop.effects
          (workbench.turns ts).host.journal)).wire := by
  intro ts
  have hProper : workbench.areProper ts = true := by
    decide +kernel
  have hClient : (workbench.turns ts).host.client.map
      (fun c => (c.state,
        c.isTracking "file:///index.html")) =
        some (.ready, true) := by
    decide +kernel
  have hPrimary : (workbench.turns ts).workspace.regionOf
      "file:///index.html" = some .primary := by
    decide +kernel
  rcases Option.map_eq_some_iff.mp hClient with
    ⟨c, hClient, hPair⟩
  have hReady : c.state = .ready := congrArg Prod.fst hPair
  have hTracked : c.isTracking "file:///index.html" = true :=
    congrArg Prod.snd hPair
  rcases announced_iff_opened_since_launch workbench_listens
      hProper hClient hReady (by decide) hPrimary with
    ⟨hKnown, hSent⟩
  refine ⟨c, hClient, hReady, hTracked, ?_⟩
  refine (hSent ?_).mpr (hKnown.mp hTracked)
  simp [ts, meeting, visitPage, Turn.event?]

/-
  A page that was opened before the launch is not known to a
  backend that is ready.
-/
theorem opened_before_launch_is_unknown :
    let ts := visitPage :: meeting 1
    let after := workbench.turns ts
    workbench.Listens ∧ workbench.areProper ts = true ∧
      isMarkup "file:///index.html" = true ∧
      after.workspace.regionOf "file:///index.html" =
        some .primary ∧
      after.host.client.map (fun c => (c.state,
        c.isTracking "file:///index.html")) =
          some (.ready, false) := by
  intro ts after
  refine ⟨workbench_listens, ?_⟩
  decide +kernel

end Application

end StyleCompanion
