import StyleCompanion.Proofs.Application.Telling

/-
  The backend's copies of texts.

  The client posts the text of a document when it is opened
  and whenever it is changed.  As long as a document is not
  paired as a companion, the last text that was posted is the
  text in the editor, however it got there: from the disk, by
  typing or by reading the document again.

  Main declarations:
    * `Client.lastText`
    * `Application.Mirrors`
    * `Application.kept_mirrors`
    * `Application.tracked_texts_are_current`
-/

namespace StyleCompanion

open Pairing
open Client (Note Ledger notesOn)
open Desktop (Notice Reading)

----
-- Copies
----

namespace Client

/- The text that a note carries. -/
def Note.text? : Note → Option String
  | .opened _ text => some text
  | .changed _ text => some text
  | .closed => none

/- The last text of a document that notes carry. -/
def lastText
    (u : String)
    (ns : List (String × Note)) : Option String :=
  ((notesOn u ns).filterMap Note.text?).getLast?

/- Notes on other documents do not matter. -/
theorem lastText_append_of_nil
    {u : String}
    {ns ms : List (String × Note)}
    (h : notesOn u ms = []) :
    lastText u (ns ++ ms) = lastText u ns := by
  unfold lastText
  rw [notesOn_append, h, List.append_nil]

/- A note with a text is the last one. -/
theorem lastText_concat
    {u text : String}
    {note : Note}
    (ns : List (String × Note))
    (h : note.text? = some text) :
    lastText u (ns ++ [(u, note)]) = some text := by
  simp [lastText, notesOn, h]

end Client

open Client (lastText)

namespace Application

/-
  A document that the client follows is open with the text
  that was posted last.
-/
def Mirrors
    (u : String)
    (posted : List (String × Note))
    (o : Outline) : Prop :=
  Table.get? o.ledger.versions u ≠ none →
    ∃ region text, o.page? u = some (region, text) ∧
      lastText u posted = some text

namespace Mirrors

variable {u : String} {posted : List (String × Note)}
variable {o : Outline} {r : Reading}

theorem hear_of_ne
    (h : Mirrors u posted o)
    {n : Notice}
    (hOther : n.subject? ≠ some u) :
    Mirrors u (posted ++ o.notesOf r n) (o.hear r n) := by
  unfold Mirrors
  rw [Outline.get?_hear_of_ne hOther,
    Outline.page?_hear_of_ne hOther,
    Client.lastText_append_of_nil
      (Outline.notesOn_notesOf_of_ne hOther)]
  exact h

/- A document is opened with the text that is posted. -/
theorem hear_opened
    (h : Mirrors u posted o)
    (hAccepting : o.ledger.state.isAccepting = true)
    {region : Region}
    (hClosed : o.page? u = none) :
    Mirrors u (posted ++ o.notesOf r (.opened u region))
      (o.hear r (.opened u region)) := by
  have hUnknown : Table.get? o.ledger.versions u = none := by
    by_contra hKnown
    rcases h hKnown with ⟨_, _, hPage, -⟩
    rw [hClosed] at hPage
    cases hPage
  intro hTracked
  rcases Outline.hear_opened_cases (r := r) hAccepting
      hUnknown region with
    ⟨-, hNotes, -⟩ | ⟨-, -, hVersion⟩
  · refine ⟨region, r.given u, if_pos rfl, ?_⟩
    rw [hNotes]
    exact Client.lastText_concat posted rfl
  · exact absurd hVersion hTracked

/- A change of a text is posted unless it is a companion's. -/
theorem hear_edited
    (h : Mirrors u posted o)
    (hAccepting : o.ledger.state.isAccepting = true)
    (hUnpaired : r.paired u = false) :
    Mirrors u (posted ++ o.notesOf r (.edited u))
      (o.hear r (.edited u)) := by
  intro hTracked
  rcases Outline.hear_edited_cases (r := r) (u := u)
      hAccepting with
    ⟨version, -, hFound, hNotes, -⟩ | ⟨hReason, -, hVersion⟩
  · rcases h (by simp [hFound]) with ⟨region, old, hPage, -⟩
    refine ⟨region, r.given u, ?_, ?_⟩
    · refine (if_pos rfl).trans ?_
      rw [hPage]
      rfl
    · rw [hNotes]
      exact Client.lastText_concat posted rfl
  · rw [hVersion] at hTracked
    rcases hReason with hPaired | hUnknown
    · rw [hUnpaired] at hPaired
      cases hPaired
    · exact absurd hUnknown hTracked

theorem hear_closed :
    Mirrors u (posted ++ o.notesOf r (.closed u))
      (o.hear r (.closed u)) := by
  intro hTracked
  exact absurd Outline.get?_hear_closed hTracked

end Mirrors

/- All turns keep the copy of what is no companion. -/
theorem kept_mirrors
    (u : String) :
    Kept (fun r => r.paired u = false) (fun _ => True)
      fun posted _ o =>
        o.ledger.state.isAccepting = true →
          Mirrors u posted o where
  launch _ _ hTracked := absurd rfl hTracked
  move hAgrees h hMoves hAccepting := by
    rcases hMoves.accepting hAgrees hAccepting with
      ⟨hBefore, hVersions⟩
    unfold Mirrors
    dsimp only
    rw [hVersions]
    exact h hBefore
  fault h _ hAccepting := h hAccepting
  hear {r posted heard o n} hUnpaired _ h hAdmits hAfter := by
    have hAccepting : o.ledger.state.isAccepting = true := by
      rw [← Outline.state_hear]
      exact hAfter
    have hMirrors := h hAccepting
    by_cases hSubject : n.subject? = some u
    · cases n with
      | opened v region =>
          cases hSubject
          exact hMirrors.hear_opened hAccepting hAdmits
      | edited v =>
          cases hSubject
          exact hMirrors.hear_edited hAccepting hUnpaired
      | closed v =>
          cases hSubject
          exact Mirrors.hear_closed
      | _ => cases hSubject
    · exact hMirrors.hear_of_ne hSubject

----
-- Runs
----

variable {a : Application}

/-
  While the client accepts messages, every document that it
  follows and that never was a companion is open, and the last
  text posted for it since the launch is the text in the
  editor.  Unless writing fails, what was posted waits in the
  outbox until the backend is ready, and has been written when
  it is.
-/
theorem tracked_texts_are_current
    (hListens : a.Listens)
    {ts : List Turn}
    (hProper : a.areProper ts = true)
    {u : String}
    (hCompanion : ∀ k,
      (a.turns (ts.take k)).registry.pairForCompanion u = none)
    {c : Client}
    (hClient : (a.turns ts).host.client = some c)
    (hAccepting : c.state.isAccepting = true)
    (hTracked : c.isTracking u = true) :
    let posted := a.postedSince [] ts
    let sent := (c.ledgerOn
      (Desktop.effects (a.turns ts).host.journal)).wire
    (∃ e, (a.turns ts).workspace.editor? u = some e ∧
      lastText u posted = some e.text) ∧
    ((∀ t ∈ ts, t.event? ≠ some (.writeFails true)) →
      (c.state.isQueueing = true →
        sent = [] ∧ Client.notes c.outbox = posted) ∧
      (c.state = .ready → sent = posted)) := by
  intro posted sent
  refine ⟨?_, ?_⟩
  · have hNew : ∀ (o : Outline) (errorText : String),
        o.ledger = (Client.new errorText).ledgerOn [] →
        o.ledger.state.isAccepting = true →
        Mirrors u [] o := by
      intro o errorText hNew hAccepting
      rw [hNew] at hAccepting
      cases hAccepting
    have hUnpaired : ∀ k t,
        ((a.turns (ts.take k)).reading t).paired u = false := by
      intro k t
      change ((a.turns (ts.take k)).registry.pairForCompanion
        u).isSome = false
      rw [hCompanion k]
      rfl
    rcases (kept_mirrors u).run hListens hNew hProper
        hUnpaired (fun _ _ _ _ => trivial) with
      ⟨q, hAfter, hMirrors⟩
    have hLedger := ledger_of_client hAfter hClient
    rw [← hLedger] at hMirrors
    rcases hMirrors hAccepting
        (hLedger ▸ Option.isSome_iff_ne_none.mp hTracked) with
      ⟨region, text, hPage, hLast⟩
    rw [hAfter.page_eq] at hPage
    rcases Workspace.editor?_of_page? hPage with
      ⟨e, hEditor, rfl⟩
    exact ⟨e, hEditor, hLast⟩
  · intro hWrites
    have hSends :=
      delivers_turns hListens hProper hWrites hClient
    exact ⟨hSends.waits, hSends.ready⟩

/-
  The page is opened before the process has started, typed
  into before the backend is ready, and read again after its
  file was written.
-/
theorem tracked_texts_are_current_after_reload :
    let uri := "file:///index.html"
    let ts : List Turn :=
      [.command (.client (.start .default)), visitPage,
        .command (.client .started),
        .command (.type uri "x"),
        .command (.client
          (.message [("id", .int 1), ("result", .null)])),
        .command (.writeFile "/index.html" [60, 98, 62]),
        .command (.reload uri)]
    ∃ c e, (workbench.turns ts).host.client = some c ∧
      c.state = .ready ∧ c.isTracking uri = true ∧
      (workbench.turns ts).workspace.editor? uri = some e ∧
      e.text = "<b>" ∧
      lastText uri (c.ledgerOn (Desktop.effects
        (workbench.turns ts).host.journal)).wire =
          some e.text := by
  intro uri ts
  have hProper : workbench.areProper ts = true := by
    decide +kernel
  have hUpTo : ∀ k < 8,
      (workbench.turns (ts.take k)).registry.pairForCompanion
        uri = none := by
    decide +kernel
  have hCompanion : ∀ k,
      (workbench.turns (ts.take k)).registry.pairForCompanion
        uri = none := by
    intro k
    by_cases hShort : k < 8
    · exact hUpTo k hShort
    · have hAll : ts.take k = ts.take 7 :=
        (List.take_of_length_le (by simp [ts]; omega)).trans
          rfl
      rw [hAll]
      exact hUpTo 7 (by decide)
  have hClient : (workbench.turns ts).host.client.map
      (fun c => (c.state, c.isTracking uri)) =
        some (.ready, true) := by
    decide +kernel
  have hText : ((workbench.turns ts).workspace.editor? uri
      ).map (·.text) = some "<b>" := by
    decide +kernel
  rcases Option.map_eq_some_iff.mp hClient with
    ⟨c, hClient, hPair⟩
  have hReady : c.state = .ready := congrArg Prod.fst hPair
  have hTracked : c.isTracking uri = true :=
    congrArg Prod.snd hPair
  rcases tracked_texts_are_current workbench_listens hProper
      hCompanion hClient (by rw [hReady]; rfl) hTracked with
    ⟨⟨e, hEditor, hLast⟩, hSent⟩
  have hAll := (hSent (by
    simp [ts, visitPage, Turn.event?])).2 hReady
  refine ⟨c, e, hClient, hReady, hTracked, hEditor, ?_, ?_⟩
  · rw [hEditor] at hText
    exact Option.some.inj hText
  · rw [hAll]
    exact hLast

end Application

end StyleCompanion
