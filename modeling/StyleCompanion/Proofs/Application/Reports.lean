import StyleCompanion.Proofs.Application.Notices

/-
  Operations that follow their notices.

  Whatever the editor and the pairing do to documents, they
  give notices of it, and the client is called as the reading
  of the notices says.  A document that is closed leaves the
  workspace before its notice, and the pairing closes in
  between what hangs on it.

  Main declarations:
    * `Desktop.Goes`
    * `Desktop.Goes.tell`
    * `Pairing.Session.goes_close`
    * `Application.goes_openDocument`
    * `Application.goes_textChanged`
    * `Application.Reports`
    * `Application.Reports.handleMessage`
-/

namespace StyleCompanion

open Pairing
open Desktop (Notice Reading Quiet Hushed)

----
-- Desktops that follow their notices
----

namespace Desktop

/- A notice without a call leaves the ledger. -/
theorem Reading.map_of_call?_eq_none
    {r : Reading}
    {n : Notice}
    (h : r.call? n = none)
    (l : Option Client.Ledger) :
    l.map (fun l => (r.call? n).elim l l.call) = l := by
  rw [h]
  exact Option.map_id'

/-
  An attached desktop shows an outline, apart from documents
  that are gone but not yet noticed to be.
-/
structure Shows
    (gone : List String)
    (o : Outline)
    (d : Desktop) : Prop where
  attached : d.attached = true
  page : ∀ u, d.workspace.page? u =
    if u ∈ gone then none else o.page? u
  ledger : d.ledger = some o.ledger

/- All pages are shown when none is gone. -/
theorem Shows.page_eq
    {o : Outline}
    {d : Desktop}
    (h : d.Shows [] o)
    (u : String) :
    o.page? u = d.workspace.page? u := by
  simpa using (h.page u).symm

/- A desktop came from another by what its notices say. -/
structure Goes
    (r : Reading)
    (o : Outline)
    (d : Desktop)
    (gone : List String)
    (e : Desktop) : Prop where
  disk : e.disk = d.disk
  path : ∃ ns p, e.journal = d.journal ++ ns ∧
    o.Follows r ns p ∧ e.Shows gone p

variable {r : Reading} {o : Outline} {gone : List String}
variable {d e f : Desktop}

theorem Shows.quiet
    {p : Outline}
    (h : e.Shows gone p)
    (hQuiet : Quiet e f)
    {l : Client.Ledger}
    (hLedger : f.ledger = some l) :
    f.Shows gone { p with ledger := l } where
  attached := hQuiet.attached.trans h.attached
  page u := by
    rw [hQuiet.page]
    exact h.page u
  ledger := hLedger

namespace Goes

theorem start
    (h : d.Shows gone o) :
    Goes r o d gone d :=
  ⟨rfl, [], o, by simp, .start, h⟩

theorem attached
    (h : Goes r o d gone e) :
    e.attached = true := by
  rcases h.path with ⟨_, _, _, _, hShows⟩
  exact hShows.attached

/- Nothing is opened, edited or closed, and nothing told. -/
theorem hush
    (h : Goes r o d gone e)
    (hHushed : Hushed e f) :
    Goes r o d gone f := by
  rcases h.path with ⟨ns, p, hNs, hFollows, hShows⟩
  rcases hHushed.news with ⟨ms, hMs, hQuiet⟩
  refine ⟨hHushed.disk.trans h.disk, ns ++ ms, p, ?_,
    hFollows.quiet hQuiet, ?_⟩
  · rw [hMs, hNs, List.append_assoc]
  · exact hShows.quiet hHushed.toQuiet
      (hHushed.ledger.trans hShows.ledger)

/- The client may have accepted the greeting. -/
theorem greet
    (h : Goes r o d gone e)
    (hQuiet : Quiet e f)
    (hLedger : f.ledger = e.ledger ∨
      f.ledger = e.ledger.map (·.greeted)) :
    Goes r o d gone f := by
  rcases hLedger with hSame | hGreeted
  · exact h.hush ⟨hQuiet, hSame⟩
  · rcases h.path with ⟨ns, p, hNs, hFollows, hShows⟩
    rcases hQuiet.news with ⟨ms, hMs, hNews⟩
    refine ⟨hQuiet.disk.trans h.disk, ns ++ ms, _, ?_,
      hFollows.greet.quiet hNews, ?_⟩
    · rw [hMs, hNs, List.append_assoc]
    · refine hShows.quiet hQuiet ?_
      rw [hGreeted, hShows.ledger]
      rfl

/- A document leaves the workspace before its notice. -/
theorem remove
    (h : Goes r o d gone e)
    {u : String}
    (hOpen : e.workspace.isOpen u = true) :
    Goes r o d (u :: gone)
      { e with workspace := (e.workspace.remove u).1 } := by
  rcases h.path with ⟨ns, p, hNs, hFollows, hShows⟩
  refine ⟨h.disk, ns, p, hNs, hFollows, hShows.attached, ?_,
    hShows.ledger⟩
  intro v
  refine (Workspace.page?_remove hOpen v).trans ?_
  by_cases hEq : u = v
  · rw [if_pos hEq, if_pos (by simp [hEq])]
  · rw [if_neg hEq, hShows.page]
    simp [Ne.symm hEq]

/-
  A notice is given after the workspace was changed and the
  client was told.
-/
theorem tell
    (h : Goes r o d gone e)
    {w : Workspace}
    {n : Notice}
    {left : List String}
    (hQuiet : Quiet { e with workspace := w } f)
    (hEffect : n.effect? = none)
    (hLedger : f.ledger =
      e.ledger.map fun l => (r.call? n).elim l l.call)
    (hPage : ∀ p, e.Shows gone p →
      p.Admits n ∧ ∀ u, w.page? u =
        if u ∈ left then none else p.pageAfter r n u) :
    Goes r o d left (f.note n) := by
  rcases h.path with ⟨ns, p, hNs, hFollows, hShows⟩
  rcases hQuiet.news with ⟨ms, hMs, hNews⟩
  rcases hPage p hShows with ⟨hAdmits, hAfter⟩
  refine ⟨hQuiet.disk.trans h.disk, ns ++ ms ++ [n],
    p.hear r n, ?_, (hFollows.quiet hNews).hear hAdmits,
    hQuiet.attached.trans hShows.attached, ?_, ?_⟩
  · change f.journal ++ [n] = _
    rw [hMs]
    change e.journal ++ ms ++ [n] = _
    rw [hNs]
    simp
  · intro u
    refine (congrFun hQuiet.page u).trans ?_
    exact hAfter u
  · rw [f.ledger_note hEffect, hLedger, hShows.ledger]
    rfl

/- The closing of a document that is gone is noticed. -/
theorem close
    {u : String}
    (h : Goes r o d (u :: gone) e)
    (engine : Overlay.Engine) :
    Goes r o d gone (e.settle engine (.closed u)) := by
  have hTold : e.announceClosed u =
      e.onClient (·.didClose u) :=
    if_pos h.attached
  refine h.tell (w := e.workspace) (n := .closed u) ?_ rfl ?_ ?_
  · rw [hTold]
    exact e.quiet_onClient _
  · rw [hTold]
    exact e.ledger_onClient fun past c =>
      Client.ledger_didClose past c u
  · intro p hShows
    refine ⟨trivial, fun v => ?_⟩
    rw [hShows.page]
    by_cases hEq : u = v
    · simp [Outline.pageAfter, hEq]
    · simp [Outline.pageAfter, hEq, Ne.symm hEq]

/-
  The text of an open document was changed, and the client
  told of it unless the document is a companion.
-/
theorem edit
    (h : Goes r o d [] e)
    {u : String}
    {g : Workspace.Editor → Workspace.Editor}
    (hText : ∀ x, e.workspace.editor? u = some x →
      (g x).text = r.given u)
    (hQuiet : Quiet
      { e with workspace := e.workspace.onEditor u g } f)
    (hLedger : f.ledger =
      e.ledger.map fun l =>
        (r.call? (.edited u)).elim l l.call) :
    Goes r o d [] (f.note (.edited u)) := by
  refine h.tell hQuiet rfl hLedger ?_
  intro p hShows
  refine ⟨trivial, fun v => ?_⟩
  rw [Workspace.page?_retext]
  simp only [Outline.pageAfter, List.not_mem_nil, if_false,
    hShows.page_eq]
  split
  next hEq =>
    subst hEq
    unfold Workspace.page? Workspace.editor? at *
    cases hFound : Table.get? e.workspace.documents u with
    | none => rfl
    | some x =>
        rw [hFound] at hText
        simp [hText x.editor rfl]
  next => rfl

end Goes

/- What reading a document again comes to. -/
theorem reread_outcomes
    (d : Desktop)
    (u : String) :
    (∃ e, d.reread u = .failed d e) ∨
      (∃ d', d.reread u = .done d' false ∧ Hushed d d') ∨
      ∃ e text, d.workspace.editor? u = some e ∧
        d.disk.readText (pathOfUri u) = .text text ∧
        d.reread u =
          .done
            { d with workspace :=
              d.workspace.onEditor u (·.setText text) }
            true := by
  unfold reread
  cases hEditor : d.workspace.editor? u with
  | none => exact Or.inr (Or.inl ⟨d, rfl, .refl d⟩)
  | some e =>
      dsimp only
      cases hRead : d.disk.readText (pathOfUri u) with
      | undecodable cause => exact Or.inl ⟨_, rfl⟩
      | fault cause => exact Or.inr (Or.inl ⟨_, rfl, .log _⟩)
      | text content =>
          dsimp only
          split
          · exact Or.inr (Or.inl ⟨d, rfl, .refl d⟩)
          · exact Or.inr (Or.inr ⟨e, content, rfl, rfl, rfl⟩)

/- Documents are given the texts that are on a disk. -/
def Reading.Reads
    (r : Reading)
    (disk : Disk) : Prop :=
  ∀ u text, disk.readText (pathOfUri u) = .text text →
    r.given u = text

end Desktop

open Desktop (Goes)

----
-- Closing
----

namespace Pairing.Session

variable {a : Session Desktop}
variable {r : Reading} {o : Outline} {gone : List String}
variable {d : Desktop}

theorem goes_settle_closed
    {u : String}
    (h : Goes r o d (u :: gone) a.host) :
    Goes r o d gone (a.settle (.closed u)).host :=
  h.close a.engine

/- A closing follows its notices, with all it closes. -/
theorem goes_closeWithin
    (h : Goes r o d gone a.host)
    (fuel : Nat)
    (u : String) :
    Goes r o d gone (closeWithin fuel a u).host := by
  induction fuel generalizing a gone u with
  | zero => exact h
  | succ n ih =>
      cases hOpen : a.host.workspace.isOpen u with
      | false =>
          rw [closeWithin_eq_self hOpen]
          exact h
      | true =>
          rw [closeWithin_eq_parted h.attached hOpen]
          have hGone : Goes r o d (u :: gone)
              (a.without u).host := h.remove hOpen
          have hReleased : Goes r o d (u :: gone)
              (a.parted u).1.host :=
            (hGone.hush (hushed_noticeActivated
              (a.host.workspace.remove u).2)).hush
              (hushed_releaseClosed u)
          cases (a.parted u).2 with
          | none => exact goes_settle_closed hReleased
          | some c => exact goes_settle_closed (ih hReleased c)

theorem goes_close
    (h : Goes r o d gone a.host)
    (u : String) :
    Goes r o d gone (a.close u).host :=
  goes_closeWithin h _ u

/- The end of an opening edits nothing. -/
theorem goes_companionOpened
    (h : Goes r o d gone a.host)
    (p : PendingOpen)
    (ok : Bool) :
    Goes r o d gone (a.companionOpened p ok).host := by
  have hLogged : ∀ record, Goes r o d gone
      (a.host.log record) := fun record => h.hush (.log record)
  unfold companionOpened
  dsimp only
  split
  · exact hLogged _
  · split
    · exact goes_close (hLogged _) _
    · split
      · exact h
      · exact h.hush (hushed_render _ _)

/- Only companions are read again by the pairing. -/
theorem goes_refreshAndRender
    (h : Goes r o d [] a.host)
    (hReads : r.Reads d.disk)
    {u : String}
    (hPaired : r.paired u = true)
    (m : Attribution.Model) :
    Goes r o d [] (a.refreshAndRender u m).1.host := by
  unfold refreshAndRender
  rcases a.host.reread_outcomes u with
    ⟨e, hRead⟩ | ⟨d', hRead, hHushed⟩ |
      ⟨e, text, -, hText, hRead⟩
  · change Host.refresh a.host u = _ at hRead
    rw [hRead]
    exact h
  · change Host.refresh a.host u = _ at hRead
    rw [hRead]
    exact (h.hush hHushed).hush (hushed_render
      (a := keepModel { a with host := d' } u m) u m)
  · change Host.refresh a.host u = _ at hRead
    rw [hRead]
    have hEdited := hushed_companionEdited
      (a := Application.withWorkspace a
        (a.host.workspace.onEditor u (·.setText text))) u
    have hGiven : r.given u = text := by
      apply hReads
      rw [← h.disk]
      exact hText
    have hNoCall := Reading.call?_edited_eq_none hPaired
    have hNoticed := h.edit (u := u) (g := (·.setText text))
      (fun _ _ => hGiven.symm) hEdited.toQuiet (hEdited.ledger.trans
        (Reading.map_of_call?_eq_none hNoCall _).symm)
    exact hNoticed.hush (hushed_render
      (a := keepModel ((companionEdited
        (Application.withWorkspace a
          (a.host.workspace.onEditor u (·.setText text)))
            u).settle (.edited u)) u m) u m)

end Pairing.Session

----
-- Opening
----

namespace Application

variable {a : Application}
variable {r : Reading} {o : Outline} {d : Desktop}

/- The client is told of a new page as its notice says. -/
theorem told_announceOpened
    {u : String}
    {region : Region}
    {text : String}
    (hPage : a.workspace.page? u = some (region, text))
    (hGiven : r.given u = text) :
    Quiet a.host (a.announceOpened u region).host ∧
      (a.announceOpened u region).host.ledger =
        a.host.ledger.map fun l =>
          (r.call? (.opened u region)).elim l l.call := by
  rcases Workspace.editor?_of_page? hPage with
    ⟨e, hEditor, hText⟩
  unfold announceOpened
  rw [hEditor]
  dsimp only
  split
  next hMarkup =>
    rcases hMarkup with ⟨rfl, hMarkup⟩
    refine ⟨a.host.quiet_onClient _, ?_⟩
    rw [Reading.call?_opened hMarkup, hGiven, ← hText]
    exact a.host.ledger_onClient fun past c =>
      Client.ledger_didOpen past c u "html" e.text
  next hOther =>
    refine ⟨.refl _, ?_⟩
    rw [Reading.map_of_call?_eq_none
      (Reading.call?_opened_eq_none hOther)]

theorem goes_openText
    (h : Goes r o d [] a.host)
    {u : String}
    (hClosed : a.workspace.isOpen u = false)
    (region : Region)
    (preserveFocus : Bool)
    {content : String}
    (hGiven : r.given u = content) :
    Goes r o d []
      (a.openText u region preserveFocus content).host := by
  let w := a.workspace.add u region
    (.new content (editorFont a.host))
  let shown := (a.withWorkspace w).present u preserveFocus
  have hShown : Hushed { a.host with workspace := w }
      (Session.reconcile shown).host :=
    (hushed_present (a := a.withWorkspace w) u
      preserveFocus).trans Session.hushed_reconcile
  have hPage : (Session.reconcile shown).host.workspace.page? u =
      some (region, content) := by
    rw [hShown.page]
    exact (Workspace.page?_add u u region _).trans (if_pos rfl)
  rcases told_announceOpened (a := Session.reconcile shown)
      hPage hGiven with ⟨hQuiet, hLedger⟩
  have hAttached : shown.host.attached = true := by
    have hKept := (hushed_present (a := a.withWorkspace w) u
      preserveFocus).attached
    exact hKept.trans h.attached
  have hOpened : (a.openText u region preserveFocus
      content).host =
        (announceOpened (Session.reconcile shown) u
          region).host.note (.opened u region) := by
    change (opened shown u region).host = _
    unfold opened
    rw [if_pos hAttached]
    rfl
  rw [hOpened]
  refine h.tell (hShown.toQuiet.trans hQuiet) rfl ?_ ?_
  · rw [hLedger, hShown.ledger]
    rfl
  · intro p hShows
    refine ⟨?_, fun v => ?_⟩
    · exact (hShows.page_eq u).trans
        (Workspace.page?_eq_none_iff.mpr hClosed)
    · refine (Workspace.page?_add u v region _).trans ?_
      simp only [Outline.pageAfter, List.not_mem_nil, if_false,
        hShows.page_eq]
      split
      next hEq =>
        subst hEq
        rw [hGiven]
        rfl
      next => rfl

/- A document is opened with the text that is on the disk. -/
theorem goes_openDocument
    (h : Goes r o d [] a.host)
    (hReads : r.Reads d.disk)
    (u : String)
    (region : Region)
    (preserveFocus : Bool) :
    Goes r o d []
      (a.openDocument u region preserveFocus).1.host := by
  have hLogged : Goes r o d [] (a.onDesktop (·.logAll
      (redirectLog u region (a.target u region)))).host :=
    h.hush (.logAll _)
  unfold openDocument
  dsimp only
  generalize a.onDesktop (·.logAll (redirectLog u region
    (a.target u region))) = b at hLogged ⊢
  split
  · exact hLogged.hush (hushed_present u preserveFocus)
  next hClosed =>
    unfold openNew
    dsimp only
    split
    · exact hLogged
    · exact hLogged.hush ((Hushed.log _).trans
        (.workspaceStatus _))
    next content hRead =>
      refine goes_openText hLogged
        (Bool.eq_false_iff.mpr hClosed) _ preserveFocus ?_
      apply hReads
      rw [← hLogged.disk]
      exact hRead

theorem goes_openPaths
    (h : Goes r o d [] a.host)
    (hReads : r.Reads d.disk)
    (paths : List String) :
    Goes r o d [] (a.openPaths paths).1.host :=
  openPaths_induction (P := (Goes r o d [] ·.host)) h
    (fun _ u h => goes_openDocument h hReads u .primary false)
    paths

theorem goes_runTask
    (h : Goes r o d [] a.host)
    (hReads : r.Reads d.disk)
    (t : Desktop.Task) :
    Goes r o d [] (a.runTask t).1.host := by
  unfold runTask
  cases t with
  | companion p =>
      have hOpened := goes_openDocument h hReads p.companion
        .secondary true
      dsimp only
      rcases hRun : a.openDocument p.companion .secondary
          true with ⟨b, outcome⟩
      rw [hRun] at hOpened
      cases outcome with
      | ok ok => exact Session.goes_companionOpened hOpened p ok
      | error _ => exact hOpened
  | report u region preserveFocus =>
      have hOpened := goes_openDocument h hReads u region
        preserveFocus
      dsimp only
      rcases hRun : a.openDocument u region
          preserveFocus with ⟨b, outcome⟩
      rw [hRun] at hOpened
      cases outcome with
      | ok _ => exact hOpened.hush (.note rfl rfl)
      | error _ => exact hOpened

theorem goes_dropTask
    (h : Goes r o d [] a.host) :
    Goes r o d [] a.dropTask.host :=
  h.hush (.of_eq rfl rfl rfl rfl rfl)

theorem goes_runTasks
    (h : Goes r o d [] a.host)
    (hReads : r.Reads d.disk)
    (ts : List Desktop.Task) :
    Goes r o d [] (runTasks ts a).1.host := by
  induction ts generalizing a with
  | nil => exact h
  | cons t ts ih =>
      have hFirst := goes_runTask (goes_dropTask h) hReads t
      unfold runTasks
      rcases hRun : a.dropTask.runTask t with ⟨b, failure⟩
      rw [hRun] at hFirst
      cases failure with
      | none => exact ih hFirst
      | some _ => exact hFirst

theorem goes_closeAll
    (h : Goes r o d [] a.host) :
    Goes r o d [] a.closeAll.host := by
  unfold closeAll
  generalize Table.keys a.workspace.documents = uris
  induction uris generalizing a with
  | nil => exact h
  | cons u uris ih => exact ih (Session.goes_close h u)

----
-- Texts
----

/- The client is told of a text that it follows. -/
theorem told_announceChange
    {u : String}
    {region : Region}
    {text : String}
    (hPage : a.workspace.page? u = some (region, text)) :
    Quiet a.host (a.announceChange u).host ∧
      (a.announceChange u).host.ledger =
        a.host.ledger.map (·.call (.didChange u text)) := by
  rcases Workspace.editor?_of_page? hPage with
    ⟨e, hEditor, rfl⟩
  unfold announceChange
  rw [hEditor]
  cases hClient : a.host.client with
  | none =>
      refine ⟨.refl _, ?_⟩
      unfold Desktop.ledger
      rw [hClient]
      rfl
  | some c =>
      dsimp only
      split
      · refine ⟨a.host.quiet_onClient _, ?_⟩
        exact a.host.ledger_onClient fun past c =>
          Client.ledger_didChange past c u e.text
      next hUntracked =>
        have hNone : Table.get? c.versions u = none := by
          simpa [Client.isTracking, Table.contains]
            using hUntracked
        refine ⟨.refl _, ?_⟩
        unfold Desktop.ledger
        simp [hClient, Client.Ledger.call, Client.Ledger.note?,
          Client.ledgerOn, hNone]

/- Every change of a text follows its notice. -/
theorem goes_textChanged
    (h : Goes r o d [] a.host)
    {u : String}
    (hOpen : a.workspace.isOpen u = true)
    {g : Workspace.Editor → Workspace.Editor}
    (hText : ∀ x, a.workspace.editor? u = some x →
      (g x).text = r.given u)
    (hPaired :
      r.paired u = (a.registry.pairForCompanion u).isSome) :
    Goes r o d []
      ((a.withWorkspace (a.workspace.onEditor u g)
        ).textChanged u).host := by
  let b := a.withWorkspace (a.workspace.onEditor u g)
  have hAttached : b.host.attached = true := h.attached
  unfold textChanged
  rw [hAttached]
  simp only [Bool.not_true, Bool.false_eq_true, if_false]
  split
  next hCompanion =>
    have hEdited := Session.hushed_companionEdited (a := b) u
    have hNoCall := Reading.call?_edited_eq_none
      (hPaired.trans hCompanion)
    exact h.edit hText hEdited.toQuiet (hEdited.ledger.trans
      (Reading.map_of_call?_eq_none hNoCall _).symm)
  next hOther =>
    have hUnpaired : r.paired u = false :=
      hPaired.trans (Bool.eq_false_iff.mpr hOther)
    have hCall := Reading.call?_edited hUnpaired
    rcases Option.isSome_iff_exists.mp hOpen with ⟨x, hx⟩
    have hPage : b.workspace.page? u =
        some (x.region, r.given u) := by
      have hEditor : a.workspace.editor? u = some x.editor := by
        rw [Workspace.editor?, hx]
        rfl
      refine (Workspace.page?_retext u u g).trans ?_
      rw [if_pos rfl, hx, ← hText x.editor hEditor]
      rfl
    rcases told_announceChange (a := b) hPage with
      ⟨hQuiet, hLedger⟩
    refine h.edit hText hQuiet ?_
    rw [hLedger, hCall]
    rfl

theorem goes_reload
    (h : Goes r o d [] a.host)
    (hReads : r.Reads d.disk)
    {u : String}
    (hPaired :
      r.paired u = (a.registry.pairForCompanion u).isSome) :
    Goes r o d [] (a.reload u).1.host := by
  unfold reload
  rcases a.host.reread_outcomes u with
    ⟨e, hRead⟩ | ⟨d', hRead, hHushed⟩ |
      ⟨e, text, hEditor, hText, hRead⟩
  · rw [hRead]
    exact h
  · rw [hRead]
    exact h.hush hHushed
  · rw [hRead]
    have hGiven : r.given u = text := by
      apply hReads
      rw [← h.disk]
      exact hText
    have hOpen : a.workspace.isOpen u = true := by
      rcases Option.map_eq_some_iff.mp hEditor with ⟨x, hx, -⟩
      exact Option.isSome_iff_exists.mpr ⟨x, hx⟩
    exact goes_textChanged h hOpen (g := (·.setText text))
      (fun _ _ => hGiven.symm) hPaired

----
-- Companions
----

/-
  The notices were followed so far, and all companions of the
  pairing are known to the reading.
-/
structure Reports
    (r : Reading)
    (o : Outline)
    (d : Desktop)
    (a : Application) : Prop where
  goes : Goes r o d [] a.host
  within : ∀ pair ∈ a.registry.pairList,
    r.paired pair.companion = true

namespace Reports

/- Pairs that are lost need not be known. -/
theorem of_loses
    {b : Application}
    (h : Reports r o d a)
    (hGoes : Goes r o d [] b.host)
    (hLoses : a.registry.Loses b.registry) :
    Reports r o d b :=
  ⟨hGoes, fun pair hPair =>
    h.within pair (hLoses.mem_pairList hPair)⟩

theorem hush
    {b : Application}
    (h : Reports r o d a)
    (hHushed : Hushed a.host b.host)
    (hLoses : a.registry.Loses b.registry) :
    Reports r o d b :=
  h.of_loses (h.goes.hush hHushed) hLoses

theorem paired
    (h : Reports r o d a)
    {companion : String}
    {pair : DocumentPair}
    (hPair :
      a.registry.pairForCompanion companion = some pair) :
    r.paired companion = true := by
  rw [← PairRegistry.companion_of_pairForCompanion hPair]
  exact h.within pair
    (PairRegistry.mem_pairList_of_pairForCompanion hPair)

/- A companion that moves was a companion before. -/
theorem takeOver
    (h : Reports r o d a)
    (primary : String)
    {shared : DocumentPair}
    (hPaired : r.paired shared.companion = true) :
    Reports r o d (Session.takeOver a primary shared) := by
  refine ⟨h.goes.hush (Session.hushed_takeOver primary shared),
    ?_⟩
  intro pair hPair
  rcases Table.mem_values.mp hPair with ⟨key, hKey⟩
  rcases Table.eq_or_mem_of_mem_insert hKey with hNew | hOld
  · cases hNew
    exact hPaired
  · exact h.within pair (Table.mem_values.mpr
      ⟨key, (Table.mem_erase.mp hOld).1⟩)

theorem refreshAndRender
    (h : Reports r o d a)
    (hReads : r.Reads d.disk)
    {companion : String}
    (hPaired : r.paired companion = true)
    (m : Attribution.Model) :
    Reports r o d
      (Session.refreshAndRender a companion m).1 := by
  refine ⟨Session.goes_refreshAndRender h.goes hReads hPaired m,
    ?_⟩
  rw [Session.refreshAndRender_registry]
  exact h.within

/- An opening that begins registers no pair. -/
theorem openCompanion
    (h : Reports r o d a)
    (primary companion : String) :
    Reports r o d
      (Session.openCompanion a primary companion) := by
  have hBegin : ∀ b : Application,
      b.registry.pairs = a.registry.pairs →
      (Session.beginOpening b primary
        companion).registry.pairs = a.registry.pairs := by
    intro b hb
    rw [Session.beginOpening_registry, ← hb]
    unfold PairRegistry.beginOpen
    split <;> rfl
  have hPairs : (Session.openCompanion a primary
      companion).registry.pairs = a.registry.pairs := by
    unfold Session.openCompanion
    split
    · exact hBegin a rfl
    · split
      · rfl
      · exact hBegin _ rfl
  refine ⟨h.goes.hush
    (Session.hushed_openCompanion primary companion), ?_⟩
  intro pair hPair
  unfold PairRegistry.pairList at hPair
  rw [hPairs] at hPair
  exact h.within pair hPair

theorem showUnpaired
    (h : Reports r o d a)
    (hReads : r.Reads d.disk)
    (primary companion : String)
    (m : Attribution.Model) :
    Reports r o d
      (Session.showUnpaired a primary companion m).1 := by
  unfold Session.showUnpaired
  split
  next shared hShared =>
    have hPaired := h.paired hShared
    have hCompanion :=
      PairRegistry.companion_of_pairForCompanion hShared
    exact (h.takeOver primary (hCompanion ▸ hPaired)
      ).refreshAndRender hReads hPaired m
  next => exact h.openCompanion primary companion

theorem replacePair
    (h : Reports r o d a)
    (pair : DocumentPair)
    (companion : String) :
    Reports r o d (Session.replacePair a pair companion) := by
  refine h.of_loses ?_
    (Session.loses_replacePair a pair companion)
  exact Session.goes_close (h.goes.hush (.log _)) pair.companion

theorem showFor
    (h : Reports r o d a)
    (hReads : r.Reads d.disk)
    (primary companion : String)
    (m : Attribution.Model) :
    Reports r o d
      (Session.showFor a primary companion m).1 := by
  have hKept : Reports r o d
      ((Session.reconcile a).keepModel companion m) :=
    h.hush (b := (Session.reconcile a).keepModel companion m)
      Session.hushed_reconcile (Session.loses_reconcile a)
  unfold Session.showFor
  dsimp only
  generalize (Session.reconcile a).keepModel companion m = b
    at hKept ⊢
  split
  · exact hKept.showUnpaired hReads primary companion m
  next pair hPair =>
    split
    next hEq =>
      refine hKept.refreshAndRender hReads ?_ m
      rw [← hEq]
      exact hKept.within pair
        (PairRegistry.mem_pairList_of_pairForPrimary hPair)
    next =>
      exact (hKept.replacePair pair companion).showUnpaired
        hReads primary companion m

theorem log
    (h : Reports r o d a)
    (record : LogRecord) :
    Reports r o d (Session.log a record) :=
  ⟨h.goes.hush (.log record), h.within⟩

theorem showCompanion
    (h : Reports r o d a)
    (hReads : r.Reads d.disk)
    (u : String)
    (m : Attribution.Model)
    (given : Option String) :
    Reports r o d (Session.showCompanion a u m given).1 := by
  unfold Session.showCompanion
  dsimp only
  split
  · exact h.log _
  · split
    · exact h.log _
    · exact h.showFor hReads _ _ m

theorem handleShow
    (h : Reports r o d a)
    (hReads : r.Reads d.disk)
    (params : Json) :
    Reports r o d (a.handleShow params).1 := by
  unfold Application.handleShow
  split
  · exact h
  next request _ =>
    have hShown := (h.log (requestLog request)).showCompanion
      hReads request.companionUri request.model none
    dsimp only
    rcases hRun : Session.showCompanion
        (Session.log a (requestLog request))
        request.companionUri request.model none with
      ⟨b, failure⟩
    rw [hRun] at hShown
    cases failure with
    | none => exact hShown
    | some e => exact hShown

----
-- Messages of the backend
----

/- The client takes a step that may accept the greeting. -/
theorem absorb
    (h : Reports r o d a)
    {c c' : Client}
    (hClient : a.host.client = some c)
    (hLedger : ∀ past, c'.ledgerOn past = c.ledgerOn past ∨
      c'.ledgerOn past = (c.ledgerOn past).greeted) :
    Reports r o d (a.onDesktop (·.absorb c')) := by
  refine ⟨h.goes.greet (a.host.quiet_absorb c') ?_, h.within⟩
  have hBefore : a.host.ledger =
      some (c.ledgerOn (Desktop.effects a.host.journal)) := by
    unfold Desktop.ledger
    rw [hClient]
    rfl
  refine (hLedger (Desktop.effects a.host.journal)).imp ?_ ?_
  · intro hSame
    exact (a.host.ledger_absorb c').trans
      (hSame ▸ hBefore.symm)
  · intro hGreeted
    rw [hBefore]
    exact (a.host.ledger_absorb c').trans
      (congrArg some hGreeted)

theorem answerCall
    (h : Reports r o d a)
    (hReads : r.Reads d.disk)
    (id : Json)
    (method : String)
    (params : Json) :
    Reports r o d (a.answerCall id method params) := by
  have hShown := h.handleShow hReads params
  unfold Application.answerCall
  dsimp only
  generalize a.handleShow params = shown at hShown ⊢
  refine ⟨?_, hShown.within⟩
  refine hShown.goes.hush
    ⟨shown.1.host.quiet_onClient _, ?_⟩
  refine (shown.1.host.ledger_onClient (g := fun l => l)
    fun past c => Client.ledger_reply past c _ _ _).trans ?_
  exact Option.map_id' (x := shown.1.host.ledger)

theorem handleMessage
    (h : Reports r o d a)
    (hReads : r.Reads d.disk)
    (fs : Table String Json) :
    Reports r o d (a.handleMessage fs).1 := by
  unfold Application.handleMessage
  split
  · exact h
  next c hClient =>
    have hOwn : Reports r o d
        (a.onClient c (·.handleMessage fs)).1 :=
      h.absorb hClient fun past =>
        Client.ledger_handleMessage past c fs
    split
    · split
      · exact h.answerCall hReads _ _ _
      · exact hOwn
    · exact hOwn

theorem handleAll
    (h : Reports r o d a)
    (hReads : r.Reads d.disk)
    (ms : List (Table String Json)) :
    Reports r o d (a.handleAll ms).1 := by
  induction ms generalizing a with
  | nil => exact h
  | cons fs ms ih =>
      have hFirst := h.handleMessage hReads fs
      unfold Application.handleAll
      rcases hHandled : a.handleMessage fs with ⟨b, failure⟩
      rw [hHandled] at hFirst
      cases failure with
      | none => exact ih hFirst
      | some e => exact hFirst

theorem readOutput
    (h : Reports r o d a)
    (hReads : r.Reads d.disk)
    {c : Client}
    (hClient : a.host.client = some c)
    (bytes : List UInt8) :
    Reports r o d (a.readOutput c bytes).1 := by
  have hTaken := h.absorb hClient fun past =>
    Or.inl (Client.ledger_takeBytes past c bytes)
  exact hTaken.handleAll hReads _

end Reports

end Application

end StyleCompanion
