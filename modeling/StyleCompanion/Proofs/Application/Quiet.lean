import StyleCompanion.Proofs.Application.Painting
import StyleCompanion.Proofs.Client.Ledger

/-
  Operations that tell the backend nothing.

  The pages of a workspace are the open documents, where they
  lie and with which texts.  The client hands its journal over
  to the desktop, so that its ledger is drawn up on the
  notices of the desktop.

  An operation is quiet if no document is opened, edited or
  closed by it.  It is hushed if the ledger stays as well.
  Most operations of the pairing and of the editor are.

  Main declarations:
    * `Workspace.page?`
    * `Desktop.ledger`
    * `Desktop.ledger_onClient`
    * `Desktop.Quiet`
    * `Desktop.Hushed`
    * `Pairing.Session.hushed_reconcile`
    * `Pairing.Session.hushed_noticeActivated`
-/

namespace StyleCompanion

open Pairing

----
-- Workspaces
----

namespace Workspace

/- Where a document lies, with which text. -/
def page?
    (w : Workspace)
    (u : String) : Option (Region × String) :=
  (Table.get? w.documents u).map fun d =>
    (d.region, d.editor.text)

variable {w : Workspace}

theorem page?_of_stage
    {v : Workspace}
    (h : v.stage = w.stage) :
    v.page? = w.page? := by
  have hDocuments : v.documents = w.documents :=
    congrArg Prod.fst h
  funext u
  rw [page?, page?, hDocuments]

/- A change that leaves the text shows on no page. -/
theorem page?_onEditor
    (u : String)
    (f : Editor → Editor)
    (hf : ∀ e, (f e).text = e.text) :
    (w.onEditor u f).page? = w.page? := by
  funext v
  rw [page?, page?, get?_onEditor]
  split
  next hEq =>
    subst hEq
    cases Table.get? w.documents u with
    | none => rfl
    | some d => simp [hf]
  next => rfl

/- A change of a text shows on its own page. -/
theorem page?_retext
    (u v : String)
    (f : Editor → Editor) :
    (w.onEditor u f).page? v =
      if u = v then
        (Table.get? w.documents u).map fun d =>
          (d.region, (f d.editor).text)
      else w.page? v := by
  rw [page?, get?_onEditor]
  split
  · rw [Option.map_map]
    rfl
  · rfl

theorem page?_add
    (u v : String)
    (region : Region)
    (e : Editor) :
    (w.add u region e).page? v =
      if u = v then some (region, e.text) else w.page? v := by
  rw [page?, get?_add]
  split <;> rfl

theorem page?_remove
    {u : String}
    (h : w.isOpen u = true)
    (v : String) :
    (w.remove u).1.page? v =
      if u = v then none else w.page? v := by
  rw [page?, get?_remove w h]
  split <;> rfl

theorem page?_eq_none_iff
    {u : String} :
    w.page? u = none ↔ w.isOpen u = false := by
  rw [isOpen_eq_false_iff, page?, Option.map_eq_none_iff]

/- The editor of a page has its text. -/
theorem editor?_of_page?
    {u : String}
    {region : Region}
    {text : String}
    (h : w.page? u = some (region, text)) :
    ∃ e, w.editor? u = some e ∧ e.text = text := by
  rcases Option.map_eq_some_iff.mp h with ⟨d, hd, hPage⟩
  cases hPage
  refine ⟨d.editor, ?_, rfl⟩
  rw [editor?, hd]
  rfl

theorem page?_of_regionOf
    {u : String}
    {region : Region}
    (h : w.regionOf u = some region) :
    ∃ text, w.page? u = some (region, text) := by
  rcases Option.map_eq_some_iff.mp h with ⟨d, hd, rfl⟩
  refine ⟨d.editor.text, ?_⟩
  rw [page?, hd]
  rfl

end Workspace

----
-- Notices
----

namespace Desktop

/- Whether a notice opens, edits and closes no document. -/
def Notice.isQuiet : Notice → Bool
  | .opened _ _ => false
  | .edited _ => false
  | .closed _ => false
  | _ => true

/- The effect of the client that a notice passes on. -/
def Notice.effect? : Notice → Option ClientEffect
  | .client e => some e
  | _ => none

/- What the client did, by the notices. -/
def effects
    (ns : List Notice) : List ClientEffect :=
  ns.filterMap Notice.effect?

/- The ledger of the client, if there is one. -/
def ledger
    (d : Desktop) : Option Client.Ledger :=
  d.client.map (·.ledgerOn (effects d.journal))

/- A notice of no effect leaves the ledger. -/
theorem ledger_note
    (d : Desktop)
    {n : Notice}
    (hEffect : n.effect? = none) :
    (d.note n).ledger = d.ledger := by
  have hEffects :
      effects (d.journal ++ [n]) = effects d.journal := by
    simp [effects, hEffect]
  unfold ledger note
  rw [hEffects]

/- No document is opened, edited or closed. -/
structure Quiet
    (d e : Desktop) : Prop where
  page : e.workspace.page? = d.workspace.page?
  disk : e.disk = d.disk
  attached : e.attached = d.attached
  news : ∃ ns, e.journal = d.journal ++ ns ∧
    ∀ n ∈ ns, n.isQuiet = true

/- The client is told nothing, either. -/
structure Hushed
    (d e : Desktop) : Prop extends Quiet d e where
  ledger : e.ledger = d.ledger

namespace Quiet

variable {d e f : Desktop}

theorem refl
    (d : Desktop) :
    Quiet d d := by
  refine ⟨rfl, rfl, rfl, [], by simp, ?_⟩
  intro n hn
  cases hn

theorem trans
    (h : Quiet d e)
    (k : Quiet e f) :
    Quiet d f := by
  rcases h.news with ⟨ns, hNs, hFirst⟩
  rcases k.news with ⟨ms, hMs, hSecond⟩
  refine ⟨k.page.trans h.page, k.disk.trans h.disk,
    k.attached.trans h.attached, ns ++ ms, ?_, ?_⟩
  · rw [hMs, hNs, List.append_assoc]
  · intro n hn
    rcases List.mem_append.mp hn with hn | hn
    · exact hFirst n hn
    · exact hSecond n hn

theorem note
    {n : Notice}
    (h : n.isQuiet = true) :
    Quiet d (d.note n) := by
  refine ⟨rfl, rfl, rfl, [n], rfl, ?_⟩
  intro m hm
  rw [List.mem_singleton.mp hm]
  exact h

end Quiet

namespace Hushed

variable {d e f : Desktop}

theorem refl
    (d : Desktop) :
    Hushed d d :=
  ⟨.refl d, rfl⟩

theorem trans
    (h : Hushed d e)
    (k : Hushed e f) :
    Hushed d f :=
  ⟨h.toQuiet.trans k.toQuiet, k.ledger.trans h.ledger⟩

/- What is not written down. -/
theorem of_eq
    (hPage : e.workspace.page? = d.workspace.page?)
    (hDisk : e.disk = d.disk)
    (hAttached : e.attached = d.attached)
    (hClient : e.client = d.client)
    (hJournal : e.journal = d.journal) :
    Hushed d e := by
  refine ⟨⟨hPage, hDisk, hAttached, [], by simpa, ?_⟩, ?_⟩
  · intro n hn
    cases hn
  · unfold Desktop.ledger
    rw [hClient, hJournal]

theorem note
    {n : Notice}
    (hQuiet : n.isQuiet = true)
    (hEffect : n.effect? = none) :
    Hushed d (d.note n) :=
  ⟨.note hQuiet, ledger_note d hEffect⟩

theorem log
    (r : LogRecord) :
    Hushed d (d.log r) :=
  note rfl rfl

theorem logAll
    (rs : List LogRecord) :
    Hushed d (d.logAll rs) := by
  unfold Desktop.logAll
  induction rs generalizing d with
  | nil => exact .refl d
  | cons r rs ih => exact (log r).trans ih

theorem showMessage
    (text : String)
    (duration : Nat) :
    Hushed d (d.showMessage text duration) := by
  unfold Desktop.showMessage
  split
  · exact note rfl rfl
  · exact .refl d

theorem workspaceStatus
    (text : String) :
    Hushed d (d.workspaceStatus text) :=
  (showMessage text passing).trans (note rfl rfl)

theorem controllerStatus
    (text : String) :
    Hushed d (d.controllerStatus text) :=
  (showMessage text passing).trans (note rfl rfl)

theorem showLegend
    (rows : List (Int × Attribution.SourceFile)) :
    Hushed d (d.showLegend rows) :=
  of_eq rfl rfl rfl rfl rfl

theorem emitLegend
    (uri : String)
    (rows : List Overlay.LegendRow) :
    Hushed d (d.emitLegend uri rows) :=
  (showLegend _).trans (note rfl rfl)

/- Another workspace with the same pages. -/
theorem workspace
    {w : Workspace}
    (h : w.page? = d.workspace.page?) :
    Hushed d { d with workspace := w } :=
  of_eq h rfl rfl rfl rfl

theorem paintOn
    (s : Workspace.Surface)
    (uri slot : String)
    (spans : List Overlay.LineSpan) :
    Hushed d (d.paintOn s uri slot spans) := by
  refine (workspace ?_).trans (logAll _)
  rcases Session.paint_cases s d.workspace uri slot spans with
    hSame | ⟨ss, hPainted⟩
  · rw [hSame]
  · rw [hPainted]
    exact Workspace.page?_onEditor uri _ fun _ => rfl

theorem decorate
    (effect : Overlay.Effect) :
    Hushed d (d.decorate effect) := by
  cases effect with
  | log r => exact log r
  | clear uri =>
      exact workspace
        (Workspace.page?_onEditor uri _ fun _ => rfl)
  | paint uri slot spans => exact paintOn _ uri slot spans
  | rendered uri rows =>
      refine (workspace ?_).trans (emitLegend uri rows)
      exact Workspace.page?_onEditor uri _ fun _ => rfl

theorem decorateAll
    (effects : List Overlay.Effect) :
    Hushed d (effects.foldl Desktop.decorate d) := by
  induction effects generalizing d with
  | nil => exact .refl d
  | cons e effects ih => exact (decorate e).trans ih

theorem reveal
    (uri : String)
    (wanted : Option Region) :
    Hushed d (d.reveal uri wanted) :=
  (workspace (Workspace.page?_of_stage
    (d.workspace.stage_bringForward uri))).trans (logAll _)

theorem settle_activated
    (engine : Overlay.Engine)
    (uri : String)
    (region : Region) :
    Hushed d (d.settle engine (.activated uri region)) := by
  unfold Desktop.settle
  dsimp only
  split
  · exact (emitLegend _ _).trans (note rfl rfl)
  · exact note rfl rfl

end Hushed

----
-- The client
----

theorem effects_append
    (ns ms : List Notice) :
    effects (ns ++ ms) = effects ns ++ effects ms :=
  List.filterMap_append

/- What is passed on is quiet. -/
theorem quiet_relay
    (d : Desktop)
    (e : ClientEffect) :
    Quiet d (d.relay e) := by
  unfold relay
  split
  · exact .note rfl
  · split
    · exact (Hushed.controllerStatus _).toQuiet.trans
        (.note rfl)
    · exact .note rfl
  · exact .note rfl

/- Of what is passed on, only log records are no effects. -/
theorem effects_relay
    (d : Desktop)
    (e : ClientEffect) :
    effects (d.relay e).journal =
      effects d.journal ++
        match e with
        | .log _ => []
        | e => [e] := by
  have hMessage : ∀ text,
      effects (d.controllerStatus text).journal =
        effects d.journal := by
    intro text
    simp only [controllerStatus, showMessage]
    split <;> simp [note, effects, Notice.effect?]
  unfold relay
  split
  · simp [log, note, effects, Notice.effect?]
  next text =>
    dsimp only
    split
    · change effects ((d.controllerStatus text).journal ++ _)
        = _
      rw [effects_append, hMessage]
      rfl
    · exact effects_append _ _
  next hLog hStatus =>
    cases e with
    | log r => exact absurd rfl (hLog r)
    | process p => exact effects_append _ _
    | signal s => exact effects_append _ _

theorem quiet_relayAll
    (d : Desktop)
    (es : List ClientEffect) :
    Quiet d (es.foldl relay d) := by
  induction es generalizing d with
  | nil => exact .refl d
  | cons e es ih => exact (quiet_relay d e).trans (ih _)

theorem client_relayAll
    (d : Desktop)
    (es : List ClientEffect) :
    (es.foldl relay d).client = d.client := by
  have hShow : ∀ (d : Desktop) (text : String),
      (d.controllerStatus text).client = d.client := by
    intro d text
    unfold controllerStatus showMessage
    split <;> rfl
  induction es generalizing d with
  | nil => rfl
  | cons e es ih =>
      rw [List.foldl_cons, ih]
      unfold relay
      split
      · rfl
      · split
        · exact hShow d _
        · rfl
      · rfl

/- What was written shows, whoever keeps the journal. -/
theorem writtenSince_relayAll
    (d : Desktop)
    (es : List ClientEffect) :
    Client.writtenSince (effects (es.foldl relay d).journal) =
      Client.writtenSince (effects d.journal ++ es) := by
  induction es using List.reverseRecOn with
  | nil => simp
  | append_singleton es e ih =>
      rw [List.foldl_append, List.foldl_cons, List.foldl_nil,
        effects_relay, ← List.append_assoc]
      cases hLaunch : Client.isLaunch e with
      | true =>
          cases e with
          | process p =>
              cases p with
              | start =>
                  rw [Client.writtenSince_launch,
                    Client.writtenSince_launch]
              | _ => cases hLaunch
          | _ => cases hLaunch
      | false =>
          rw [Client.writtenSince_concat hLaunch, ← ih]
          cases e with
          | log r => simp [Client.written?]
          | process p =>
              exact Client.writtenSince_concat hLaunch _
          | signal x =>
              exact Client.writtenSince_concat hLaunch _

theorem quiet_absorb
    (d : Desktop)
    (c : Client) :
    Quiet d (d.absorb c) := by
  have hRelay := quiet_relayAll
    { d with client := some { c with journal := [] } } c.journal
  exact ⟨hRelay.page, hRelay.disk, hRelay.attached,
    hRelay.news⟩

theorem ledger_absorb
    (d : Desktop)
    (c : Client) :
    (d.absorb c).ledger =
      some (c.ledgerOn (effects d.journal)) := by
  have hClient : (d.absorb c).client =
      some { c with journal := [] } :=
    client_relayAll _ c.journal
  have hWire :
      Client.writtenSince (effects (d.absorb c).journal) =
        Client.writtenSince (effects d.journal ++ c.journal) :=
    writtenSince_relayAll
      { d with client := some { c with journal := [] } }
      c.journal
  unfold ledger
  rw [hClient]
  simp only [Option.map_some, Client.ledgerOn,
    List.append_nil, hWire]

theorem quiet_onClient
    (d : Desktop)
    (f : Client → Client) :
    Quiet d (d.onClient f) := by
  unfold onClient
  split
  · exact .refl d
  · exact d.quiet_absorb _

/- The client does to its ledger what it does by itself. -/
theorem ledger_onClient
    (d : Desktop)
    {f : Client → Client}
    {g : Client.Ledger → Client.Ledger}
    (h : ∀ past c,
      (f c).ledgerOn past = g (c.ledgerOn past)) :
    (d.onClient f).ledger = d.ledger.map g := by
  unfold onClient
  cases hClient : d.client with
  | none => simp [ledger, hClient]
  | some c =>
      rw [ledger_absorb, h]
      simp [ledger, hClient]

end Desktop

----
-- The pairing
----

namespace Pairing.Session

open Desktop (Hushed)

variable {a : Session Desktop}

theorem hushed_decorate
    (effects : List Overlay.Effect) :
    Hushed a.host (a.decorate effects).host :=
  .decorateAll effects

theorem hushed_render
    (view : String)
    (m : Attribution.Model) :
    Hushed a.host (a.render view m).host :=
  hushed_decorate (a := { a with engine := _ }) _

theorem hushed_clearView
    (view : String) :
    Hushed a.host (a.clearView view).host :=
  hushed_decorate (a := { a with engine := _ }) _

theorem hushed_reconcile :
    Hushed a.host a.reconcile.host :=
  a.reconcile_induction (P := (Hushed a.host ·.host)) (.refl _)
    fun _ _ _ h => h.trans (.log _)

theorem hushed_activeViewChanged
    (uri : String) :
    Hushed a.host (a.activeViewChanged uri).host := by
  have hReconcile := hushed_reconcile (a := a)
  unfold activeViewChanged
  dsimp only
  split
  · unfold primaryFocused
    split
    · exact hReconcile
    · exact hReconcile.trans (.reveal _ _)
  · split
    · unfold companionFocused
      split
      · exact hReconcile
      · exact hReconcile.trans (.reveal _ _)
    · exact hReconcile

theorem hushed_noticeActivated
    (activated : Option (String × Region)) :
    Hushed a.host (a.noticeActivated activated).host := by
  cases activated with
  | none => exact .refl _
  | some place =>
      exact (hushed_activeViewChanged place.1).trans
        (.settle_activated _ _ _)

theorem hushed_releasePrimary
    (uri : String) :
    Hushed a.host (a.releasePrimary uri).1.host := by
  have hLog : Hushed a.host
      (if (a.registry.cancelOpen uri).2.isSome then
        ({ a with registry := (a.registry.cancelOpen uri).1 }
          : Session Desktop).debug
          ("Cancelled in-flight companion open for " ++ uri)
      else { a with
        registry := (a.registry.cancelOpen uri).1 }).host := by
    split
    · exact .log _
    · exact .refl _
  unfold releasePrimary
  dsimp only
  split
  · exact hLog.trans (.log _)
  · exact hLog

theorem hushed_releaseClosed
    (uri : String) :
    Hushed a.host (a.releaseClosed uri).1.host := by
  unfold releaseClosed
  split
  · exact hushed_releasePrimary uri
  · split
    · unfold companionClosed
      split
      · exact .log _
      · exact .refl _
    · exact .log _

theorem hushed_companionEdited
    (uri : String) :
    Hushed a.host (a.companionEdited uri).host := by
  unfold companionEdited
  split
  · exact .refl _
  · exact Hushed.trans (.log _) (hushed_clearView
      (a := (a.debug _).dropModel uri) uri)

theorem hushed_openCompanion
    (primary companion : String) :
    Hushed a.host (a.openCompanion primary companion).host := by
  have hBegin : ∀ b : Session Desktop,
      Hushed b.host (b.beginOpening primary companion).host := by
    intro b
    unfold beginOpening
    dsimp only
    split
    · exact .refl _
    · exact Hushed.trans (.log _) (.of_eq rfl rfl rfl rfl rfl)
  unfold openCompanion
  split
  · exact hBegin a
  · split
    · exact .log _
    · exact Hushed.trans (.log _)
        (hBegin (a.supersede primary companion _))

theorem hushed_takeOver
    (primary : String)
    (shared : DocumentPair) :
    Hushed a.host (a.takeOver primary shared).host :=
  Hushed.trans (.log _) (.reveal _ _)

theorem hushed_teardown :
    Hushed a.host a.teardown.host := by
  have hViews : ∀ (pairs : List DocumentPair)
      (a : Session Desktop),
      Hushed a.host (pairs.foldl
        (fun s pair => s.clearView pair.companion) a).host := by
    intro pairs
    induction pairs with
    | nil => exact fun a => .refl a.host
    | cons pair pairs ih =>
        exact fun a => (hushed_clearView _).trans (ih _)
  exact hViews a.registry.pairList a

end Pairing.Session

----
-- The application
----

namespace Application

open Desktop (Hushed)

variable {a : Application}

theorem hushed_activate
    {r : Workspace × Option (String × Region)}
    (h : r.1.stage = a.workspace.stage) :
    Hushed a.host (a.activate r).host := by
  have hShown : Hushed a.host (a.withWorkspace r.1).host :=
    .workspace (Workspace.page?_of_stage h)
  unfold activate announceActive
  split
  · exact hShown
  · split
    · exact hShown.trans (Session.hushed_noticeActivated _)
    · exact hShown.trans (.settle_activated _ _ _)

theorem hushed_present
    (uri : String)
    (preserveFocus : Bool) :
    Hushed a.host (a.present uri preserveFocus).host := by
  have hStage := a.workspace.stage_bringForward uri
  unfold present
  dsimp only
  split
  · exact .workspace (Workspace.page?_of_stage hStage)
  · exact hushed_activate
      ((Workspace.stage_markActive _ uri).trans hStage)

theorem hushed_reveal
    (uri : String)
    (wanted : Option Region)
    (preserveFocus : Bool) :
    Hushed a.host (a.reveal uri wanted preserveFocus).1.host := by
  unfold reveal
  split
  · exact .refl _
  · exact Hushed.trans (.logAll _) (hushed_present
      (a := a.onDesktop fun d => d.logAll
        (d.placeLog uri wanted)) uri preserveFocus)

theorem hushed_hover
    (uri : String)
    (line : Int) :
    Hushed a.host (a.hover uri line).1.host := by
  unfold hover
  split
  · exact .refl _
  · split
    · exact .refl _
    · exact .note rfl rfl

end Application

end StyleCompanion
