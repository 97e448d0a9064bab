import StyleCompanion.Proofs.Pairing.StaleCompletion

/-
  Bursts of requests.

  A primary may ask for a companion many times before the
  companion is open, each time with another model.  All these
  requests share one opening.  When it completes, the newest
  model is rendered, and no other.

  Main declarations:
    * `Session.Burst`
    * `Session.Burst.Waits`
    * `Session.Burst.waits_first`
    * `Session.Burst.waits_again`
    * `Session.Burst.opens_once_paints_once`
-/

namespace StyleCompanion

/- The desk notes down what is cleared and what is painted. -/
def Overlay.Effect.isPainted : Effect → Bool
  | .log _ => false
  | .clear _ => true
  | .paint _ _ _ => true
  | .rendered _ _ => false

namespace Pairing

open Attribution

/- Decorating a desk adds to what is painted, and may log. -/
theorem Desk.exists_records_decorate
    (d : Desk)
    (effects : List Overlay.Effect) :
    ∃ records,
      effects.foldl Host.decorate d =
        { d with
          painted :=
            d.painted ++ effects.filter (·.isPainted)
          records := records } := by
  induction effects generalizing d with
  | nil =>
      refine ⟨d.records, ?_⟩
      rw [List.filter_nil, List.append_nil]
      rfl
  | cons e effects ih =>
      rcases ih (Host.decorate d e) with ⟨records, hRest⟩
      refine ⟨records, ?_⟩
      rw [List.foldl_cons, hRest]
      cases e with
      | log _ => rfl
      | rendered _ _ => rfl
      | clear _ => simp [Host.decorate, decorate,
          Overlay.Effect.isPainted]
      | paint _ _ _ => simp [Host.decorate, decorate,
          Overlay.Effect.isPainted]

namespace Session

----
-- Companions that appear
----

/- A companion may appear with a number of lines. -/
theorem lineCount_placeOpened
    (s : Session Desk)
    (companion : String)
    (lines : Option Int) :
    Host.lineCount (s.placeOpened companion lines).host
        companion =
      lines.or (Host.lineCount s.host companion) := by
  have hAdd : ∀ (d : Desk) (region : Region),
      Host.lineCount (d.add companion region true) companion =
        Host.lineCount d companion := by
    intro d region
    cases region <;> rfl
  have hReconcile : ∀ t : Session Desk,
      Host.lineCount t.reconcile.host companion =
        Host.lineCount t.host companion := by
    intro t
    rcases t.exists_records_reconcile with ⟨records, hHost⟩
    rw [hHost]
    rfl
  unfold placeOpened
  extract_lets d
  have hCount :
      Host.lineCount d companion =
        lines.or (Host.lineCount s.host companion) := by
    cases lines with
    | none => rfl
    | some n =>
        exact Table.get?_insert_self _ _ _
  clear_value d
  split
  · exact (hAdd d _).trans hCount
  · split
    · exact (hReconcile _).trans ((hAdd d _).trans hCount)
    · exact (hAdd d _).trans hCount

/-
  No companion of a pair has vanished when another appears, so
  that no pair is dropped.
-/
theorem placeOpened_of_present
    {s : Session Desk}
    (hPresent :
      ∀ pair ∈ s.registry.pairList,
        pair.companion ∈ s.host.secondary.documents)
    (companion : String)
    (lines : Option Int) :
    ∃ (counts : Table String Int) (region : Region),
      s.placeOpened companion lines =
        s.onDesk fun d =>
          { d with counts := counts }.add companion region
            true := by
  rcases s.placeOpened_cases companion lines with
    ⟨counts, region, hPlace | hPlace⟩
  · exact ⟨counts, region, hPlace⟩
  · refine ⟨counts, region, hPlace.trans ?_⟩
    apply reconcile_eq_self
    intro pair hPair
    exact Desk.mem_secondary_add
      (d := { s.host with counts := counts })
      (hPresent pair hPair) _ _ _

----
-- Bursts
----

/-
  A primary that is open, without a pair and without an
  opening, asks some times for a companion that has no pair.
  The companion need not be closed.
-/
structure Burst where
  start : Session Desk
  primary : String
  uri : String
  earlier : List Model
  newest : Model
  reachable : start.Reachable
  named : primary ≠ ""
  companionNamed : Text.trim uri ≠ ""
  isOpen : Host.isOpen start.host primary = true
  unpaired : start.registry.pairForPrimary primary = none
  idle : start.registry.pendingFor primary = none
  companionUnpaired :
    start.registry.pairForCompanion (Text.trim uri) = none

namespace Burst

/- The companion that is asked for. -/
def companion
    (k : Burst) : String :=
  Text.trim k.uri

/- The opening that all requests share. -/
def opening
    (k : Burst) : PendingOpen :=
  ⟨k.primary, k.companion, k.start.registry.nextToken⟩

/- A request with a model. -/
def request
    (k : Burst)
    (m : Model) : Event :=
  .showCompanion k.uri m (some k.primary)

/- The desk once it was asked to open the companion. -/
def asked
    (k : Burst) : Desk :=
  { k.start.host with
    opens := k.start.host.opens ++ [k.opening]
    calls := k.start.host.calls ++ [.openLater k.companion] }

/- The session after all requests. -/
def requested
    (k : Burst) : Session Desk :=
  k.start.run ((k.earlier ++ [k.newest]).map k.request)

/- The session after the opening has completed. -/
def opened
    (k : Burst)
    (lines : Option Int) : Session Desk :=
  (k.requested.complete k.start.host.opens.length true lines).1

/- The number of lines that the companion is opened with. -/
def lineCount
    (k : Burst)
    (lines : Option Int) : Option Int :=
  lines.or (Host.lineCount k.start.host k.companion)

/- The render of the newest model. -/
def rendered
    (k : Burst)
    (lines : Option Int) :
    Overlay.Engine × List Overlay.Effect ×
      Option Overlay.RenderResult :=
  k.requested.engine.render k.companion k.newest
    (k.lineCount lines)

----
-- Requests
----

/-
  The primary waits for the companion, which will get a model,
  and no more was asked of the desk.
-/
structure Waits
    (k : Burst)
    (m : Model)
    (s : Session Desk) : Prop where
  registry :
    s.registry =
      { k.start.reconcile.registry with
        pending :=
          Table.insert k.start.reconcile.registry.pending
            k.primary k.opening
        nextToken := k.start.registry.nextToken + 1 }
  model : Table.get? s.models k.companion = some m
  engine : s.engine = k.start.reconcile.engine
  host :
    ∃ records,
      s.host = { k.asked with records := records }

variable (k : Burst)

theorem step_request
    (s : Session Desk)
    (m : Model) :
    s.step (k.request m) =
      (s.showFor k.primary k.companion m).1 := by
  have hNamed := k.named
  have hCompanion := k.companionNamed
  simp only [step, request, showCompanion, primaryFor,
    String.isEmpty_iff, hNamed, hCompanion, if_false]
  rfl

theorem filed : k.start.registry.Filed := by
  rcases k.reachable with ⟨paletteSize, desk, events, hRun⟩
  rw [hRun]
  exact filed_run paletteSize desk events

/- The opening begins when vanished companions are gone. -/
theorem beginOpen_reconcile :
    k.start.reconcile.registry.beginOpen k.primary
        k.companion =
      ({ k.start.reconcile.registry with
          pending :=
            Table.insert k.start.reconcile.registry.pending
              k.primary k.opening
          nextToken := k.start.registry.nextToken + 1 },
        some k.opening) := by
  have hIdle :
      k.start.reconcile.registry.pendingFor k.primary = none := by
    rw [pendingFor_reconcile]
    exact k.idle
  rw [PairRegistry.beginOpen_eq hIdle,
    k.start.loses_reconcile.nextToken]
  rfl

/- The first request begins the opening. -/
theorem waits_first
    (m : Model) :
    k.Waits m (k.start.step (k.request m)) := by
  have hUnpaired :
      (k.start.reconcile.keepModel k.companion
        m).registry.pairForPrimary k.primary = none :=
    k.start.loses_reconcile.pairForPrimary_eq_none k.unpaired
  have hFree :
      (k.start.reconcile.keepModel k.companion
        m).registry.pairForCompanion k.companion = none :=
    k.start.loses_reconcile.pairForCompanion_eq_none
      k.companionUnpaired
  have hIdle :
      (k.start.reconcile.keepModel k.companion
        m).registry.pendingFor k.primary = none :=
    (k.start.pendingFor_reconcile k.primary).trans k.idle
  have hBegin :
      (k.start.reconcile.keepModel k.companion
          m).registry.beginOpen k.primary k.companion =
        (_, some k.opening) := k.beginOpen_reconcile
  have hHost : ∀ r, ∃ records,
      Host.requestOpen (Host.log k.start.reconcile.host r)
          k.opening =
        { k.asked with records := records } := by
    intro r
    rcases k.start.exists_records_reconcile with
      ⟨records, hHost⟩
    rw [hHost]
    exact ⟨records ++ [r], rfl⟩
  rw [step_request]
  simp only [showFor, hUnpaired, showUnpaired, hFree,
    openCompanion, hIdle, beginOpening, hBegin]
  constructor
  · rfl
  · exact Table.get?_insert_self _ _ _
  · rfl
  · exact hHost _

namespace Waits

variable {k : Burst} {m : Model} {s : Session Desk}

theorem pairList_eq
    (h : k.Waits m s) :
    s.registry.pairList =
      k.start.reconcile.registry.pairList := by
  rw [h.registry]
  rfl

theorem pairForPrimary_eq
    (h : k.Waits m s) :
    s.registry.pairForPrimary k.primary = none := by
  rw [h.registry]
  exact k.start.loses_reconcile.pairForPrimary_eq_none
    k.unpaired

theorem pairForCompanion_eq
    (h : k.Waits m s) :
    s.registry.pairForCompanion k.companion = none := by
  rw [h.registry]
  exact k.start.loses_reconcile.pairForCompanion_eq_none
    k.companionUnpaired

theorem pendingFor_eq
    (h : k.Waits m s) :
    s.registry.pendingFor k.primary = some k.opening := by
  rw [h.registry]
  exact Table.get?_insert_self _ _ _

/- No companion of a pair has vanished. -/
theorem present
    (h : k.Waits m s)
    {pair : DocumentPair}
    (hPair : pair ∈ s.registry.pairList) :
    pair.companion ∈ s.host.secondary.documents := by
  rcases h.host with ⟨records, hHost⟩
  rw [h.pairList_eq] at hPair
  rw [hHost]
  exact k.start.companion_present_of_reconcile k.filed hPair

end Waits

/- A further request changes the model that is kept. -/
theorem waits_again
    {m : Model}
    {s : Session Desk}
    (h : k.Waits m s)
    (next : Model) :
    k.Waits next (s.step (k.request next)) := by
  have hUnpaired :
      (s.keepModel k.companion next).registry.pairForPrimary
        k.primary = none := h.pairForPrimary_eq
  have hFree :
      (s.keepModel k.companion next).registry.pairForCompanion
        k.companion = none := h.pairForCompanion_eq
  have hPending :
      (s.keepModel k.companion next).registry.pendingFor
        k.primary = some k.opening := h.pendingFor_eq
  have hSame : k.opening.companion = k.companion := rfl
  have hHost : ∀ r, ∃ records,
      Host.log s.host r =
        { k.asked with records := records } := by
    intro r
    rcases h.host with ⟨records, hHost⟩
    rw [hHost]
    exact ⟨records ++ [r], rfl⟩
  rw [step_request]
  simp only [showFor, s.reconcile_eq_self fun _ => h.present,
    hUnpaired, showUnpaired, hFree, openCompanion, hPending,
    hSame, if_true]
  constructor
  · exact h.registry
  · exact Table.get?_insert_self _ _ _
  · exact h.engine
  · exact hHost _

theorem waits_run
    {m : Model}
    {s : Session Desk}
    (h : k.Waits m s)
    (models : List Model)
    (last : Model) :
    k.Waits last
      (s.run ((models ++ [last]).map k.request)) := by
  induction models generalizing m s with
  | nil => exact k.waits_again h last
  | cons next models ih =>
      rw [List.cons_append, List.map_cons, run, List.foldl_cons]
      exact ih (k.waits_again h next)

/- After all requests the newest model is kept. -/
theorem waits_requested :
    k.Waits k.newest k.requested := by
  unfold requested
  cases k.earlier with
  | nil => exact k.waits_first k.newest
  | cons first models =>
      rw [List.cons_append, List.map_cons, run, List.foldl_cons]
      exact k.waits_run (k.waits_first first) models k.newest

----
-- The completion
----

variable {k}

/-
  The companion appears with its number of lines.  Nothing was
  asked of the desk, and the primary is still open.
-/
theorem Waits.exists_delivered
    {m : Model}
    {s : Session Desk}
    (h : k.Waits m s)
    (lines : Option Int) :
    ∃ d : Desk,
      s.delivered k.start.host.opens.length k.opening true
          lines =
        { s with host := d } ∧
      d.calls = s.host.calls ∧
      d.painted = s.host.painted ∧
      Host.lineCount d k.companion = k.lineCount lines ∧
      Host.isOpen d k.primary = true := by
  rcases h.host with ⟨records, hHost⟩
  have hLines :=
    lineCount_placeOpened
      (s.withoutOpening k.start.host.opens.length) k.companion
      lines
  rcases placeOpened_of_present
      (s := s.withoutOpening k.start.host.opens.length)
      (fun _ => h.present) k.companion lines with
    ⟨counts, region, hPlace⟩
  rw [hPlace] at hLines
  refine ⟨_, hPlace, ?_, ?_, hLines.trans ?_, ?_⟩
  · cases region <;> rfl
  · cases region <;> rfl
  · dsimp only [withoutOpening]
    rw [hHost]
    rfl
  · refine (Desk.isOpen_add _ _ _ _ _).mpr (.inr ?_)
    dsimp only [withoutOpening]
    rw [hHost]
    exact k.isOpen

/-
  The completion registers the pair and renders the newest
  model on the companion that appeared.
-/
theorem Waits.complete_eq_render
    {m : Model}
    {s : Session Desk}
    (h : k.Waits m s)
    (lines : Option Int) :
    ∃ d : Desk,
      (s.complete k.start.host.opens.length true lines).1 =
        (({ s with
            registry := (s.registry.cancelOpen k.primary).1
            host := d } : Session Desk).register k.primary
              k.companion).render k.companion m ∧
      d.calls = s.host.calls ∧
      d.painted = s.host.painted ∧
      Host.lineCount d k.companion = k.lineCount lines := by
  have hIndex :
      s.host.opens[k.start.host.opens.length]? =
        some k.opening := by
    rcases h.host with ⟨records, hHost⟩
    rw [hHost]
    exact List.getElem?_concat_length
  have hAwaits : s.registry.Awaits k.opening :=
    congrArg (Option.map PendingOpen.token) h.pendingFor_eq
  rcases h.exists_delivered lines with
    ⟨d, hDelivered, hCalls, hPainted, hLines, hOpen⟩
  refine ⟨d, ?_, hCalls, hPainted, hLines⟩
  have hFinish :
      PairRegistry.finishOpen
          ({ s with host := d } : Session Desk).registry
          k.opening =
        ((s.registry.cancelOpen k.primary).1, true) :=
    PairRegistry.finishOpen_eq hAwaits
  have hModel :
      Table.get? ({ s with host := d } : Session Desk).models
        k.opening.companion = some m := h.model
  rw [complete_eq hIndex, hDelivered,
    companionOpened_awaited hFinish hOpen, hModel]
  rfl

variable (k)

/-
  However many requests there are, they have one opening.  Its
  completion registers one pair and makes one render, with the
  newest model.
-/
theorem opens_once_paints_once
    (lines : Option Int) :
    k.requested.host.calls =
        k.start.host.calls ++ [.openLater k.companion] ∧
      k.requested.host.painted = k.start.host.painted ∧
      k.requested.host.opens =
        k.start.host.opens ++ [k.opening] ∧
      k.requested.registry.pairList =
        k.start.reconcile.registry.pairList ∧
      (k.opened lines).registry.pairList =
        k.requested.registry.pairList ++
          [⟨k.primary, k.companion⟩] ∧
      (k.opened lines).registry.pendingFor k.primary = none ∧
      (k.opened lines).host.calls = k.requested.host.calls ∧
      (k.opened lines).engine = (k.rendered lines).1 ∧
      (k.opened lines).host.painted =
        k.requested.host.painted ++
          (k.rendered lines).2.1.filter (·.isPainted) := by
  have h := k.waits_requested
  rcases h.host with ⟨records, hHost⟩
  rcases h.complete_eq_render lines with
    ⟨d, hOpened, hCalls, hPainted, hLines⟩
  rcases d.exists_records_decorate (k.rendered lines).2.1 with
    ⟨after, hDecorated⟩
  have hDesk :
      (k.opened lines).host =
        (k.rendered lines).2.1.foldl Host.decorate d := by
    rw [opened, hOpened, rendered, ← hLines]
    rfl
  rw [hDecorated] at hDesk
  have hKeys :=
    PairRegistry.pairForPrimary_eq_none_iff.mp
      h.pairForPrimary_eq
  refine ⟨by rw [hHost]; rfl, by rw [hHost]; rfl,
    by rw [hHost]; rfl, h.pairList_eq, ?_, ?_, ?_, ?_, ?_⟩
  · rw [opened, hOpened]
    change Table.values (Table.insert k.requested.registry.pairs
      k.primary _) = _
    rw [Table.insert_of_notMem_keys hKeys]
    exact List.map_append
  · rw [opened, hOpened]
    exact Table.get?_erase_self _ _
  · rw [hDesk]
    exact hCalls
  · rw [opened, hOpened, rendered, ← hLines]
    rfl
  · rw [hDesk]
    exact congrArg (· ++ _) hPainted

end Burst

/- A model of a stylesheet with one line. -/
def oneLiner : Model :=
  ⟨⟨[⟨1, "a.css", "/a.css"⟩]⟩, [], [⟨0, some 1⟩],
    [(0, some 1)], []⟩

/-
  A page asks three times for a stylesheet that is being
  opened for another page.
-/
def impatient : Burst where
  start :=
    (Session.new 8 (Desk.new true)).run
      [.place "file:///home.html" .primary true,
        .place "file:///about.html" .primary true,
        .request "file:///a.css" "file:///about.html"]
  primary := "file:///home.html"
  uri := " file:///a.css"
  earlier :=
    [⟨.empty, [], [], [], []⟩, ⟨.empty, [], [], [], []⟩]
  newest := oneLiner
  reachable := ⟨_, _, _, rfl⟩
  named := by decide
  companionNamed := by decide
  isOpen := rfl
  unpaired := rfl
  idle := rfl
  companionUnpaired := rfl

/-
  The stylesheet is opened once for the page, and painted once
  with the newest model.
-/
theorem impatient_opens_once :
    impatient.start.host.opens =
        [⟨"file:///about.html", "file:///a.css", 1⟩] ∧
      impatient.requested.host.opens =
        [⟨"file:///about.html", "file:///a.css", 1⟩,
          ⟨"file:///home.html", "file:///a.css", 2⟩] ∧
      (impatient.opened (some 1)).registry.pairList =
        [⟨"file:///home.html", "file:///a.css"⟩] ∧
      (impatient.opened (some 1)).host.painted =
        [.clear "file:///a.css",
          .paint "file:///a.css" "owner-0" [⟨0, 0⟩]] := by
  rcases impatient.opens_once_paints_once (some 1) with
    ⟨-, hUnpainted, hOpens, hNone, hPairs, -, -, -, hPainted⟩
  rw [hNone] at hPairs
  rw [hUnpainted] at hPainted
  have hRender :
      (impatient.rendered (some 1)).2.1.filter (·.isPainted) =
        [.clear "file:///a.css",
          .paint "file:///a.css" "owner-0" [⟨0, 0⟩]] := by
    decide
  rw [hRender] at hPainted
  exact ⟨rfl, hOpens, hPairs, hPainted⟩

end Session

end Pairing

end StyleCompanion
