import StyleCompanion.Application.Desktop
import StyleCompanion.Proofs.Pairing.Renewal

/-
  Reconciliation, over any editor.

  A companion may vanish from its region without a report.  A
  reconciliation walks through the pairs as they were at its
  beginning and parts those whose companion has vanished.  It
  takes away what is kept for these companions and nothing
  else, and of the editor it wants no more than that it logs.
  So a second reconciliation finds nothing to do.

  Main declarations:
    * `Host.LogsAside`
    * `Session.vanished`
    * `Session.reconcile_eq_partAll`
    * `Session.partAll_eq`
    * `Session.reconcile_parts_exactly_vanished`
-/

namespace StyleCompanion

namespace Pairing

----
-- Logging
----

/- To log a record moves no document. -/
def Host.LogsAside
    (H : Type)
    [Host H] : Prop :=
  ∀ (h : H) (r : LogRecord) (region : Region),
    Host.documentsIn (Host.log h r) region =
      Host.documentsIn h region

/- Neither a desk nor a desktop keeps its log with them. -/
theorem logsAside_desk : Host.LogsAside Desk :=
  fun _ _ _ => rfl

theorem logsAside_desktop : Host.LogsAside Desktop :=
  fun _ _ _ => rfl

end Pairing

----
-- Erasing several keys
----

namespace Table

variable {α β : Type} [DecidableEq α]

/- Remove every entry of several keys. -/
def eraseAll
    (t : Table α β)
    (ks : List α) : Table α β :=
  t.filter fun e => decide (e.1 ∉ ks)

theorem eraseAll_nil
    (t : Table α β) :
    eraseAll t [] = t := by
  unfold eraseAll
  rw [List.filter_eq_self]
  intro e _
  exact decide_eq_true List.not_mem_nil

/- The keys may be erased one after the other. -/
theorem eraseAll_cons
    (t : Table α β)
    (k : α)
    (ks : List α) :
    eraseAll t (k :: ks) = eraseAll (erase t k) ks := by
  unfold eraseAll erase
  rw [List.filter_filter]
  apply List.filter_congr
  intro e _
  simp [not_or, Bool.and_comm]

end Table

namespace Pairing

namespace Session

variable {H : Type} [Host H]

----
-- Pairs that have vanished
----

/- The pairs whose companion is not in its region. -/
def vanished
    (s : Session H) : List DocumentPair :=
  s.registry.pairList.filter fun pair =>
    decide (pair.companion ∉
      Host.documentsIn s.host .secondary)

/- What is logged when a companion has vanished. -/
def partingNote
    (pair : DocumentPair) : LogRecord :=
  .info
    ("Companion " ++ pair.companion ++
      " vanished; unpairing " ++ pair.primary)

/- Log that pairs have vanished, one after the other. -/
def logPartings
    (h : H)
    (pairs : List DocumentPair) : H :=
  pairs.foldl (fun h pair => Host.log h (partingNote pair)) h

/- Drop pairs, one after the other. -/
def partAll
    (s : Session H)
    (pairs : List DocumentPair) : Session H :=
  pairs.foldl
    (fun s pair => (s.log (partingNote pair)).dropPair pair) s

/- Of all pairs only those that have vanished are touched. -/
theorem reconcile_eq_partAll
    (s : Session H) :
    s.reconcile = s.partAll s.vanished := by
  unfold reconcile partAll vanished
  rw [List.foldl_filter]
  congr 1
  funext t pair
  unfold unpairVanished
  by_cases hThere :
      pair.companion ∈ Host.documentsIn s.host .secondary
  · rw [if_pos hThere, if_neg (by simpa using hThere)]
  · rw [if_neg hThere, if_pos (by simpa using hThere)]
    rfl

/-
  Parting pairs takes away the models and the views of their
  companions, and logs.
-/
theorem partAll_eq
    (s : Session H)
    (pairs : List DocumentPair) :
    (s.partAll pairs).models =
        Table.eraseAll s.models (pairs.map (·.companion)) ∧
      (s.partAll pairs).engine =
        { s.engine with
          views :=
            Table.eraseAll s.engine.views
              (pairs.map (·.companion)) } ∧
      (s.partAll pairs).host = logPartings s.host pairs := by
  induction pairs generalizing s with
  | nil =>
      rw [List.map_nil, Table.eraseAll_nil,
        Table.eraseAll_nil]
      exact ⟨rfl, rfl, rfl⟩
  | cons pair pairs ih =>
      rw [List.map_cons, Table.eraseAll_cons,
        Table.eraseAll_cons]
      exact ih ((s.log (partingNote pair)).dropPair pair)

/- What is logged meanwhile moves no document. -/
theorem documentsIn_logPartings
    (hAside : Host.LogsAside H)
    (h : H)
    (pairs : List DocumentPair)
    (region : Region) :
    Host.documentsIn (logPartings h pairs) region =
      Host.documentsIn h region := by
  induction pairs generalizing h with
  | nil => rfl
  | cons pair pairs ih =>
      exact (ih _).trans (hAside h (partingNote pair) region)

/- After a reconciliation there is nothing to reconcile. -/
theorem reconcile_reconcile
    {s : Session H}
    (hAside : Host.LogsAside H)
    (hFiled : s.registry.Filed) :
    s.reconcile.reconcile = s.reconcile := by
  apply reconcile_eq_self
  intro pair hPair
  have hPresent := s.companion_present_of_reconcile hFiled hPair
  have hHost :
      s.reconcile.host = logPartings s.host s.vanished := by
    rw [reconcile_eq_partAll]
    exact (s.partAll_eq s.vanished).2.2
  rw [hHost, documentsIn_logPartings hAside]
  exact hPresent

/-
  A reconciliation leaves the pairs whose companion is in its
  region, in their order.  It takes away the views and the
  models of the companions of the other pairs, and no others.
  Openings under way stay.  The editor logs each parting and
  is told to do nothing.  A second reconciliation changes
  nothing.
-/
theorem reconcile_parts_exactly_vanished
    (hAside : Host.LogsAside H)
    (s : Session H)
    (hFiled : s.registry.Filed) :
    s.reconcile.registry.pairList =
        (s.registry.pairList.filter fun pair =>
          decide (pair.companion ∈
            Host.documentsIn s.host .secondary)) ∧
      s.reconcile.engine =
        { s.engine with
          views :=
            s.engine.views.filter fun e =>
              decide (e.1 ∉ s.vanished.map (·.companion)) } ∧
      s.reconcile.models =
        (s.models.filter fun e =>
          decide (e.1 ∉ s.vanished.map (·.companion))) ∧
      s.reconcile.registry.pending = s.registry.pending ∧
      s.reconcile.registry.nextToken = s.registry.nextToken ∧
      s.reconcile.host = logPartings s.host s.vanished ∧
      s.reconcile.reconcile = s.reconcile := by
  rcases s.partAll_eq s.vanished with
    ⟨hModels, hEngine, hHost⟩
  rw [← reconcile_eq_partAll] at hModels hEngine hHost
  exact ⟨s.pairList_reconcile hFiled, hEngine, hModels,
    s.pending_reconcile, s.loses_reconcile.nextToken, hHost,
    reconcile_reconcile hAside hFiled⟩

/-
  Two pages share a stylesheet that a third page is waiting
  for, and a fourth page has another one.  The first stylesheet
  is taken away, and nothing is reported.
-/
def stylesheetGone : Session Desk :=
  (Session.new 8 (Desk.new true)).run
    [.place "file:///index.html" .primary true,
      .place "file:///about.html" .primary true,
      .place "file:///news.html" .primary true,
      .place "file:///faq.html" .primary true,
      .request "file:///a.css" "file:///index.html",
      .request "file:///a.css" "file:///about.html",
      .request "file:///a.css" "file:///news.html",
      .request "file:///b.css" "file:///faq.html",
      .complete 0 true (some 1),
      .complete 0 true (some 1),
      .complete 1 true (some 1),
      .takeOut "file:///a.css"]

/-
  Both pairs with it are parted, its view and its model are
  forgotten, and the third page goes on waiting.
-/
theorem stylesheetGone_parted :
    stylesheetGone.vanished =
        [⟨"file:///index.html", "file:///a.css"⟩,
          ⟨"file:///about.html", "file:///a.css"⟩] ∧
      stylesheetGone.reconcile.registry.pairList =
        [⟨"file:///faq.html", "file:///b.css"⟩] ∧
      Table.keys stylesheetGone.engine.views =
        ["file:///a.css", "file:///b.css"] ∧
      Table.keys stylesheetGone.reconcile.engine.views =
        ["file:///b.css"] ∧
      Table.keys stylesheetGone.reconcile.models =
        ["file:///b.css"] ∧
      stylesheetGone.reconcile.registry.pendingList =
        [⟨"file:///news.html", "file:///a.css", 3⟩] ∧
      stylesheetGone.reconcile.host.calls =
        stylesheetGone.host.calls ∧
      stylesheetGone.reconcile.reconcile =
        stylesheetGone.reconcile := by
  have hFiled := filed_run 8 (Desk.new true)
  rcases reconcile_parts_exactly_vanished logsAside_desk
      stylesheetGone (hFiled _) with
    ⟨hPairs, hEngine, hModels, hPending, -, hHost, hAgain⟩
  refine ⟨by decide, hPairs.trans (by decide), by decide, ?_,
    ?_, ?_, ?_, hAgain⟩
  · rw [hEngine]
    decide
  · rw [hModels]
    decide
  · unfold PairRegistry.pendingList
    rw [hPending]
    decide
  · rw [hHost]
    rfl

end Session

end Pairing

end StyleCompanion
