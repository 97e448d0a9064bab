import StyleCompanion.Proofs.Pairing.Bursts
import StyleCompanion.Proofs.Pairing.Coherence
import StyleCompanion.Proofs.Pairing.Untouched

/-
  Openings that outlive their primary.

  A primary that was closed may have left openings behind: the
  one it waited for, and those it gave up before.  Until the
  primary asks again, no completion of them joins a pair, in
  whatever order they complete and whatever happens between.
  The companion that appears is closed, its model is dropped,
  and nothing is painted.

  Main declarations:
    * `PairRegistry.Unattended`
    * `Session.unattended_step`
    * `Session.Recedes`
    * `Session.recedes_close`
    * `Session.CleansUp`
    * `Session.cleansUp_complete`
    * `Session.orphans_are_cleaned_up`
-/

namespace StyleCompanion

/- An effect that puts something on a view. -/
def Overlay.Effect.isPaint : Effect → Bool
  | .paint _ _ _ => true
  | _ => false

namespace Pairing

----
-- Primaries without a pair
----

namespace PairRegistry

/- A primary has no pair and waits for no companion. -/
structure Unattended
    (p : String)
    (r : PairRegistry) : Prop where
  pair : r.pairForPrimary p = none
  pending : r.pendingFor p = none

variable {p : String} {r t : PairRegistry}

theorem Unattended.of_loses
    (h : r.Unattended p)
    (hLost : r.Loses t) :
    t.Unattended p :=
  ⟨hLost.pairForPrimary_eq_none h.pair,
    hLost.pendingFor_eq_none h.pending⟩

/- A primary that waits for nothing awaits no opening. -/
theorem Unattended.not_awaits
    {q : PendingOpen}
    (h : r.Unattended q.primary) :
    ¬ r.Awaits q := by
  intro hAwaits
  unfold Awaits at hAwaits
  rw [h.pending] at hAwaits
  cases hAwaits

/- The pair of another primary is registered. -/
theorem Unattended.register
    (h : r.Unattended p)
    {primary : String}
    (hOther : primary ≠ p)
    (c : String) :
    (r.register primary c).Unattended p where
  pair :=
    ((Table.get?_insert _ primary p _).trans
      (if_neg hOther)).trans h.pair
  pending := h.pending

/- A request of another primary is served. -/
theorem Unattended.serve
    (h : r.Unattended p)
    {primary c : String}
    (hOther : primary ≠ p)
    (hServes : r.Serves primary c t) :
    t.Unattended p := by
  cases hServes with
  | renew hLost _ _ => exact h.of_loses hLost
  | takeOver hLost _ _ =>
      apply Unattended.register _ hOther
      exact (h.of_loses hLost).of_loses (loses_remove _ _)
  | wait hLost _ _ _ _ => exact h.of_loses hLost
  | begin hLost _ _ hIdle =>
      have hKept := h.of_loses hLost
      rw [beginOpen_eq hIdle]
      refine ⟨hKept.pair, ?_⟩
      exact ((Table.get?_insert _ primary p _).trans
        (if_neg hOther)).trans hKept.pending

end PairRegistry

namespace Session

variable {s t u : Session Desk} {p : String} {e : Event}

/-
  A primary that does not ask stays without a pair: what
  completes for it is not waited for.
-/
theorem unattended_step
    (hFiled : s.registry.Filed)
    (h : s.registry.Unattended p)
    (hSilent :
      ∀ pair, s.asks e = some pair → pair.primary ≠ p) :
    (s.step e).registry.Unattended p := by
  have hTurn := turn_step hFiled e
  generalize (s.step e).registry = r at hTurn ⊢
  cases hTurn with
  | lose hLost => exact h.of_loses hLost
  | serve hAsks hServes =>
      exact (h.of_loses s.loses_reconcile).serve
        (hSilent _ hAsks) hServes
  | @join i ok lines q _ _ hJoins =>
      have hLate :=
        h.of_loses (s.loses_delivered i q ok lines)
      apply PairRegistry.Unattended.register
      · exact hLate.of_loses
          (PairRegistry.loses_finishOpen _ q)
      · intro hEq
        subst hEq
        exact hLate.not_awaits hJoins.2.1

theorem unattended_run
    {events : List Event}
    (hFiled : s.registry.Filed)
    (h : s.registry.Unattended p)
    (hSilent : ∀ pair ∈ s.asked events, pair.primary ≠ p)
    (k : Nat) :
    (s.run (events.take k)).registry.Unattended p := by
  induction events generalizing s k with
  | nil =>
      rw [List.take_nil]
      exact h
  | cons e events ih =>
      cases k with
      | zero => exact h
      | succ k =>
          apply ih (filed_step hFiled e)
          · apply unattended_step hFiled h
            intro pair hAsks
            apply hSilent
            exact List.mem_append_left _
              (Option.mem_toList.mpr hAsks)
          · intro pair hPair
            exact hSilent pair (List.mem_append_right _ hPair)

/- An event after which a primary has no claims. -/
def Event.dismisses
    (e : Event)
    (p : String) : Bool :=
  match e with
  | .documentClosed uri => uri = p
  | .primaryClosed uri => uri = p
  | .teardown => true
  | _ => false

theorem unattended_releasePrimary
    (hFiled : s.registry.Filed)
    (p : String) :
    (s.releasePrimary p).1.registry.Unattended p := by
  rcases s.releasePrimary_eq p with ⟨records, hRelease⟩
  have hPending :
      (s.registry.cancelOpen p).1.pendingFor p = none :=
    Table.get?_erase_self _ _
  rw [hRelease]
  cases hPair : s.registry.pairForPrimary p with
  | none => exact ⟨hPair, hPending⟩
  | some pair =>
      have hPrimary := hFiled.primary_eq hPair
      subst hPrimary
      exact ⟨Table.get?_erase_self _ _, hPending⟩

theorem unattended_releaseClosed
    (hFiled : s.registry.Filed)
    (p : String) :
    (s.releaseClosed p).1.registry.Unattended p := by
  by_cases hClaims :
      ((s.registry.pairForPrimary p).isSome ||
        (s.registry.pendingFor p).isSome) = true
  · unfold releaseClosed
    rw [if_pos hClaims]
    exact unattended_releasePrimary hFiled p
  · simp only [Bool.or_eq_true, not_or, Bool.not_eq_true,
      Option.isSome_eq_false_iff, Option.isNone_iff_eq_none]
      at hClaims
    have hUnattended : s.registry.Unattended p :=
      ⟨hClaims.1, hClaims.2⟩
    exact hUnattended.of_loses (s.loses_releaseClosed p)

theorem unattended_of_dismisses
    (hFiled : s.registry.Filed)
    (h : e.dismisses p = true) :
    (s.step e).registry.Unattended p := by
  unfold Event.dismisses at h
  split at h
  next uri =>
    have hEq : uri = p := of_decide_eq_true h
    subst hEq
    exact (unattended_releaseClosed hFiled uri).of_loses
      (loses_closeReleased _)
  next uri =>
    have hEq : uri = p := of_decide_eq_true h
    subst hEq
    exact (unattended_releasePrimary hFiled uri).of_loses
      (loses_closeReleased _)
  next => exact ⟨rfl, rfl⟩
  next => cases h

----
-- Receding
----

/- Taking a document out adds no copy of any. -/
theorem copies_takeOut_le
    (d : Desk)
    (uri v : String) :
    (d.takeOut uri).copies v ≤ d.copies v := by
  have hErase : ∀ shelf : Shelf,
      (shelf.remove uri).documents.count v ≤
        shelf.documents.count v :=
    fun shelf => List.erase_sublist.count_le v
  unfold Desk.takeOut
  cases d.regionOf uri with
  | none => exact Nat.le_refl _
  | some region =>
      cases region with
      | primary => exact Nat.add_le_add_right (hErase _) _
      | secondary => exact Nat.add_le_add_left (hErase _) _

theorem copies_close_le
    (d : Desk)
    (uri v : String) :
    (d.close uri).host.copies v ≤ d.copies v := by
  have hOut := copies_takeOut_le (d.note (.close uri)) uri v
  unfold Desk.close
  dsimp only
  split
  · exact hOut
  · exact hOut

/-
  A session recedes: nothing is painted, no model is gained,
  and no document has more copies.
-/
structure Recedes
    (s t : Session Desk) : Prop where
  painted : t.host.painted = s.host.painted
  models :
    ∀ v, Table.get? s.models v = none →
      Table.get? t.models v = none
  copies : ∀ v, t.host.copies v ≤ s.host.copies v

namespace Recedes

theorem refl
    (s : Session Desk) :
    s.Recedes s :=
  ⟨rfl, fun _ h => h, fun _ => Nat.le_refl _⟩

theorem trans
    (h : s.Recedes t)
    (k : t.Recedes u) :
    s.Recedes u where
  painted := k.painted.trans h.painted
  models v hNone := k.models v (h.models v hNone)
  copies v := Nat.le_trans (k.copies v) (h.copies v)

end Recedes

theorem recedes_log
    (s : Session Desk)
    (r : LogRecord) :
    s.Recedes (s.log r) :=
  ⟨rfl, fun _ h => h, fun _ => Nat.le_refl _⟩

theorem recedes_dropPair
    (s : Session Desk)
    (pair : DocumentPair) :
    s.Recedes (s.dropPair pair) where
  painted := rfl
  models v hNone := by
    rw [dropPair, Table.get?_erase, hNone, ite_self]
  copies _ := Nat.le_refl _

theorem recedes_shut
    (s : Session Desk)
    (uri : String) :
    s.Recedes (s.shut uri) :=
  ⟨s.host.painted_close uri, fun _ h => h,
    copies_close_le s.host uri⟩

theorem recedes_released
    (s : Session Desk)
    (uri : String)
    (records : List LogRecord) :
    s.Recedes ((s.withoutPending uri).withRecords records) :=
  ⟨rfl, fun _ h => h, fun _ => Nat.le_refl _⟩

theorem recedes_reconcile
    (s : Session Desk) :
    s.Recedes s.reconcile :=
  s.reconcile_induction (.refl s) fun t _ pair h =>
    h.trans ((t.recedes_log _).trans (recedes_dropPair _ pair))

theorem recedes_reveal
    (s : Session Desk)
    (uri : String)
    (region : Region) :
    s.Recedes
      { s with host := Host.reveal s.host uri region } := by
  change s.Recedes { s with host := s.host.reveal uri region }
  unfold Desk.reveal
  dsimp only
  split
  next =>
    exact ⟨rfl, fun _ h => h, fun _ => Nat.le_refl _⟩
  next shelf _ =>
    cases shelf <;>
      exact ⟨rfl, fun _ h => h, fun _ => Nat.le_refl _⟩

theorem recedes_activeViewChanged
    (s : Session Desk)
    (uri : String) :
    s.Recedes (s.activeViewChanged uri) := by
  have hReconcile := s.recedes_reconcile
  unfold activeViewChanged
  dsimp only
  split
  · unfold primaryFocused
    split
    · exact hReconcile
    · exact hReconcile.trans (recedes_reveal _ _ _)
  · split
    · unfold companionFocused
      split
      · exact hReconcile
      · exact hReconcile.trans (recedes_reveal _ _ _)
    · exact hReconcile

theorem recedes_releasePrimary
    (s : Session Desk)
    (uri : String) :
    s.Recedes (s.releasePrimary uri).1 := by
  rcases s.releasePrimary_eq uri with ⟨records, hRelease⟩
  have hReleased := s.recedes_released uri records
  rw [hRelease]
  cases s.registry.pairForPrimary uri with
  | none => exact hReleased
  | some pair => exact hReleased.trans (recedes_dropPair _ pair)

theorem recedes_companionClosed
    (s : Session Desk)
    (uri : String) :
    s.Recedes (s.companionClosed uri) := by
  unfold companionClosed
  split
  · exact s.recedes_log _
  · exact s.recedes_dropPair _

theorem recedes_releaseClosed
    (s : Session Desk)
    (uri : String) :
    s.Recedes (s.releaseClosed uri).1 := by
  unfold releaseClosed
  split
  · exact s.recedes_releasePrimary uri
  · split
    · exact s.recedes_companionClosed uri
    · exact s.recedes_log _

/- Whatever a closing closes after the first document. -/
theorem recedes_shut_closeWithin
    (n : Nat)
    (s : Session Desk)
    (uri : String) :
    (s.shut uri).Recedes (closeWithin (n + 1) s uri) := by
  induction n generalizing s uri with
  | zero =>
      have hReleased := recedes_releaseClosed (s.shut uri) uri
      rw [closeWithin_succ]
      split
      · split
        · exact hReleased
        · exact hReleased
      · exact .refl _
  | succ n ih =>
      have hReleased := recedes_releaseClosed (s.shut uri) uri
      rw [closeWithin_succ]
      split
      · split
        · exact hReleased
        · exact (hReleased.trans (recedes_shut _ _)).trans
            (ih _ _)
      · exact .refl _

theorem recedes_close
    (s : Session Desk)
    (uri : String) :
    s.Recedes (s.close uri) :=
  (s.recedes_shut uri).trans
    (recedes_shut_closeWithin _ s uri)

/- A document with one copy is closed, whatever follows. -/
theorem isOpen_close_eq_false
    {uri : String}
    (h : s.host.copies uri ≤ 1) :
    Host.isOpen (s.close uri).host uri = false := by
  have hShut : (s.shut uri).host.copies uri = 0 :=
    Desk.copies_close h
  have hRest :=
    (recedes_shut_closeWithin s.registry.size s uri).copies uri
  rw [← Bool.not_eq_true, Desk.isOpen_iff_copies]
  change ¬ 0 <
    (closeWithin (s.registry.size + 1) s uri).host.copies uri
  omega

theorem recedes_closeReleased
    (r : Session Desk × Option String) :
    r.1.Recedes (closeReleased r) := by
  unfold closeReleased
  split
  · exact .refl _
  · exact recedes_close _ _

----
-- Nothing is painted
----

/- What was painted, without what was cleared. -/
def paints
    (s : Session Desk) : List Overlay.Effect :=
  s.host.painted.filter (·.isPaint)

theorem Recedes.paints_eq
    (h : s.Recedes t) :
    t.paints = s.paints := by
  unfold paints
  rw [h.painted]

theorem paints_clearView
    (s : Session Desk)
    (view : String) :
    (s.clearView view).paints = s.paints := by
  have hClear :
      (s.engine.clear view
          (Host.lineCount s.host view)).2 = [] ∨
        (s.engine.clear view
          (Host.lineCount s.host view)).2 = [.clear view] := by
    unfold Overlay.Engine.clear
    dsimp only
    split
    · exact Or.inl rfl
    · exact Or.inr rfl
  unfold clearView decorate paints
  dsimp only
  rcases hClear with hNone | hOne
  · rw [hNone]
    rfl
  · rw [hOne]
    change
      (s.host.painted ++ [Overlay.Effect.clear view]).filter
        (·.isPaint) = _
    rw [List.filter_append]
    exact List.append_nil _

/- What the editor does and reports by itself. -/
def Event.isReport : Event → Bool
  | .complete _ _ _ => false
  | .showCompanion _ _ _ => false
  | .setPaletteSize _ => false
  | _ => true

theorem paints_of_isReport
    (s : Session Desk)
    (h : e.isReport = true) :
    (s.step e).paints = s.paints := by
  cases e with
  | place uri region active =>
      have hPainted :=
        s.host.painted_onShelf region (·.add uri active)
      exact congrArg (List.filter _) hPainted
  | takeOut uri =>
      exact congrArg (List.filter _)
        (s.host.painted_takeOut uri)
  | close uri => exact (s.recedes_close uri).paints_eq
  | prepareReload _ _ => rfl
  | setCount _ _ => rfl
  | complete _ _ _ => cases h
  | showCompanion _ _ _ => cases h
  | documentOpened => exact s.recedes_reconcile.paints_eq
  | activeViewChanged uri =>
      exact (s.recedes_activeViewChanged uri).paints_eq
  | documentClosed uri =>
      exact ((s.recedes_releaseClosed uri).trans
        (recedes_closeReleased _)).paints_eq
  | companionEdited uri =>
      change (s.companionEdited uri).paints = s.paints
      unfold companionEdited
      split
      · rfl
      · exact paints_clearView _ uri
  | primaryClosed uri =>
      exact ((s.recedes_releasePrimary uri).trans
        (recedes_closeReleased _)).paints_eq
  | companionClosed uri =>
      exact (s.recedes_companionClosed uri).paints_eq
  | reconcile => exact s.recedes_reconcile.paints_eq
  | teardown =>
      have hFold :
          ∀ (pairs : List DocumentPair) (t : Session Desk),
            (pairs.foldl
              (fun t pair => t.clearView pair.companion)
              t).paints = t.paints := by
        intro pairs
        induction pairs with
        | nil =>
            intro t
            rfl
        | cons pair pairs ih =>
            intro t
            exact (ih _).trans (t.paints_clearView _)
      exact hFold s.registry.pairList s
  | setPaletteSize _ => cases h

----
-- Completions
----

/-
  The completion of an opening leaves nothing behind: nothing
  is painted, its companion has no model, and a companion that
  appeared is closed unless it was open twice.
-/
structure CleansUp
    (q : PendingOpen)
    (ok : Bool)
    (s t : Session Desk) : Prop where
  painted : t.host.painted = s.host.painted
  model : Table.get? t.models q.companion = none
  closed :
    ok = true → s.host.copies q.companion ≤ 1 →
      Host.isOpen t.host q.companion = false

/- An opening that joins no pair cleans up. -/
theorem cleansUp_companionOpened
    {q : PendingOpen}
    {ok : Bool}
    (h : ¬ s.Joins q ok) :
    s.CleansUp q ok (s.companionOpened q ok) := by
  cases ok with
  | false =>
      refine ⟨rfl, Table.get?_erase_self _ _, ?_⟩
      intro hOk
      cases hOk
  | true =>
      rcases companionOpened_orphaned h with ⟨text, hOpened⟩
      rw [hOpened]
      have hClose :=
        recedes_close
          ((({ s with
            registry := (s.registry.finishOpen q).1 } :
              Session Desk).info text).dropModel q.companion)
          q.companion
      refine ⟨hClose.painted, ?_, ?_⟩
      · exact hClose.models _ (Table.get?_erase_self _ _)
      · intro _ hCopies
        exact isOpen_close_eq_false hCopies

/- A companion appears once, and nothing is painted. -/
theorem painted_placeOpened
    (s : Session Desk)
    (c : String)
    (lines : Option Int) :
    (s.placeOpened c lines).host.painted = s.host.painted := by
  rcases s.placeOpened_cases c lines with
    ⟨counts, region, hPlace | hPlace⟩
  · rw [hPlace]
    exact Desk.painted_onShelf _ _ _
  · rw [hPlace]
    exact (recedes_reconcile _).painted.trans
      (Desk.painted_onShelf _ _ _)

theorem copies_placeOpened_le
    {c : String}
    (h : s.host.copies c ≤ 1)
    (lines : Option Int) :
    (s.placeOpened c lines).host.copies c ≤ 1 := by
  unfold placeOpened
  extract_lets d
  have hCopies : d.copies c ≤ 1 := by
    cases lines with
    | none => exact h
    | some _ => exact h
  clear_value d
  split
  next region hRegion =>
    rw [← Desk.copies_add_of_regionOf hRegion true] at hCopies
    exact hCopies
  next hRegion =>
    have hNone : d.copies c = 0 := by
      apply Nat.eq_zero_of_not_pos
      rw [← Desk.isOpen_iff_copies]
      simp [Host.isOpen, hRegion]
    split
    · refine Nat.le_trans ((recedes_reconcile _).copies c) ?_
      exact Nat.le_of_eq (Desk.copies_add hNone _ _)
    · exact Nat.le_of_eq (Desk.copies_add hNone _ _)

/- Nobody waits for what completes for such a primary. -/
theorem cleansUp_complete
    {i : Nat}
    {q : PendingOpen}
    (hIndex : s.host.opens[i]? = some q)
    (h : s.registry.Unattended q.primary)
    (ok : Bool)
    (lines : Option Int) :
    s.CleansUp q ok (s.step (.complete i ok lines)) := by
  have hLate :=
    h.of_loses (s.loses_delivered i q ok lines)
  have hOrphan : ¬ (s.delivered i q ok lines).Joins q ok :=
    fun hJoins => hLate.not_awaits hJoins.2.1
  have hClean := cleansUp_companionOpened hOrphan
  rw [← complete_eq hIndex ok lines] at hClean
  refine ⟨hClean.painted.trans ?_, hClean.model, ?_⟩
  · unfold delivered
    split
    · exact painted_placeOpened (s.withoutOpening i) _ lines
    · rfl
  · intro hOk hCopies
    subst hOk
    exact hClean.closed rfl
      (copies_placeOpened_le (s := s.withoutOpening i) hCopies
        lines)

/-
  Once a primary was closed or everything was torn down, and
  until the primary asks again, it has no pair after any
  events.  Each of its openings that completes in between
  leaves nothing behind, and the reports of the editor let
  nothing be painted.
-/
theorem orphans_are_cleaned_up
    {s : Session Desk}
    (hReachable : s.Reachable)
    {p : String}
    {e : Event}
    (hDismissed : e.dismisses p = true)
    {events : List Event}
    (hSilent :
      ∀ pair ∈ (s.step e).asked events, pair.primary ≠ p)
    (k : Nat) :
    let t := (s.step e).run (events.take k)
    t.registry.pairForPrimary p = none ∧
      t.registry.pendingFor p = none ∧
      (∀ i ok lines q,
        events[k]? = some (.complete i ok lines) →
        t.host.opens[i]? = some q → q.primary = p →
          t.CleansUp q ok
            ((s.step e).run (events.take (k + 1)))) ∧
      (∀ f, events[k]? = some f → f.isReport = true →
        ((s.step e).run (events.take (k + 1))).paints =
          t.paints) := by
  rcases hReachable with ⟨paletteSize, desk, before, rfl⟩
  have hFiled := filed_run paletteSize desk before
  have hUnattended :=
    unattended_run (filed_step hFiled e)
      (unattended_of_dismisses hFiled hDismissed) hSilent k
  refine ⟨hUnattended.pair, hUnattended.pending, ?_, ?_⟩
  · intro i ok lines q hEvent hIndex hPrimary
    subst hPrimary
    rw [run_take_succ _ hEvent]
    exact cleansUp_complete hIndex hUnattended ok lines
  · intro f hEvent hReport
    rw [run_take_succ _ hEvent]
    exact paints_of_isReport _ hReport

/-
  A page asked for one stylesheet and then for another, and
  was closed before any of them was open.
-/
def abandoned : Session Desk :=
  (Session.new 8 (Desk.new true)).run
    [.place "file:///index.html" .primary true,
      .request "file:///a.css" "file:///index.html",
      .request "file:///b.css" "file:///index.html",
      .takeOut "file:///index.html"]

/- The newer stylesheet appears first, and the page reopens. -/
def lateArrivals : List Event :=
  [.complete 1 true (some 3),
    .place "file:///index.html" .primary true,
    .activeViewChanged "file:///index.html",
    .complete 0 true none]

/- Both stylesheets are closed when they appear. -/
theorem lateArrivals_cleaned_up :
    abandoned.host.opens =
        [⟨"file:///index.html", "file:///a.css", 1⟩,
          ⟨"file:///index.html", "file:///b.css", 2⟩] ∧
      ((abandoned.step (.documentClosed "file:///index.html")
        ).run []).CleansUp
          ⟨"file:///index.html", "file:///b.css", 2⟩ true
          ((abandoned.step
            (.documentClosed "file:///index.html")).run
              (lateArrivals.take 1)) ∧
      ((abandoned.step (.documentClosed "file:///index.html")
        ).run (lateArrivals.take 3)).CleansUp
          ⟨"file:///index.html", "file:///a.css", 1⟩ true
          ((abandoned.step
            (.documentClosed "file:///index.html")).run
              lateArrivals) := by
  have hSilent :
      ∀ pair ∈
        (abandoned.step
          (.documentClosed "file:///index.html")).asked
            lateArrivals,
        pair.primary ≠ "file:///index.html" := by
    intro pair hPair
    cases hPair
  have hClean :=
    orphans_are_cleaned_up ⟨_, _, _, rfl⟩ rfl hSilent
  refine ⟨rfl, ?_, ?_⟩
  · exact (hClean 0).2.2.1 1 true (some 3) _ rfl rfl rfl
  · exact (hClean 3).2.2.1 0 true none _ rfl rfl rfl

end Session

end Pairing

end StyleCompanion
