import StyleCompanion.Proofs.Pairing.Accounts
import StyleCompanion.Proofs.Pairing.Untouched

/-
  Primaries beside each other.

  While every companion is asked for by one primary and is no
  primary itself, what is done for one primary leaves the
  others alone: their pairs, their openings, and the models,
  the views and the places of their companions.

  Every event reconciles all pairs, and a closing follows the
  chain of pairs.  Both stop short of a pair whose companion
  is present, as long as the event is about other documents.

  Main declarations:
    * `Session.Joined`
    * `Session.Joined.closeWithin`
    * `Session.Joined.showFor`
    * `Session.Joined.companionOpened`
    * `Session.ActsFor`
    * `Session.Joined.step`
    * `Session.others_leave_pair_alone`
-/

namespace StyleCompanion

namespace Pairing

open Attribution

namespace Session

----
-- Closings beside a pair
----

/-
  A primary is paired with a companion that is present, and
  all pairs and openings were asked for.
-/
structure Joined
    (asked : List DocumentPair)
    (q d : String)
    (s : Session Desk) : Prop where
  dedicated : Dedicated asked
  enrolled : Enrolled asked s.registry
  pair : s.registry.pairForPrimary q = some ⟨q, d⟩
  present : d ∈ s.host.secondary.documents

namespace Joined

variable {asked : List DocumentPair} {q d : String}
variable {s t : Session Desk}

/- The pair itself was asked for. -/
theorem mem_asked
    (h : Joined asked q d s) :
    ⟨q, d⟩ ∈ asked :=
  h.enrolled.pairs _
    (PairRegistry.mem_pairList_of_pairForPrimary h.pair)

/- The companions of other primaries are other documents. -/
theorem companion_ne
    (h : Joined asked q d s)
    {p c : String}
    (hAsked : ⟨p, c⟩ ∈ asked)
    (hOther : p ≠ q) :
    c ≠ q ∧ d ≠ c := by
  constructor
  · exact h.dedicated.apart _ hAsked _ h.mem_asked
  · intro hEq
    exact hOther
      (h.dedicated.one _ hAsked _ h.mem_asked hEq.symm)

/- A registered pair with another companion is another's. -/
theorem primary_ne
    (h : Joined asked q d s)
    {pair : DocumentPair}
    (hMem : pair ∈ s.registry.pairList)
    (hOther : d ≠ pair.companion) :
    pair.primary ≠ q := by
  intro hEq
  have hFound := h.enrolled.filed.pairForPrimary hMem
  rw [hEq, h.pair] at hFound
  apply hOther
  rw [← Option.some.inj hFound]

/- Losses elsewhere leave the pair joined. -/
theorem loses
    (h : Joined asked q d s)
    (hUntouched : s.Untouched q d t)
    (hLost : s.registry.Loses t.registry) :
    Joined asked q d t where
  dedicated := h.dedicated
  enrolled := h.enrolled.loses hLost
  pair := hUntouched.pair.trans h.pair
  present := hUntouched.present h.present

/- A companion that is present has not vanished. -/
theorem reconcile
    (h : Joined asked q d s) :
    s.Untouched q d s.reconcile := by
  -- The pairs in the list are those of the first session.
  have hFold :
      ∀ (pairs : List DocumentPair) (t : Session Desk),
        (∀ pair ∈ pairs,
          pair.companion ∉ s.host.secondary.documents →
            pair.primary ≠ q) →
          t.Untouched q d
            (pairs.foldl
              (unpairVanished s.host.secondary.documents)
              t) := by
    intro pairs
    induction pairs with
    | nil =>
        intro t _
        exact t.untouched_refl
    | cons pair pairs ih =>
        intro t hOthers
        rw [List.forall_mem_cons] at hOthers
        refine Untouched.trans ?_ (ih _ hOthers.2)
        unfold unpairVanished
        split
        next => exact t.untouched_refl
        next hGone =>
          have hCompanion : d ≠ pair.companion := by
            intro hEq
            rw [← hEq] at hGone
            exact hGone h.present
          exact (t.untouched_log _).trans
            (untouched_dropPair _ (hOthers.1 hGone)
              hCompanion)
  apply hFold
  intro pair hPair hGone
  apply h.primary_ne hPair
  intro hEq
  rw [← hEq] at hGone
  exact hGone h.present

theorem activeViewChanged
    (h : Joined asked q d s)
    (uri : String) :
    s.Untouched q d (s.activeViewChanged uri) := by
  unfold Session.activeViewChanged
  dsimp only
  split
  · unfold primaryFocused
    split
    · exact h.reconcile
    · exact h.reconcile.trans (untouched_reveal _ _ _)
  · split
    · unfold companionFocused
      split
      · exact h.reconcile
      · exact h.reconcile.trans (untouched_reveal _ _ _)
    · exact h.reconcile

theorem companionClosed
    (h : Joined asked q d s)
    {uri : String}
    (hCompanion : d ≠ uri) :
    s.Untouched q d (s.companionClosed uri) := by
  unfold Session.companionClosed
  split
  next => exact s.untouched_log _
  next pair hFound =>
    have hMem :=
      PairRegistry.mem_pairList_of_pairForCompanion hFound
    rw [← PairRegistry.companion_of_pairForCompanion hFound]
      at hCompanion
    exact s.untouched_dropPair
      (h.primary_ne hMem hCompanion) hCompanion

/- Another primary lets go of a companion of its own. -/
theorem releasePrimary
    (h : Joined asked q d s)
    {uri : String}
    (hPrimary : uri ≠ q) :
    s.Untouched q d (s.releasePrimary uri).1 ∧
      ∀ c ∈ (s.releasePrimary uri).2, c ≠ q ∧ d ≠ c := by
  rcases s.releasePrimary_eq uri with ⟨records, hRelease⟩
  have hReleased :
      s.Untouched q d
        ((s.withoutPending uri).withRecords records) :=
    (s.untouched_withoutPending hPrimary).trans
      ⟨rfl, rfl, rfl, rfl, rfl, rfl,
        Desk.paintsElsewhere_of_eq rfl⟩
  rw [hRelease]
  cases hPair : s.registry.pairForPrimary uri with
  | none =>
      refine ⟨hReleased, ?_⟩
      intro c hc
      cases hc
  | some pair =>
      have hMine := h.enrolled.filed.primary_eq hPair
      have hAsked := h.enrolled.pairs pair
        (PairRegistry.mem_pairList_of_pairForPrimary hPair)
      rw [← hMine] at hPrimary
      have hOther := h.companion_ne hAsked hPrimary
      refine ⟨hReleased.trans
        (untouched_dropPair _ hPrimary hOther.2), ?_⟩
      intro c hc
      rw [← Option.some.inj hc]
      exact hOther

theorem releaseClosed
    (h : Joined asked q d s)
    {uri : String}
    (hPrimary : uri ≠ q)
    (hCompanion : d ≠ uri) :
    s.Untouched q d (s.releaseClosed uri).1 ∧
      ∀ c ∈ (s.releaseClosed uri).2, c ≠ q ∧ d ≠ c := by
  unfold Session.releaseClosed
  split
  · exact h.releasePrimary hPrimary
  · split
    · refine ⟨h.companionClosed hCompanion, ?_⟩
      intro c hc
      cases hc
    · refine ⟨s.untouched_log _, ?_⟩
      intro c hc
      cases hc

/-
  The chain of closings that begins elsewhere stays elsewhere:
  each companion it reaches is that of another primary.
-/
theorem closeWithin
    (h : Joined asked q d s)
    (fuel : Nat)
    {uri : String}
    (hPrimary : uri ≠ q)
    (hCompanion : d ≠ uri) :
    s.Untouched q d (Session.closeWithin fuel s uri) := by
  induction fuel generalizing s uri with
  | zero => exact s.untouched_refl
  | succ n ih =>
      have hShut : s.Untouched q d (s.shut uri) :=
        s.untouched_shut hCompanion
      have hStill := h.loses hShut (.refl _)
      rcases hStill.releaseClosed hPrimary hCompanion with
        ⟨hReleased, hNext⟩
      rw [closeWithin_succ]
      split
      · split
        · exact hShut.trans hReleased
        next c hc =>
          rcases hNext c hc with ⟨hOther, hElsewhere⟩
          refine (hShut.trans hReleased).trans
            (ih ?_ hOther hElsewhere)
          exact hStill.loses hReleased
            (loses_releaseClosed _ uri)
      · exact hShut

theorem close
    (h : Joined asked q d s)
    {uri : String}
    (hPrimary : uri ≠ q)
    (hCompanion : d ≠ uri) :
    s.Untouched q d (s.close uri) :=
  h.closeWithin _ hPrimary hCompanion

/- What a primary has let go is closed. -/
theorem closeReleased
    {r : Session Desk × Option String}
    (h : Joined asked q d s)
    (hUntouched : s.Untouched q d r.1)
    (hLost : s.registry.Loses r.1.registry)
    (hOther : ∀ c ∈ r.2, c ≠ q ∧ d ≠ c) :
    s.Untouched q d (Session.closeReleased r) := by
  unfold Session.closeReleased
  split
  · exact hUntouched
  next c hc =>
    rcases hOther c hc with ⟨hPrimary, hCompanion⟩
    exact hUntouched.trans
      ((h.loses hUntouched hLost).close hPrimary hCompanion)

----
-- Requests beside a pair
----

/- Another primary waits for a companion of its own. -/
theorem openCompanion
    (h : Joined asked q d s)
    {p : String}
    (hOther : p ≠ q)
    (c : String) :
    s.Untouched q d (s.openCompanion p c) := by
  have hBegin :
      ∀ t : Session Desk,
        t.registry.pendingFor p = none →
          t.Untouched q d (t.beginOpening p c) := by
    intro t hIdle
    unfold beginOpening
    rw [PairRegistry.beginOpen_eq hIdle]
    exact ⟨rfl,
      (Table.get?_insert _ p q _).trans (if_neg hOther),
      rfl, rfl, rfl, rfl, Desk.paintsElsewhere_of_eq rfl⟩
  unfold Session.openCompanion
  split
  next hIdle => exact hBegin s hIdle
  next o hPending =>
    split
    next => exact s.untouched_log _
    next =>
      have hAsked := h.enrolled.pending o
        (PairRegistry.mem_pendingList_of_pendingFor hPending)
      have hMine : o.primary = p :=
        h.enrolled.filed.pending _ (Table.mem_of_get? hPending)
      rw [← hMine] at hOther
      have hElsewhere := (h.companion_ne hAsked hOther).2
      rw [hMine] at hOther
      have hSuperseded :
          s.Untouched q d (s.supersede p c o) := by
        change s.Untouched q d
          (((s.info _).withoutPending p).dropModel o.companion)
        refine Untouched.trans ?_
          (untouched_dropModel _ hElsewhere)
        exact (s.untouched_log _).trans
          (untouched_withoutPending _ hOther)
      exact hSuperseded.trans
        (hBegin _ (Table.get?_erase_self _ p))

theorem showUnpaired
    (h : Joined asked q d s)
    {p c : String}
    (hAsked : ⟨p, c⟩ ∈ asked)
    (hOther : p ≠ q)
    (m : Model) :
    s.Untouched q d (s.showUnpaired p c m).1 := by
  have hElsewhere := (h.companion_ne hAsked hOther).2
  unfold Session.showUnpaired
  split
  next shared hShared =>
    have hCompanion :=
      PairRegistry.companion_of_pairForCompanion hShared
    have hFormer : shared.primary ≠ q := by
      apply h.primary_ne
      · exact PairRegistry.mem_pairList_of_pairForCompanion
          hShared
      · rw [hCompanion]
        exact hElsewhere
    have hMoved : s.Untouched q d (s.takeOver p shared) := by
      refine Untouched.trans ?_
        (untouched_reveal
          { s.info _ with
            registry :=
              (s.registry.remove shared.primary).register p
                shared.companion } _ _)
      refine ⟨?_, rfl, rfl, rfl, rfl, rfl,
        Desk.paintsElsewhere_of_eq rfl⟩
      refine (Table.get?_insert _ p q _).trans ?_
      rw [if_neg hOther]
      exact (Table.get?_erase _ shared.primary q).trans
        (if_neg hFormer)
    exact hMoved.trans
      (untouched_refreshAndRender _ hElsewhere m)
  next => exact h.openCompanion hOther c

/- Another primary is parted from its companion. -/
theorem replacePair
    (h : Joined asked q d s)
    {pair : DocumentPair}
    (hMem : pair ∈ s.registry.pairList)
    (hFormer : pair.primary ≠ q)
    (c : String) :
    s.Untouched q d (s.replacePair pair c) := by
  have hParted := h.companion_ne
    (h.enrolled.pairs pair hMem) hFormer
  have hDropped :
      s.Untouched q d
        ((s.info
          ("Companion for " ++ pair.primary ++
            " changed from " ++ pair.companion ++ " to " ++
            c)).dropPair pair) :=
    (s.untouched_log _).trans
      (untouched_dropPair _ hFormer hParted.2)
  have hLeft := h.loses hDropped
    (s.registry.loses_remove pair.primary)
  exact hDropped.trans (hLeft.close hParted.1 hParted.2)

/- A request of another primary. -/
theorem showFor
    (h : Joined asked q d s)
    {p c : String}
    (hAsked : ⟨p, c⟩ ∈ asked)
    (hOther : p ≠ q)
    (m : Model) :
    s.Untouched q d (s.showFor p c m).1 := by
  have hElsewhere := (h.companion_ne hAsked hOther).2
  have hKept :
      s.Untouched q d (s.reconcile.keepModel c m) :=
    h.reconcile.trans (untouched_keepModel _ hElsewhere m)
  have hJoined := h.loses hKept s.loses_reconcile
  unfold Session.showFor
  dsimp only
  split
  next => exact hKept.trans (hJoined.showUnpaired hAsked hOther m)
  next pair hPair =>
    split
    next =>
      exact hKept.trans
        (untouched_refreshAndRender _ hElsewhere m)
    next =>
      have hFormer : pair.primary ≠ q := by
        rw [hJoined.enrolled.filed.primary_eq hPair]
        exact hOther
      have hReplaced := hJoined.replacePair
        (PairRegistry.mem_pairList_of_pairForPrimary hPair)
        hFormer c
      have hLeft := hJoined.loses hReplaced
        (loses_replacePair _ pair c)
      exact (hKept.trans hReplaced).trans
        (hLeft.showUnpaired hAsked hOther m)

----
-- Completions beside a pair
----

/- Another companion appears on the desk. -/
theorem delivered
    (h : Joined asked q d s)
    {o : PendingOpen}
    (hElsewhere : d ≠ o.companion)
    (i : Nat)
    (ok : Bool)
    (lines : Option Int) :
    s.Untouched q d (s.delivered i o ok lines) := by
  have hTaken : s.Untouched q d (s.withoutOpening i) :=
    ⟨rfl, rfl, rfl, rfl, rfl, rfl,
      Desk.paintsElsewhere_of_eq rfl⟩
  have hPlaced :
      ∀ (counts : Table String Int) (region : Region),
        s.Untouched q d
          ((s.withoutOpening i).onDesk fun desk =>
            { desk with counts := counts }.add o.companion
              region true) := by
    intro counts region
    have hSame := Desk.sameBut_add
      { (s.withoutOpening i).host with counts := counts }
      o.companion region true
    exact {
      pair := rfl
      pending := rfl
      model := rfl
      view := rfl
      primary := hSame.primary d hElsewhere
      secondary := hSame.secondary d hElsewhere
      painted := Desk.paintsElsewhere_of_eq
        (Desk.painted_onShelf _ region _) }
  unfold Session.delivered
  split
  · rcases (s.withoutOpening i).placeOpened_cases o.companion
        lines with ⟨counts, region, hPlace | hPlace⟩
    · rw [hPlace]
      exact hPlaced counts region
    · rw [hPlace]
      exact (hPlaced counts region).trans
        (h.loses (hPlaced counts region) (.refl _)).reconcile
  · exact hTaken

/- An opening of another primary completes. -/
theorem companionOpened
    (h : Joined asked q d s)
    {o : PendingOpen}
    (hAsked : ⟨o.primary, o.companion⟩ ∈ asked)
    (hOther : o.primary ≠ q)
    (ok : Bool) :
    s.Untouched q d (s.companionOpened o ok) := by
  have hElsewhere := h.companion_ne hAsked hOther
  have hFinish :
      s.Untouched q d
        { s with registry := (s.registry.finishOpen o).1 } := by
    by_cases hAwaits : s.registry.Awaits o
    · rw [PairRegistry.finishOpen_eq hAwaits]
      exact s.untouched_withoutPending hOther
    · rw [PairRegistry.finishOpen_eq_self hAwaits]
      exact s.untouched_refl
  by_cases hJoins : s.Joins o ok
  · rcases hJoins with ⟨rfl, hAwaits, hOpen⟩
    have hEnd := PairRegistry.finishOpen_eq hAwaits
    rw [companionOpened_awaited hEnd hOpen]
    rw [hEnd] at hFinish
    have hRegistered :=
      hFinish.trans
        (untouched_register _ hOther o.companion)
    cases Table.get? s.models o.companion with
    | none => exact hRegistered
    | some m =>
        exact hRegistered.trans
          (untouched_render _ hElsewhere.2 m)
  · cases ok with
    | false =>
        exact (hFinish.trans (untouched_log _ _)).trans
          (untouched_dropModel _ hElsewhere.2)
    | true =>
        rcases companionOpened_orphaned hJoins with
          ⟨text, hOpened⟩
        rw [hOpened]
        have hDropped :=
          (hFinish.trans (untouched_log _ (.info text))).trans
            (untouched_dropModel _ hElsewhere.2)
        exact hDropped.trans
          ((h.loses hDropped
            (s.registry.loses_finishOpen o)).close
              hElsewhere.1 hElsewhere.2)

end Joined

----
-- Steps of one primary
----

/- A primary, or a companion that it asks for. -/
def Belongs
    (asked : List DocumentPair)
    (p uri : String) : Prop :=
  uri = p ∨ ⟨p, uri⟩ ∈ asked

instance
    (asked : List DocumentPair)
    (p uri : String) :
    Decidable (Belongs asked p uri) :=
  inferInstanceAs (Decidable (_ ∨ _))

/-
  An event is the business of a primary: it is about the
  primary or one of its companions, is a request of the
  primary, or completes an opening of the primary.  Whatever
  only lets the pairing look at the desk is anybody's.
-/
def ActsFor
    (asked : List DocumentPair)
    (p : String)
    (s : Session Desk)
    (e : Event) : Prop :=
  match e with
  | .place uri _ _ => Belongs asked p uri
  | .takeOut uri => Belongs asked p uri
  | .close uri => Belongs asked p uri
  | .prepareReload uri _ => Belongs asked p uri
  | .setCount uri _ => Belongs asked p uri
  | .complete i _ _ => ∀ o ∈ s.host.opens[i]?, o.primary = p
  | .showCompanion _ _ _ => ∀ pair ∈ s.asks e, pair.primary = p
  | .documentOpened => True
  | .activeViewChanged uri => Belongs asked p uri
  | .documentClosed uri => Belongs asked p uri
  | .companionEdited uri => Belongs asked p uri
  | .primaryClosed uri => Belongs asked p uri
  | .companionClosed uri => Belongs asked p uri
  | .reconcile => True
  | .teardown => False
  | .setPaletteSize _ => False

instance
    (asked : List DocumentPair)
    (p : String)
    (s : Session Desk)
    (e : Event) :
    Decidable (s.ActsFor asked p e) := by
  unfold ActsFor
  split <;> infer_instance

namespace Joined

variable {asked : List DocumentPair} {p q d : String}
variable {s : Session Desk}

/- What belongs to another primary is another document. -/
theorem belongs_ne
    (h : Joined asked q d s)
    (hOther : p ≠ q)
    (hPrimary : ∀ pair ∈ asked, pair.companion ≠ p)
    {uri : String}
    (hMine : Belongs asked p uri) :
    uri ≠ q ∧ d ≠ uri := by
  rcases hMine with rfl | hAsked
  · exact ⟨hOther, hPrimary _ h.mem_asked⟩
  · exact h.companion_ne hAsked hOther

theorem step
    {e : Event}
    (h : Joined asked q d s)
    (hOpens :
      ∀ o ∈ s.host.opens, ⟨o.primary, o.companion⟩ ∈ asked)
    (hAsks : ∀ pair ∈ s.asks e, pair ∈ asked)
    (hOther : p ≠ q)
    (hPrimary : ∀ pair ∈ asked, pair.companion ≠ p)
    (hActs : s.ActsFor asked p e) :
    s.Untouched q d (s.step e) := by
  have hElsewhere : ∀ uri, Belongs asked p uri →
      uri ≠ q ∧ d ≠ uri :=
    fun _ => h.belongs_ne hOther hPrimary
  cases e with
  | place uri region active =>
      exact .of_desk (s.host.sameBut_add uri region active)
        (hElsewhere uri hActs).2
        (Desk.painted_onShelf _ region _)
  | takeOut uri =>
      exact .of_desk (s.host.sameBut_takeOut uri)
        (hElsewhere uri hActs).2
        (s.host.painted_takeOut uri)
  | close uri =>
      rcases hElsewhere uri hActs with ⟨hFirst, hSecond⟩
      exact h.close hFirst hSecond
  | prepareReload uri count =>
      exact ⟨rfl, rfl, rfl, rfl, rfl, rfl,
        Desk.paintsElsewhere_of_eq rfl⟩
  | setCount uri count =>
      exact .of_desk (s.host.sameBut_setCount uri count)
        (hElsewhere uri hActs).2 rfl
  | complete i ok lines =>
      change s.Untouched q d (s.complete i ok lines).1
      cases hIndex : s.host.opens[i]? with
      | none =>
          simp only [complete, hIndex]
          exact s.untouched_refl
      | some o =>
          have hAsked := hOpens o (List.mem_of_getElem? hIndex)
          have hTheirs : o.primary ≠ q := by
            rw [hActs o hIndex]
            exact hOther
          have hDelivered := h.delivered
            (h.companion_ne hAsked hTheirs).2 i ok lines
          have hStill := h.loses hDelivered
            (s.loses_delivered i o ok lines)
          rw [complete_eq hIndex]
          exact hDelivered.trans
            (hStill.companionOpened hAsked hTheirs ok)
  | showCompanion uri m given =>
      cases hPair : s.asks (.showCompanion uri m given) with
      | none =>
          rcases step_of_asks_eq_none hPair with ⟨text, hStep⟩
          rw [hStep]
          exact s.untouched_log _
      | some pair =>
          have hTheirs : pair.primary ≠ q := by
            rw [hActs pair hPair]
            exact hOther
          rcases step_of_asks hPair with ⟨m', hStep⟩
          rw [hStep]
          exact h.showFor (hAsks pair hPair) hTheirs m'
  | documentOpened => exact h.reconcile
  | activeViewChanged uri => exact h.activeViewChanged uri
  | documentClosed uri =>
      rcases hElsewhere uri hActs with ⟨hFirst, hSecond⟩
      rcases h.releaseClosed hFirst hSecond with
        ⟨hReleased, hNext⟩
      exact h.closeReleased hReleased
        (s.loses_releaseClosed uri) hNext
  | companionEdited uri =>
      exact s.untouched_companionEdited
        (hElsewhere uri hActs).2
  | primaryClosed uri =>
      rcases h.releasePrimary (hElsewhere uri hActs).1 with
        ⟨hReleased, hNext⟩
      exact h.closeReleased hReleased
        (s.loses_releasePrimary uri) hNext
  | companionClosed uri =>
      exact h.companionClosed (hElsewhere uri hActs).2
  | reconcile => exact h.reconcile
  | teardown => cases hActs
  | setPaletteSize size => cases hActs

/- All that one primary does leaves the pair alone. -/
theorem run
    {events : List Event}
    (h : Joined asked q d s)
    (hAccounted : Accounted asked s)
    (hAsked : ∀ pair ∈ s.asked events, pair ∈ asked)
    (hOther : p ≠ q)
    (hPrimary : ∀ pair ∈ asked, pair.companion ≠ p)
    (hSteps :
      ∀ k e, events[k]? = some e →
        (s.run (events.take k)).ActsFor asked p e) :
    s.Untouched q d (s.run events) := by
  induction events generalizing s with
  | nil => exact s.untouched_refl
  | cons e events ih =>
      have hAsks : ∀ pair ∈ s.asks e, pair ∈ asked := by
        intro pair hPair
        apply hAsked
        exact List.mem_append_left _
          (Option.mem_toList.mpr hPair)
      have hNext := hAccounted.step hAsks
      have hStep := h.step hAccounted.opens hAsks hOther
        hPrimary (hSteps 0 e rfl)
      refine hStep.trans (ih ?_ hNext ?_ ?_)
      · exact ⟨h.dedicated, hNext.enrolled,
          hStep.pair.trans h.pair, hStep.present h.present⟩
      · intro pair hPair
        exact hAsked pair (List.mem_append_right _ hPair)
      · intro k e' he'
        exact hSteps (k + 1) e' he'

end Joined

/-
  In a run in which every companion is asked for by one
  primary and is none itself, whatever another primary does
  once a primary is paired with a companion that is present
  leaves the two alone, and the companion open.
-/
theorem others_leave_pair_alone
    (paletteSize : Nat)
    {desk : Desk}
    {history events : List Event}
    {p q d : String}
    {asked : List DocumentPair}
    {s : Session Desk}
    (hIdle : desk.opens = [])
    (hAsked :
      asked =
        (Session.new paletteSize desk).asked
          (history ++ events))
    (hReached :
      s = (Session.new paletteSize desk).run history)
    (hDedicated : Dedicated asked)
    (hPair : s.registry.pairForPrimary q = some ⟨q, d⟩)
    (hPresent : d ∈ s.host.secondary.documents)
    (hOther : p ≠ q)
    (hPrimary : ∀ pair ∈ asked, pair.companion ≠ p)
    (hSteps :
      ∀ k e, events[k]? = some e →
        (s.run (events.take k)).ActsFor asked p e) :
    s.Untouched q d (s.run events) ∧
      Host.isOpen (s.run events).host d = true := by
  have hSplit := asked_append
    (Session.new paletteSize desk) history events
  rw [← hAsked, ← hReached] at hSplit
  have hAccounted : Accounted asked s := by
    rw [hReached]
    apply (accounted_new asked paletteSize hIdle).run
    intro pair hMem
    rw [hSplit]
    exact List.mem_append_left _ hMem
  have hJoined : Joined asked q d s :=
    ⟨hDedicated, hAccounted.enrolled, hPair, hPresent⟩
  have hUntouched : s.Untouched q d (s.run events) := by
    apply hJoined.run hAccounted _ hOther hPrimary hSteps
    intro pair hMem
    rw [hSplit]
    exact List.mem_append_right _ hMem
  refine ⟨hUntouched, ?_⟩
  rw [Desk.isOpen_iff]
  exact Or.inr (hUntouched.present hPresent)

/- A page that has got its stylesheet, beside another page. -/
def pairedPage : List Event :=
  [.place "file:///index.html" .primary true,
    .place "file:///about.html" .primary true,
    .request "file:///a.css" "file:///index.html",
    .complete 0 true (some 1)]

/-
  The other page gets a stylesheet, has the focus, changes to
  another one that cannot be opened, and is closed.
-/
def busyNeighbor : List Event :=
  [.request "file:///b.css" "file:///about.html",
    .complete 0 true (some 2),
    .activeViewChanged "file:///about.html",
    .companionEdited "file:///b.css",
    .request "file:///c.css" "file:///about.html",
    .complete 0 false none,
    .request "file:///b.css" "file:///about.html",
    .complete 0 true (some 2),
    .close "file:///about.html"]

theorem pairedPage_untouched :
    ((Session.new 8 (Desk.new true)).run
        pairedPage).engine.hasRender "file:///a.css" = true ∧
      ((Session.new 8 (Desk.new true)).run
        pairedPage).Untouched "file:///index.html"
          "file:///a.css"
          (((Session.new 8 (Desk.new true)).run
            pairedPage).run busyNeighbor) ∧
      Host.isOpen
        (((Session.new 8 (Desk.new true)).run
          pairedPage).run busyNeighbor).host
        "file:///a.css" = true := by
  refine ⟨rfl, ?_⟩
  apply others_leave_pair_alone 8 (p := "file:///about.html")
    rfl rfl rfl
  · decide
  · rfl
  · decide
  · decide
  · decide
  · intro k e he
    have hk : k < busyNeighbor.length :=
      (List.getElem?_eq_some_iff.mp he).1
    have hAll :
        ∀ k < busyNeighbor.length,
          ∀ e ∈ busyNeighbor[k]?,
            (((Session.new 8 (Desk.new true)).run
              pairedPage).run
                (busyNeighbor.take k)).ActsFor
              ((Session.new 8 (Desk.new true)).asked
                (pairedPage ++ busyNeighbor))
              "file:///about.html" e := by
      decide
    exact hAll k hk e he

end Session

end Pairing

end StyleCompanion
