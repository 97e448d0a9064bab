import Mathlib.Data.List.Nodup
import StyleCompanion.Proofs.Pairing.Effects

/-
  A primary that has the pairing to itself.

  While all requests are for one primary, that primary is
  unpaired, waits for one opening, or has one companion.  The
  openings that were given up may still complete.  None of
  their documents stays on the desk.

  Main declarations:
    * `Session.Stage`
    * `Session.Alone`
    * `Session.Alone.showFor`
    * `Session.Alone.complete_awaited`
    * `Session.Alone.complete_abandoned`
-/

namespace StyleCompanion

namespace Pairing

namespace Session

open Attribution

----
-- The invariant
----

/- Where a primary stands. -/
inductive Stage where
  | unpaired
  | opening (q : PendingOpen)
  | paired (companion : String)

namespace Stage

/- The pairs when a primary is alone. -/
def pairs
    (p : String) : Stage → Table String DocumentPair
  | .paired c => [(p, ⟨p, c⟩)]
  | _ => []

/- The openings under way when a primary is alone. -/
def pending
    (p : String) : Stage → Table String PendingOpen
  | .opening q => [(p, q)]
  | _ => []

/- The pairs and openings of a primary that is alone. -/
structure Describes
    (p : String)
    (stage : Stage)
    (r : PairRegistry) : Prop where
  pairs : r.pairs = stage.pairs p
  pending : r.pending = stage.pending p

namespace Describes

variable {p : String} {stage : Stage} {r : PairRegistry}

theorem pairForPrimary_eq_none
    (h : stage.Describes p r)
    {v : String}
    (hv : v ≠ p) :
    r.pairForPrimary v = none := by
  rw [PairRegistry.pairForPrimary, h.pairs]
  cases stage <;> simp [Stage.pairs, Table.get?, Ne.symm hv]

theorem pendingFor_eq_none
    (h : stage.Describes p r)
    {v : String}
    (hv : v ≠ p) :
    r.pendingFor v = none := by
  rw [PairRegistry.pendingFor, h.pending]
  cases stage <;>
    simp [Stage.pending, Table.get?, Ne.symm hv]

theorem pairForPrimary_iff
    (h : stage.Describes p r)
    (pair : DocumentPair) :
    r.pairForPrimary p = some pair ↔
      ∃ c, stage = .paired c ∧ pair = ⟨p, c⟩ := by
  rw [PairRegistry.pairForPrimary, h.pairs]
  cases stage <;>
    simp [Stage.pairs, Table.get?, eq_comm]

theorem pendingFor_iff
    (h : stage.Describes p r)
    (q : PendingOpen) :
    r.pendingFor p = some q ↔ stage = .opening q := by
  rw [PairRegistry.pendingFor, h.pending]
  cases stage <;> simp [Stage.pending, Table.get?]

theorem pairForCompanion_iff
    (h : stage.Describes p r)
    (u : String)
    (pair : DocumentPair) :
    r.pairForCompanion u = some pair ↔
      stage = .paired u ∧ pair = ⟨p, u⟩ := by
  rw [PairRegistry.pairForCompanion, PairRegistry.pairList,
    h.pairs]
  cases stage with
  | unpaired => simp [Stage.pairs, Table.values]
  | opening q => simp [Stage.pairs, Table.values]
  | paired c =>
      by_cases hEq : c = u
      · subst hEq
        simp [Stage.pairs, Table.values, eq_comm]
      · simp [Stage.pairs, Table.values, hEq]

/- Without its pair a primary is unpaired. -/
theorem remove
    {c : String}
    (h : (Stage.paired c).Describes p r) :
    Stage.unpaired.Describes p (r.remove p) where
  pairs := by
    rw [PairRegistry.remove, h.pairs]
    simp [Stage.pairs, Table.erase]
  pending := h.pending

end Describes

/-
  What can become of a stage when something happens to one
  document.
-/
inductive Moves
    (u : String) : Stage → Stage → Prop where
  | stay (stage : Stage) : Moves u stage stage
  | join : Moves u .unpaired (.paired u)
  | part : Moves u (.paired u) .unpaired
  | giveUp (q : PendingOpen) : Moves u (.opening q) .unpaired

namespace Moves

variable {u : String} {stage next : Stage}

theorem opening
    (h : Moves u stage next)
    (q : PendingOpen)
    (hNext : next = .opening q) :
    stage = .opening q := by
  cases h with
  | stay _ => exact hNext
  | join => cases hNext
  | part => cases hNext
  | giveUp _ => cases hNext

theorem paired_iff
    (h : Moves u stage next)
    {v : String}
    (hv : v ≠ u) :
    next = .paired v ↔ stage = .paired v := by
  cases h with
  | stay _ => exact Iff.rfl
  | join => simp [Ne.symm hv]
  | part => simp [Ne.symm hv]
  | giveUp _ => simp

end Moves

end Stage

/-
  Only one primary was ever paired.  Its companions are fresh:
  none of them was open before.  Fresh documents are closed,
  except that the companion of the pair is in the secondary
  region; on a silent desk it may have been closed too.
-/
structure Alone
    (fresh : String → Prop)
    (p : String)
    (stage : Stage)
    (s : Session Desk) : Prop where
  apart : ¬ fresh p
  registry : stage.Describes p s.registry
  primary : Host.isOpen s.host p = true
  opens :
    ∀ q ∈ s.host.opens,
      q.primary = p ∧ fresh q.companion ∧
        q.token < s.registry.nextToken
  tokens : (s.host.opens.map (·.token)).Nodup
  awaited : ∀ q, stage = .opening q → q ∈ s.host.opens
  joined :
    ∀ c, stage = .paired c →
      fresh c ∧ s.host.primary.documents.count c = 0 ∧
        s.host.secondary.documents.count c ≤ 1
  reported :
    ∀ c, stage = .paired c → s.host.reporting = true →
      c ∈ s.host.secondary.documents
  rendered :
    ∀ u v, Table.get? s.engine.views u = some v →
      stage = .paired u
  closed :
    ∀ u, fresh u → stage ≠ .paired u → s.host.copies u = 0

namespace Alone

variable {fresh : String → Prop} {p : String}
variable {stage : Stage} {s : Session Desk}

theorem ne
    (h : Alone fresh p stage s)
    {u : String}
    (hu : fresh u) :
    u ≠ p := by
  intro hEq
  subst hEq
  exact h.apart hu

/- A fresh document is on the desk at most once. -/
theorem copies_le_one
    (h : Alone fresh p stage s)
    {u : String}
    (hu : fresh u) :
    s.host.copies u ≤ 1 := by
  by_cases hStage : stage = .paired u
  · rcases h.joined u hStage with ⟨-, hPrimary, hSecondary⟩
    unfold Desk.copies
    omega
  · rw [h.closed u hu hStage]
    exact Nat.zero_le 1

/- Only the companion of the pair is rendered. -/
theorem view_eq_none
    (h : Alone fresh p stage s)
    {u : String}
    (hNot : stage ≠ .paired u) :
    Table.get? s.engine.views u = none := by
  apply Option.eq_none_iff_forall_ne_some.mpr
  intro v hv
  exact hNot (h.rendered u v hv)

/- A reported companion of a pair is present. -/
theorem present
    (h : Alone fresh p stage s)
    (hReporting : s.host.reporting = true) :
    ∀ pair ∈ s.registry.pairList,
      pair.companion ∈ s.host.secondary.documents := by
  unfold PairRegistry.pairList
  rw [h.registry.pairs]
  cases hStage : stage with
  | unpaired => simp [Stage.pairs, Table.values]
  | opening q => simp [Stage.pairs, Table.values]
  | paired c =>
      have hPresent := h.reported c hStage hReporting
      simpa [Stage.pairs, Table.values] using hPresent

/-
  A step that concerns one fresh document, if it leads to the
  other stage and leaves that document as the stage asks.
-/
theorem change
    (h : Alone fresh p stage s)
    {u : String}
    {t : Session Desk}
    {next : Stage}
    (hFresh : fresh u)
    (hSame : SameBut u s t)
    (hRegistry : next.Describes p t.registry)
    (hMove : Stage.Moves u stage next)
    (hCopies :
      t.host.primary.documents.count u = 0 ∧
        t.host.secondary.documents.count u ≤ 1)
    (hReported :
      next = .paired u → t.host.reporting = true →
        u ∈ t.host.secondary.documents)
    (hRendered :
      ∀ v, Table.get? t.engine.views u = some v →
        next = .paired u)
    (hClosed : next ≠ .paired u → t.host.copies u = 0) :
    Alone fresh p next t where
  apart := h.apart
  registry := hRegistry
  primary :=
    (hSame.host.isOpen (Ne.symm (h.ne hFresh))).mpr h.primary
  opens := by
    rw [hSame.host.opens, hSame.nextToken]
    exact h.opens
  tokens := by
    rw [hSame.host.opens]
    exact h.tokens
  awaited q hq := by
    rw [hSame.host.opens]
    exact h.awaited q (hMove.opening q hq)
  joined c hc := by
    by_cases hEq : c = u
    · subst hEq
      exact ⟨hFresh, hCopies⟩
    · rw [hSame.host.primary c hEq, hSame.host.secondary c hEq]
      exact h.joined c ((hMove.paired_iff hEq).mp hc)
  reported c hc hReporting := by
    by_cases hEq : c = u
    · subst hEq
      exact hReported hc hReporting
    · rw [← List.count_pos_iff, hSame.host.secondary c hEq,
        List.count_pos_iff]
      rw [hSame.host.reporting] at hReporting
      exact h.reported c ((hMove.paired_iff hEq).mp hc) hReporting
  rendered v w hv := by
    by_cases hEq : v = u
    · subst hEq
      exact hRendered w hv
    · rw [hSame.views v hEq] at hv
      exact (hMove.paired_iff hEq).mpr (h.rendered v w hv)
  closed v hv hNot := by
    by_cases hEq : v = u
    · subst hEq
      exact hClosed hNot
    · have hOther : stage ≠ .paired v :=
        fun hc => hNot ((hMove.paired_iff hEq).mpr hc)
      have hNone := h.closed v hv hOther
      unfold Desk.copies at hNone ⊢
      rw [hSame.host.primary v hEq, hSame.host.secondary v hEq]
      exact hNone

/- A step after which a fresh document is closed. -/
theorem leave
    (h : Alone fresh p stage s)
    {u : String}
    {t : Session Desk}
    {next : Stage}
    (hFresh : fresh u)
    (hSame : SameBut u s t)
    (hRegistry : next.Describes p t.registry)
    (hMove : Stage.Moves u stage next)
    (hNext : next ≠ .paired u)
    (hCopies : t.host.copies u = 0)
    (hView : Table.get? t.engine.views u = none) :
    Alone fresh p next t := by
  apply h.change hFresh hSame hRegistry hMove
  · unfold Desk.copies at hCopies
    omega
  · intro hPaired
    exact absurd hPaired hNext
  · intro v hv
    rw [hView] at hv
    cases hv
  · intro _
    exact hCopies

/- Notes and models do not matter. -/
theorem congr
    (h : Alone fresh p stage s)
    {t : Session Desk}
    (hRegistry : t.registry = s.registry)
    (hEngine : t.engine = s.engine)
    (hHost : t.host.forgetNotes = s.host.forgetNotes) :
    Alone fresh p stage t := by
  have hPrimary := congrArg Desk.primary hHost
  have hSecondary := congrArg Desk.secondary hHost
  have hOpens := congrArg Desk.opens hHost
  have hReporting := congrArg Desk.reporting hHost
  have hIsOpen := congrArg (fun d => Host.isOpen d p) hHost
  have hCopies := Desk.copies_of_forgetNotes hHost
  simp only [Desk.forgetNotes] at hPrimary hSecondary
  simp only [Desk.forgetNotes] at hOpens hReporting
  constructor
  · exact h.apart
  · rw [hRegistry]
    exact h.registry
  · exact hIsOpen.trans h.primary
  · rw [hOpens, hRegistry]
    exact h.opens
  · rw [hOpens]
    exact h.tokens
  · rw [hOpens]
    exact h.awaited
  · rw [hPrimary, hSecondary]
    exact h.joined
  · rw [hReporting, hSecondary]
    exact h.reported
  · rw [hEngine]
    exact h.rendered
  · intro u hu hNot
    rw [hCopies u]
    exact h.closed u hu hNot

end Alone

/-
  Closing a document other than the primary keeps the stage,
  or it is reported and ends the pair of the primary.
-/
theorem close_stage
    {p u : String}
    {stage : Stage}
    {s : Session Desk}
    (h : stage.Describes p s.registry)
    (hu : u ≠ p) :
    ((s.close u).registry = s.registry ∧
        (s.close u).engine = s.engine ∧
        (s.close u).models = s.models ∧
        ((s.host.close u).reported = true →
          stage ≠ .paired u)) ∨
      (stage = .paired u ∧
        Stage.unpaired.Describes p (s.close u).registry ∧
        Table.get? (s.close u).engine.views u = none ∧
        Table.get? (s.close u).models u = none) := by
  rcases close_cases s u (h.pairForPrimary_eq_none hu)
      (h.pendingFor_eq_none hu) with
    ⟨d, -, hClose, hReported⟩ | ⟨pair, hFound, hClose⟩
  · refine Or.inl ?_
    rw [hClose]
    refine ⟨rfl, rfl, rfl, fun hTrue hPaired => ?_⟩
    have hFound := (h.pairForCompanion_iff u _).mpr
      ⟨hPaired, rfl⟩
    rw [hReported hTrue] at hFound
    cases hFound
  · rcases (h.pairForCompanion_iff u pair).mp hFound with
      ⟨hPaired, hPair⟩
    subst hPaired
    subst hPair
    refine Or.inr ⟨rfl, ?_⟩
    rw [hClose]
    refine ⟨h.remove, ?_, ?_⟩
    · exact Table.get?_erase_self _ u
    · exact Table.get?_erase_self _ u

----
-- Requests
----

/-
  A companion is being shown: it is waited for and its model
  is kept, or it is there and holds the model, if it has
  lines at all.
-/
inductive Shows
    (c : String)
    (m : Model)
    (s : Session Desk) : Stage → Prop where
  | opening
      (q : PendingOpen)
      (hCompanion : q.companion = c)
      (hModel : Table.get? s.models c = some m) :
      Shows c m s (.opening q)
  | paired
      (hPresent : c ∈ s.host.secondary.documents)
      (hModel :
        s.engine.modelFor c =
          (Host.lineCount s.host c).map fun _ => m) :
      Shows c m s (.paired c)

namespace Alone

variable {fresh : String → Prop} {p : String}
variable {stage : Stage} {s : Session Desk}

/- A step that ends with closing a fresh document. -/
theorem leave_close
    (h : Alone fresh p stage s)
    {u : String}
    {t : Session Desk}
    {next : Stage}
    (hFresh : fresh u)
    (hSame : SameBut u s t)
    (hRegistry : next.Describes p t.registry)
    (hMove : Stage.Moves u stage next)
    (hNext : next ≠ .paired u)
    (hCopies : t.host.copies u ≤ 1)
    (hView : Table.get? t.engine.views u = none) :
    Alone fresh p next (t.close u) ∧
      SameBut u s (t.close u) := by
  have hu := h.ne hFresh
  have hPair := hRegistry.pairForPrimary_eq_none hu
  have hPending := hRegistry.pendingFor_eq_none hu
  have hClose := hSame.trans (sameBut_close t u hPair hPending)
  have hNone := copies_close t u hPair hPending hCopies
  rcases close_stage hRegistry hu with
    ⟨hKept, hEngine, -, -⟩ | ⟨hPaired, -⟩
  · rw [← hKept] at hRegistry
    rw [← hEngine] at hView
    exact ⟨h.leave hFresh hClose hRegistry hMove hNext
      hNone hView, hClose⟩
  · exact absurd hPaired hNext

/- After a reconciliation the companion of a pair is there. -/
theorem reconcile
    (h : Alone fresh p stage s) :
    ∃ next,
      Alone fresh p next s.reconcile ∧
        ∀ c, next = .paired c →
          c ∈ s.reconcile.host.secondary.documents := by
  by_cases hPresent :
      ∀ pair ∈ s.registry.pairList,
        pair.companion ∈ s.host.secondary.documents
  · rw [reconcile_eq_self s hPresent]
    refine ⟨stage, h, fun c hc => ?_⟩
    apply hPresent ⟨p, c⟩
    simp [PairRegistry.pairList, h.registry.pairs, hc,
      Stage.pairs, Table.values]
  · have hList := h.registry.pairs
    cases stage with
    | unpaired =>
        simp [PairRegistry.pairList, hList, Stage.pairs,
          Table.values] at hPresent
    | opening q =>
        simp [PairRegistry.pairList, hList, Stage.pairs,
          Table.values] at hPresent
    | paired c =>
        have hGone : c ∉ s.host.secondary.documents := by
          simpa [PairRegistry.pairList, hList, Stage.pairs,
            Table.values] using hPresent
        have hReconcile :
            s.reconcile =
              unpairVanished s.host.secondary.documents s
                ⟨p, c⟩ := by
          simp only [Session.reconcile,
            PairRegistry.pairList, hList]
          rfl
        rw [hReconcile, unpairVanished, if_neg hGone]
        rcases h.joined c rfl with ⟨hFresh, hPrimary, -⟩
        refine ⟨.unpaired, ?_, fun c hc => by cases hc⟩
        apply h.leave hFresh
        · exact (sameBut_log s c _).trans
            (sameBut_dropPair _ ⟨p, c⟩)
        · exact h.registry.remove
        · exact .part
        · simp
        · change s.host.copies c = 0
          rw [Desk.copies, hPrimary,
            List.count_eq_zero.mpr hGone]
        · exact Table.get?_erase_self _ c

/- Parting a primary from its companion closes that. -/
theorem replacePair
    {a : String}
    (h : Alone fresh p (.paired a) s)
    (c : String) :
    Alone fresh p .unpaired (s.replacePair ⟨p, a⟩ c) ∧
      SameBut a s (s.replacePair ⟨p, a⟩ c) := by
  rcases h.joined a rfl with ⟨hFresh, -, -⟩
  apply h.leave_close hFresh
  · exact (sameBut_log s a _).trans
      (sameBut_dropPair _ ⟨p, a⟩)
  · exact h.registry.remove
  · exact .part
  · simp
  · exact h.copies_le_one hFresh
  · exact Table.get?_erase_self _ a

/- Giving up an opening leaves the primary unpaired. -/
theorem supersede
    {q : PendingOpen}
    (h : Alone fresh p (.opening q) s)
    (c : String) :
    Alone fresh p .unpaired (s.supersede p c q) ∧
      SameBut q.companion s (s.supersede p c q) := by
  have hFresh : fresh q.companion :=
    (h.opens q (h.awaited q rfl)).2.1
  have hSame :
      SameBut q.companion s (s.supersede p c q) :=
    ⟨(sameBut_log s q.companion _).host,
      (sameBut_dropModel s q.companion).models,
      fun _ _ => rfl, rfl⟩
  refine ⟨?_, hSame⟩
  apply h.leave hFresh hSame
  · refine ⟨h.registry.pairs, ?_⟩
    change Table.erase s.registry.pending p = []
    rw [h.registry.pending]
    simp [Stage.pending, Table.erase]
  · exact .giveUp q
  · simp
  · exact h.closed q.companion hFresh (by simp)
  · exact h.view_eq_none (by simp)

/- An unpaired primary begins to wait. -/
theorem beginOpening
    (h : Alone fresh p .unpaired s)
    {c : String}
    (hFresh : fresh c) :
    Alone fresh p (.opening ⟨p, c, s.registry.nextToken⟩)
        (s.beginOpening p c) ∧
      (s.beginOpening p c).models = s.models := by
  have hPending : s.registry.pending = [] :=
    h.registry.pending
  have hBegin :
      s.registry.beginOpen p c =
        ({ s.registry with
            pending := [(p, ⟨p, c, s.registry.nextToken⟩)]
            nextToken := s.registry.nextToken + 1 },
          some ⟨p, c, s.registry.nextToken⟩) := by
    simp [PairRegistry.beginOpen, hPending, Table.contains,
      Table.insert]
  simp only [Session.beginOpening, hBegin]
  refine ⟨?_, rfl⟩
  constructor
  · exact h.apart
  · exact ⟨h.registry.pairs, rfl⟩
  · exact h.primary
  · intro q hq
    rcases List.mem_append.mp hq with hOld | hNew
    · rcases h.opens q hOld with ⟨hPrimary, hOther, hToken⟩
      exact ⟨hPrimary, hOther, Nat.lt_succ_of_lt hToken⟩
    · rw [List.mem_singleton.mp hNew]
      exact ⟨rfl, hFresh, Nat.lt_succ_self _⟩
  · change ((s.host.opens ++ [_]).map _).Nodup
    rw [List.map_append, List.nodup_append]
    refine ⟨h.tokens, by simp, ?_⟩
    intro n hn k hk
    rcases List.mem_map.mp hn with ⟨q, hq, rfl⟩
    rw [List.mem_singleton.mp hk]
    exact Nat.ne_of_lt (h.opens q hq).2.2
  · intro q hq
    rw [← Stage.opening.inj hq]
    exact List.mem_append_right _ (List.mem_singleton_self _)
  · intro a ha
    cases ha
  · intro a ha
    cases ha
  · intro u v hv
    cases h.rendered u v hv
  · intro u hu _
    exact h.closed u hu (by simp)

/- A primary without a pair waits for the new companion. -/
theorem openCompanion
    (h : Alone fresh p stage s)
    (hUnpaired : ∀ a, stage ≠ .paired a)
    {c : String}
    {m : Model}
    (hFresh : fresh c)
    (hModel : Table.get? s.models c = some m) :
    ∃ next,
      Alone fresh p next (s.openCompanion p c) ∧
        Shows c m (s.openCompanion p c) next := by
  unfold Session.openCompanion
  cases stage with
  | unpaired =>
      have hNone : s.registry.pendingFor p = none :=
        congrArg (Table.get? · p) h.registry.pending
      rw [hNone]
      rcases h.beginOpening hFresh with ⟨hNext, hModels⟩
      rw [← hModels] at hModel
      exact ⟨_, hNext, .opening _ rfl hModel⟩
  | opening q =>
      rw [(h.registry.pendingFor_iff q).mpr rfl]
      dsimp only
      split
      next hEq =>
        exact ⟨_, h.congr rfl rfl rfl, .opening q hEq hModel⟩
      next hNe =>
        rcases h.supersede c with ⟨hGiven, hSame⟩
        rcases hGiven.beginOpening hFresh with
          ⟨hNext, hModels⟩
        rw [← hSame.models c (Ne.symm hNe), ← hModels]
          at hModel
        exact ⟨_, hNext, .opening _ rfl hModel⟩
  | paired a => exact absurd rfl (hUnpaired a)

/- The companion of the pair may be rendered. -/
theorem render
    {c : String}
    (h : Alone fresh p (.paired c) s)
    (m : Model) :
    Alone fresh p (.paired c) (s.render c m) := by
  have hNotes := render_host s c m
  have hPrimary := congrArg Desk.primary hNotes
  have hSecondary := congrArg Desk.secondary hNotes
  have hReporting := congrArg Desk.reporting hNotes
  simp only [Desk.forgetNotes] at hPrimary hSecondary
  simp only [Desk.forgetNotes] at hReporting
  rcases h.joined c rfl with ⟨hFresh, hCopies⟩
  apply h.change hFresh (sameBut_render s c m) h.registry
  · exact .stay _
  · rw [hPrimary, hSecondary]
    exact hCopies
  · rw [hSecondary, hReporting]
    exact h.reported c
  · exact fun _ _ => rfl
  · exact fun hNot => absurd rfl hNot

/- A refresh renders the companion of the pair. -/
theorem refreshAndRender
    {c : String}
    (h : Alone fresh p (.paired c) s)
    (hPresent : c ∈ s.host.secondary.documents)
    (m : Model) :
    Alone fresh p (.paired c) (s.refreshAndRender c m).1 ∧
      Shows c m (s.refreshAndRender c m).1 (.paired c) := by
  rcases refreshAndRender_eq s c m with
    ⟨t, hEq, hSame, hRegistry, hPrimary, hSecondary⟩
  have hRead : Alone fresh p (.paired c) t := by
    rcases h.joined c rfl with ⟨hFresh, hCopies⟩
    apply h.change hFresh hSame
    · rw [hRegistry]
      exact h.registry
    · exact .stay _
    · rw [hPrimary, hSecondary]
      exact hCopies
    · rw [hSecondary]
      exact fun _ _ => hPresent
    · exact fun _ _ => rfl
    · exact fun hNot => absurd rfl hNot
  have hRendered :
      (t.render c m).host.secondary = s.host.secondary :=
    (congrArg Desk.secondary (render_host t c m)).trans
      hSecondary
  rw [← hRendered] at hPresent
  rw [hEq]
  exact ⟨hRead.render m,
    .paired hPresent (render_modelFor t c m)⟩

/- A request to a primary without a pair. -/
theorem showUnpaired
    (h : Alone fresh p stage s)
    (hUnpaired : ∀ a, stage ≠ .paired a)
    {c : String}
    {m : Model}
    (hFresh : fresh c)
    (hModel : Table.get? s.models c = some m) :
    ∃ next,
      Alone fresh p next (s.showUnpaired p c m).1 ∧
        Shows c m (s.showUnpaired p c m).1 next := by
  have hNone : s.registry.pairForCompanion c = none := by
    apply Option.eq_none_iff_forall_ne_some.mpr
    intro pair hPair
    exact hUnpaired c
      ((h.registry.pairForCompanion_iff c pair).mp hPair).1
  rw [Session.showUnpaired, hNone]
  exact h.openCompanion hUnpaired hFresh hModel

/- After a request its companion is being shown. -/
theorem showFor
    (h : Alone fresh p stage s)
    {c : String}
    (hFresh : fresh c)
    (m : Model) :
    ∃ next,
      Alone fresh p next (s.showFor p c m).1 ∧
        Shows c m (s.showFor p c m).1 next := by
  rcases h.reconcile with ⟨st, hReconciled, hPresent⟩
  have hKept :
      Alone fresh p st (s.reconcile.keepModel c m) :=
    hReconciled.congr rfl rfl rfl
  have hModel :
      Table.get? (s.reconcile.keepModel c m).models c =
        some m :=
    Table.get?_insert_self _ c m
  unfold Session.showFor
  cases hPair :
      (s.reconcile.keepModel c m).registry.pairForPrimary
        p with
  | none =>
      have hUnpaired : ∀ a, st ≠ .paired a := by
        intro a ha
        have hSome :=
          (hKept.registry.pairForPrimary_iff _).mpr
            ⟨a, ha, rfl⟩
        rw [hPair] at hSome
        cases hSome
      simp only [hPair]
      exact hKept.showUnpaired hUnpaired hFresh hModel
  | some pair =>
      rcases (hKept.registry.pairForPrimary_iff pair).mp
        hPair with ⟨a, rfl, rfl⟩
      simp only [hPair]
      by_cases hEq : a = c
      · subst hEq
        rw [if_pos rfl]
        have hThere := hPresent a rfl
        exact ⟨_, hKept.refreshAndRender hThere m⟩
      · rw [if_neg hEq]
        rcases hKept.replacePair c with ⟨hParted, hSame⟩
        rw [← hSame.models c (Ne.symm hEq)] at hModel
        exact hParted.showUnpaired
          (fun b hb => by cases hb) hFresh hModel

/-
  A request for a fresh companion.  A request without a
  companion changes nothing.
-/
theorem showCompanion
    (h : Alone fresh p stage s)
    (hNamed : p ≠ "")
    {uri : String}
    (hFresh : fresh (Text.trim uri))
    (m : Model) :
    ∃ next,
      Alone fresh p next (s.showCompanion uri m (some p)).1 ∧
        (Text.trim uri ≠ "" →
          Shows (Text.trim uri) m
            (s.showCompanion uri m (some p)).1 next) := by
  have hPrimary : s.primaryFor (some p) = p := by
    simp [primaryFor, hNamed]
  unfold Session.showCompanion
  by_cases hBlank : Text.trim uri = ""
  · simp only [hBlank]
    exact ⟨stage, h.congr rfl rfl rfl,
      fun hNot => absurd rfl hNot⟩
  · simp only [hPrimary, String.isEmpty_iff, hBlank, hNamed,
      if_false]
    rcases h.showFor hFresh m with ⟨next, hNext, hShows⟩
    exact ⟨next, hNext, fun _ => hShows⟩

end Alone

----
-- Completions
----

namespace Alone

variable {fresh : String → Prop} {p : String}
variable {stage : Stage} {s : Session Desk}
variable {i : Nat} {q : PendingOpen}

/- No opening is waited for twice. -/
theorem mem_eraseIdx_iff
    (h : Alone fresh p stage s)
    (hIndex : s.host.opens[i]? = some q)
    (r : PendingOpen) :
    r ∈ s.host.opens.eraseIdx i ↔
      r ∈ s.host.opens ∧ r ≠ q := by
  have hNodup := List.Nodup.of_map _ h.tokens
  have hBound : i < s.host.opens.length :=
    (List.getElem?_eq_some_iff.mp hIndex).1
  rw [List.mem_eraseIdx_iff_getElem?]
  constructor
  · intro hErased
    rcases hErased with ⟨j, hNe, hr⟩
    refine ⟨List.mem_of_getElem? hr, ?_⟩
    intro hEq
    subst hEq
    have hSame : i = j :=
      (List.getElem?_inj hBound hNodup).mp
        (hIndex.trans hr.symm)
    exact hNe hSame.symm
  · intro hOther
    rcases hOther with ⟨hMem, hNe⟩
    rcases List.mem_iff_getElem?.mp hMem with ⟨j, hj⟩
    refine ⟨j, ?_, hj⟩
    intro hEq
    subst hEq
    rw [hIndex] at hj
    exact hNe (Option.some.inj hj).symm

/-
  The primary is alone on a desk that does not wait for an
  opening, if the primary does not wait for it either.
-/
theorem forget
    (h : Alone fresh p stage s)
    {next : Stage}
    {r : PairRegistry}
    (hRegistry : next.Describes p r)
    (hToken : r.nextToken = s.registry.nextToken)
    (hPaired : ∀ v, next = .paired v ↔ stage = .paired v)
    (hAwaited :
      ∀ q, next = .opening q →
        q ∈ s.host.opens.eraseIdx i) :
    Alone fresh p next
      { s.withoutOpening i with registry := r } := by
  have hSub := List.eraseIdx_sublist s.host.opens i
  constructor
  · exact h.apart
  · exact hRegistry
  · exact h.primary
  · intro o ho
    rw [hToken]
    exact h.opens o (hSub.subset ho)
  · exact h.tokens.sublist (hSub.map _)
  · exact hAwaited
  · intro c hc
    exact h.joined c ((hPaired c).mp hc)
  · intro c hc
    exact h.reported c ((hPaired c).mp hc)
  · intro u v hv
    exact (hPaired u).mpr (h.rendered u v hv)
  · intro u hu hNot
    exact h.closed u hu fun hc => hNot ((hPaired u).mpr hc)

/- The opening that is waited for can be finished. -/
theorem finishOpen_awaited
    (h : Alone fresh p (.opening q) s) :
    s.registry.finishOpen q =
      ({ s.registry with pending := [] }, true) := by
  have hPrimary := (h.opens q (h.awaited q rfl)).1
  have hPending := (h.registry.pendingFor_iff q).mpr rfl
  rw [PairRegistry.finishOpen, hPrimary, hPending]
  simp [h.registry.pending, Stage.pending, Table.erase]

/- No other opening can be finished. -/
theorem finishOpen_abandoned
    (h : Alone fresh p stage s)
    (hMem : q ∈ s.host.opens)
    (hStray : stage ≠ .opening q) :
    s.registry.finishOpen q = (s.registry, false) := by
  rw [PairRegistry.finishOpen, (h.opens q hMem).1]
  cases hPending : s.registry.pendingFor p with
  | none => rfl
  | some r =>
      have hStage := (h.registry.pendingFor_iff r).mp hPending
      have hToken : r.token ≠ q.token := by
        intro hEq
        have hSame :=
          List.inj_on_of_nodup_map h.tokens
            (h.awaited r hStage) hMem hEq
        rw [hSame] at hStage
        exact hStray hStage
      exact if_neg hToken

/- An unpaired primary joins a companion that was placed. -/
theorem register
    (h : Alone fresh p .unpaired s)
    {c : String}
    {d : Desk}
    (hFresh : fresh c)
    (hSame : Desk.SameBut c s.host d)
    (hOnce : d.copies c = 1)
    (hThere : c ∈ d.secondary.documents) :
    Alone fresh p (.paired c)
      (({ s with host := d } : Session Desk).register p c) := by
  apply h.change hFresh
  · exact ⟨hSame, fun _ _ => rfl, fun _ _ => rfl, rfl⟩
  · refine ⟨?_, h.registry.pending⟩
    change Table.insert s.registry.pairs p ⟨p, c⟩ = _
    rw [h.registry.pairs]
    rfl
  · exact .join
  · have hSecondary := List.count_pos_iff.mpr hThere
    unfold Desk.copies at hOnce
    change d.primary.documents.count c = 0 ∧
      d.secondary.documents.count c ≤ 1
    omega
  · exact fun _ _ => hThere
  · exact fun _ _ => rfl
  · exact fun hNot => absurd rfl hNot

/- The companion that is waited for becomes that of a pair. -/
theorem complete_awaited
    (h : Alone fresh p (.opening q) s)
    (hIndex : s.host.opens[i]? = some q)
    (lines : Option Int) :
    ∃ t,
      (s.complete i true lines).1 = t ∧
        Alone fresh p (.paired q.companion) t ∧
        t.host.opens = s.host.opens.eraseIdx i ∧
        q.companion ∈ t.host.secondary.documents ∧
        t.engine.modelFor q.companion =
          (Table.get? s.models q.companion).bind fun m =>
            (Host.lineCount t.host q.companion).map
              fun _ => m := by
  rcases h.opens q (h.awaited q rfl) with ⟨rfl, hFresh, -⟩
  have hNone : s.host.copies q.companion = 0 :=
    h.closed q.companion hFresh (by simp)
  have hCompanion :
      s.registry.isCompanion q.companion = true := by
    simp [PairRegistry.isCompanion, h.registry.pending,
      Stage.pending, Table.values]
  rcases placeOpened_eq (s.withoutOpening i) q.companion lines
      h.present (h.copies_le_one hFresh) with
    ⟨d, hPlace, hSame, hOnce, hWhere⟩
  have hThere := hWhere hCompanion hNone
  have hOpen : Host.isOpen d q.primary = true :=
    (hSame.isOpen (Ne.symm (h.ne hFresh))).mpr h.primary
  -- Placing goes by the registry that still waits, so the
  -- stage is changed only after the companion has its place.
  have hBase :
      Alone fresh q.primary .unpaired
        { s.withoutOpening i with
          registry := { s.registry with pending := [] } } := by
    apply h.forget
    · exact ⟨h.registry.pairs, rfl⟩
    · rfl
    · simp
    · intro r hr
      cases hr
  have hJoined := hBase.register hFresh hSame hOnce hThere
  have hOpened :=
    companionOpened_awaited
      (s := { s.withoutOpening i with host := d })
      h.finishOpen_awaited hOpen
  rw [complete_eq hIndex, delivered, if_pos rfl, hPlace,
    hOpened]
  change ∃ t, (Table.get? s.models q.companion).elim _ _ = t ∧ _
  cases hModel : Table.get? s.models q.companion with
  | none =>
      refine ⟨_, rfl, hJoined, hSame.opens, hThere, ?_⟩
      have hView :
          Table.get? s.engine.views q.companion = none :=
        h.view_eq_none (by simp)
      exact congrArg (Option.map _) hView
  | some m =>
      have hNotes := render_host
        (Session.register
          { s.withoutOpening i with
            host := d
            registry := { s.registry with pending := [] } }
          q.primary q.companion) q.companion m
      have hSecondary :=
        congrArg (fun e => e.secondary.documents) hNotes
      refine ⟨_, rfl, hJoined.render m, ?_, ?_,
        render_modelFor _ _ m⟩
      · exact (congrArg Desk.opens hNotes).trans hSame.opens
      · exact hSecondary.symm ▸ hThere

/-
  Closing a fresh document that was placed takes it from the
  desk, and from the pair if the desk reports it.
-/
theorem discard
    (h : Alone fresh p stage s)
    {u : String}
    {t : Session Desk}
    (hFresh : fresh u)
    (hSame : SameBut u s t)
    (hRegistry : t.registry = s.registry)
    (hEngine : t.engine = s.engine)
    (hOnce : t.host.copies u = 1)
    (hModel : Table.get? t.models u = none) :
    ∃ next,
      Alone fresh p next (t.close u) ∧
        (next = stage ∨
          stage = .paired u ∧ next = .unpaired) ∧
        SameBut u s (t.close u) ∧
        (t.close u).host.copies u = 0 ∧
        Table.get? (t.close u).models u = none := by
  have hu := h.ne hFresh
  have hStage : stage.Describes p t.registry := by
    rw [hRegistry]
    exact h.registry
  have hPair := hStage.pairForPrimary_eq_none hu
  have hPending := hStage.pendingFor_eq_none hu
  have hClose := hSame.trans (sameBut_close t u hPair hPending)
  have hNone :=
    copies_close t u hPair hPending (Nat.le_of_eq hOnce)
  rcases close_stage hStage hu with
    ⟨hKept, hViews, hModels, hReported⟩ |
      ⟨hPaired, hParted, hView, hGone⟩
  · rw [← hModels] at hModel
    refine ⟨stage, ?_, Or.inl rfl, hClose, hNone, hModel⟩
    apply h.change hFresh hClose
    · rw [hKept]
      exact hStage
    · exact .stay _
    · unfold Desk.copies at hNone
      omega
    -- A reporting desk reports the closing of an open
    -- document, and that would have ended the pair.
    · intro hPaired hReporting
      have hOpen : Host.isOpen t.host u = true := by
        rw [Desk.isOpen_iff_copies, hOnce]
        exact Nat.one_pos
      rw [hClose.host.reporting, ← hSame.host.reporting]
        at hReporting
      rw [Desk.close_reported, hOpen, hReporting] at hReported
      exact absurd hPaired (hReported rfl)
    · intro v hv
      rw [hViews, hEngine] at hv
      exact h.rendered u v hv
    · exact fun _ => hNone
  · refine ⟨.unpaired, ?_, Or.inr ⟨hPaired, rfl⟩, hClose,
      hNone, hGone⟩
    subst hPaired
    exact h.leave hFresh hClose hParted .part (by simp) hNone
      hView

/-
  A companion that was given up is closed again.  Only if the
  primary has the same companion by now, that one is gone.
-/
theorem complete_abandoned
    (h : Alone fresh p stage s)
    (hIndex : s.host.opens[i]? = some q)
    (hStray : stage ≠ .opening q)
    (lines : Option Int) :
    ∃ t next,
      (s.complete i true lines).1 = t ∧
        Alone fresh p next t ∧
        (next = stage ∨
          stage = .paired q.companion ∧ next = .unpaired) ∧
        SameBut q.companion (s.withoutOpening i) t ∧
        t.host.copies q.companion = 0 ∧
        Table.get? t.models q.companion = none := by
  have hMem := List.mem_of_getElem? hIndex
  have hFresh := (h.opens q hMem).2.1
  have hBase : Alone fresh p stage (s.withoutOpening i) := by
    apply h.forget h.registry rfl
    · exact fun v => Iff.rfl
    · intro r hr
      apply (h.mem_eraseIdx_iff hIndex r).mpr
      refine ⟨h.awaited r hr, ?_⟩
      intro hEq
      rw [hEq] at hr
      exact hStray hr
  rcases placeOpened_eq (s.withoutOpening i) q.companion lines
      h.present (h.copies_le_one hFresh) with
    ⟨d, hPlace, hSame, hOnce, -⟩
  rcases companionOpened_abandoned
      (s := { s.withoutOpening i with host := d })
      (h.finishOpen_abandoned hMem hStray) with
    ⟨text, hOpened⟩
  rw [complete_eq hIndex, delivered, if_pos rfl, hPlace,
    hOpened]
  have hDropped :=
    ((SameBut.ofHost hSame).trans
      (sameBut_log _ q.companion (.info text))).trans
        (sameBut_dropModel _ q.companion)
  rcases hBase.discard hFresh hDropped rfl rfl hOnce
      (Table.get?_erase_self _ q.companion) with
    ⟨next, hRest⟩
  exact ⟨_, next, rfl, hRest⟩

end Alone

end Session

end Pairing

end StyleCompanion
