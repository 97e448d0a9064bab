import StyleCompanion.Proofs.Pairing.Alone
import StyleCompanion.Proofs.Pairing.Turns

/-
  Which of several requests wins.

  Requests for companions of one primary may follow each other
  faster than the companions open.  When all openings have
  completed, in whatever order, the newest request has won,
  unless an older opening of the same companion had been given
  up and was still under way when that request was made: its
  completion closes the companion or takes away the model.

  Main declarations:
    * `Session.Course`
    * `Session.Course.newest_wins_iff`
-/

namespace StyleCompanion

namespace Pairing

/- A document is not on a desk. -/
def Desk.Lacks
    (d : Desk)
    (uri : String) : Prop :=
  Host.isOpen d uri = false

namespace Session

open Attribution

----
-- Courses of events
----

/- An opening completes with success. -/
inductive Event.Completes : Event → Prop where
  | success
      (index : Nat)
      (lines : Option Int) :
      Completes (.complete index true lines)

/- What happens while requests are made for one primary. -/
inductive Event.Serves
    (desk : Desk)
    (p : String) : Event → Prop where
  | request
      (uri : String)
      (m : Model)
      (hClosed : desk.Lacks (Text.trim uri)) :
      Serves desk p (.showCompanion uri m (some p))
  | completion
      {e : Event}
      (h : e.Completes) :
      Serves desk p e

/-
  A course of events around a primary that is open, on a desk
  without its companions.  Requests and completions come in
  any order, then the newest request, then completions.
-/
structure Course where
  paletteSize : Nat
  desk : Desk
  primary : String
  before : List Event
  uri : String
  model : Model
  after : List Event
  idle : desk.opens = []
  named : primary ≠ ""
  isOpen : Host.isOpen desk primary = true
  serves : ∀ e ∈ before, e.Serves desk primary
  companionNamed : Text.trim uri ≠ ""
  companionClosed : desk.Lacks (Text.trim uri)
  completes : ∀ e ∈ after, e.Completes

namespace Course

/- The companion of the newest request. -/
def companion
    (k : Course) : String :=
  Text.trim k.uri

/- The session just after the newest request. -/
def requested
    (k : Course) : Session Desk :=
  (Session.new k.paletteSize k.desk).run
    (k.before ++
      [.showCompanion k.uri k.model (some k.primary)])

/- The session at the end. -/
def ended
    (k : Course) : Session Desk :=
  k.requested.run k.after

/- The newest request has won in the end. -/
def Wins
    (k : Course) : Prop :=
  k.ended.registry.pairForPrimary k.primary =
      some ⟨k.primary, k.companion⟩ ∧
    Host.isOpen k.ended.host k.companion = true ∧
    k.ended.engine.modelFor k.companion = some k.model

instance (k : Course) : Decidable k.Wins :=
  inferInstanceAs (Decidable (_ ∧ _ ∧ _))

/-
  Just after the newest request, the primary waits for every
  opening of the newest companion that is under way.
-/
def Undisturbed
    (k : Course) : Prop :=
  ∀ q ∈ k.requested.host.opens,
    q.companion = k.companion →
      k.requested.registry.pendingFor k.primary = some q

instance (k : Course) : Decidable k.Undisturbed :=
  inferInstanceAs (Decidable (∀ q ∈ _, _ → _))

end Course

/- What every completion keeps holds after completions. -/
theorem run_completions
    {P : Session Desk → Prop}
    {events : List Event}
    (hEvents : ∀ e ∈ events, e.Completes)
    (hStep :
      ∀ s i lines, P s → P (s.complete i true lines).1)
    {s : Session Desk}
    (h : P s) :
    P (s.run events) := by
  refine run_induction ?_ h
  intro t e he ht
  cases hEvents e he with
  | success i lines => exact hStep t i lines ht

----
-- The primary stays alone
----

/- A session starts without pairs and openings. -/
theorem alone_new
    {p : String}
    {desk : Desk}
    (paletteSize : Nat)
    (hOpen : Host.isOpen desk p = true)
    (hIdle : desk.opens = []) :
    Alone desk.Lacks p .unpaired
      (Session.new paletteSize desk) := by
  constructor
  · intro hLacks
    rw [Desk.Lacks, hOpen] at hLacks
    cases hLacks
  · exact ⟨rfl, rfl⟩
  · exact hOpen
  · intro q hq
    change q ∈ desk.opens at hq
    rw [hIdle] at hq
    cases hq
  · change (desk.opens.map _).Nodup
    rw [hIdle]
    exact List.nodup_nil
  · intro q hq
    cases hq
  · intro c hc
    cases hc
  · intro c hc
    cases hc
  · intro u v hv
    cases hv
  · intro u hu _
    apply Nat.eq_zero_of_not_pos
    rw [← Desk.isOpen_iff_copies]
    intro hIsOpen
    exact Bool.false_ne_true (hu.symm.trans hIsOpen)

namespace Alone

variable {fresh : String → Prop} {p : String}
variable {stage : Stage} {s : Session Desk}

theorem complete
    (h : Alone fresh p stage s)
    (i : Nat)
    (lines : Option Int) :
    ∃ next,
      Alone fresh p next (s.complete i true lines).1 := by
  cases hIndex : s.host.opens[i]? with
  | none =>
      simp only [Session.complete, hIndex]
      exact ⟨stage, h⟩
  | some q =>
      by_cases hStage : stage = .opening q
      · subst hStage
        rcases h.complete_awaited hIndex lines with
          ⟨t, rfl, hNext, -⟩
        exact ⟨_, hNext⟩
      · rcases h.complete_abandoned hIndex hStage lines with
          ⟨t, next, rfl, hNext, -⟩
        exact ⟨next, hNext⟩

theorem step
    {desk : Desk}
    {e : Event}
    (h : Alone desk.Lacks p stage s)
    (hNamed : p ≠ "")
    (hServes : e.Serves desk p) :
    ∃ next, Alone desk.Lacks p next (s.step e) := by
  cases hServes with
  | request uri m hClosed =>
      rcases h.showCompanion hNamed hClosed m with
        ⟨next, hNext, -⟩
      exact ⟨next, hNext⟩
  | completion hCompletes =>
      cases hCompletes with
      | success index lines => exact h.complete index lines

theorem run
    {desk : Desk}
    {events : List Event}
    (h : Alone desk.Lacks p stage s)
    (hNamed : p ≠ "")
    (hServes : ∀ e ∈ events, e.Serves desk p) :
    ∃ next, Alone desk.Lacks p next (s.run events) := by
  refine run_induction
    (P := fun t => ∃ next, Alone desk.Lacks p next t)
    ?_ ⟨stage, h⟩
  intro t e he ht
  rcases ht with ⟨st, ht⟩
  exact ht.step hNamed (hServes e he)

end Alone

----
-- Completions after the newest request
----

/- An opening of a companion that was given up. -/
def Stray
    (c : String)
    (stage : Stage)
    (s : Session Desk) : Prop :=
  ∃ q ∈ s.host.opens, q.companion = c ∧ stage ≠ .opening q

/-
  A companion that will not be shown: its model or its pair is
  gone, or an opening that was given up will take it away.
-/
inductive Lost
    (c : String)
    (s : Session Desk) : Stage → Prop where
  | unpaired : Lost c s .unpaired
  | opening
      (q : PendingOpen)
      (hCompanion : q.companion = c)
      (h :
        Stray c (.opening q) s ∨
          Table.get? s.models c = none) :
      Lost c s (.opening q)
  | paired
      (h :
        Stray c (.paired c) s ∨
          s.engine.modelFor c = none ∨
          s.host.copies c = 0) :
      Lost c s (.paired c)

/- The view of another companion holds the same model. -/
theorem SameBut.modelFor
    {u v : String}
    {s t : Session Desk}
    (h : SameBut u s t)
    (hv : v ≠ u) :
    t.engine.modelFor v = s.engine.modelFor v := by
  unfold Overlay.Engine.modelFor
  rw [h.views v hv]

/- A companion is shown whatever happens to the others. -/
theorem Shows.other
    {c u : String}
    {m : Model}
    {s t : Session Desk}
    {stage : Stage}
    {i : Nat}
    (h : Shows c m s stage)
    (hSame : SameBut u (s.withoutOpening i) t)
    (hc : c ≠ u) :
    Shows c m t stage := by
  cases h with
  | opening q hCompanion hModel =>
      exact .opening q hCompanion
        ((hSame.models c hc).trans hModel)
  | paired hPresent hModel =>
      have hCount := hSame.host.secondary c hc
      have hLines := hSame.host.lines c hc
      refine .paired ?_ ?_
      · rw [← List.count_pos_iff, hCount, List.count_pos_iff]
        exact hPresent
      · rw [hSame.modelFor hc, hLines]
        exact hModel

/- A companion is lost whatever happens to the others. -/
theorem Lost.other
    {c u : String}
    {s t : Session Desk}
    {stage : Stage}
    {i : Nat}
    (h : Lost c s stage)
    (hSame : SameBut u (s.withoutOpening i) t)
    (hc : c ≠ u)
    (hStray : Stray c stage s → Stray c stage t) :
    Lost c t stage := by
  cases h with
  | unpaired => exact .unpaired
  | opening q hCompanion hCase =>
      refine .opening q hCompanion ?_
      rcases hCase with hLeft | hNone
      · exact Or.inl (hStray hLeft)
      · exact Or.inr ((hSame.models c hc).trans hNone)
  | paired hCase =>
      refine .paired ?_
      rcases hCase with hLeft | hView | hNone
      · exact Or.inl (hStray hLeft)
      · exact Or.inr (Or.inl ((hSame.modelFor hc).trans hView))
      · refine Or.inr (Or.inr ?_)
        rw [Desk.copies, hSame.host.primary c hc,
          hSame.host.secondary c hc]
        exact hNone

namespace Alone

variable {fresh : String → Prop} {p c : String} {m : Model}
variable {stage : Stage} {s : Session Desk}

/- Without strays a companion goes on being shown. -/
theorem complete_shows
    (h : Alone fresh p stage s)
    (hShows : Shows c m s stage)
    (hClean : ¬ Stray c stage s)
    (i : Nat)
    (lines : Option Int) :
    ∃ next,
      Alone fresh p next (s.complete i true lines).1 ∧
        Shows c m (s.complete i true lines).1 next ∧
        ¬ Stray c next (s.complete i true lines).1 := by
  cases hIndex : s.host.opens[i]? with
  | none =>
      simp only [Session.complete, hIndex]
      exact ⟨stage, h, hShows, hClean⟩
  | some q =>
      have hErase := h.mem_eraseIdx_iff hIndex
      by_cases hStage : stage = .opening q
      · subst hStage
        rcases h.complete_awaited hIndex lines with
          ⟨t, rfl, hNext, hOpens, hPresent, hModel⟩
        cases hShows with
        | opening _ hCompanion hKept =>
            subst hCompanion
            rw [hKept] at hModel
            refine ⟨_, hNext, .paired hPresent hModel, ?_⟩
            intro hStray
            rcases hStray with ⟨r, hr, hSame, -⟩
            rw [hOpens, hErase] at hr
            apply hClean
            refine ⟨r, hr.1, hSame, ?_⟩
            intro hEq
            exact hr.2 (Stage.opening.inj hEq).symm
      -- What completes was given up, so it is an opening of
      -- another companion: one of this would be a stray.
      · have hMem := List.mem_of_getElem? hIndex
        have hOther : c ≠ q.companion := by
          intro hEq
          exact hClean ⟨q, hMem, hEq.symm, hStage⟩
        rcases h.complete_abandoned hIndex hStage lines with
          ⟨t, next, rfl, hNext, hKept, hSame, -, -⟩
        have hEq : next = stage := by
          rcases hKept with hEq | ⟨hPaired, -⟩
          · exact hEq
          · subst hPaired
            cases hShows
            exact absurd rfl hOther
        subst hEq
        refine ⟨_, hNext, hShows.other hSame hOther, ?_⟩
        intro hStray
        rcases hStray with ⟨r, hr, hCompanion, hNot⟩
        rw [hSame.host.opens] at hr
        exact hClean
          ⟨r, ((hErase r).mp hr).1, hCompanion, hNot⟩

/- A companion that is lost stays lost. -/
theorem complete_lost
    (h : Alone fresh p stage s)
    (hLost : Lost c s stage)
    (i : Nat)
    (lines : Option Int) :
    ∃ next,
      Alone fresh p next (s.complete i true lines).1 ∧
        Lost c (s.complete i true lines).1 next := by
  cases hIndex : s.host.opens[i]? with
  | none =>
      simp only [Session.complete, hIndex]
      exact ⟨stage, h, hLost⟩
  | some q =>
      have hErase := h.mem_eraseIdx_iff hIndex
      by_cases hStage : stage = .opening q
      · subst hStage
        rcases h.complete_awaited hIndex lines with
          ⟨t, rfl, hNext, hOpens, -, hModel⟩
        cases hLost with
        | opening _ hCompanion hCase =>
            subst hCompanion
            refine ⟨_, hNext, .paired ?_⟩
            rcases hCase with ⟨r, hr, hSame, hNot⟩ | hNone
            · refine Or.inl ⟨r, ?_, hSame, by simp⟩
              rw [hOpens, hErase]
              refine ⟨hr, ?_⟩
              intro hEq
              exact hNot (congrArg Stage.opening hEq.symm)
            · rw [hNone] at hModel
              exact Or.inr (Or.inl hModel)
      · rcases h.complete_abandoned hIndex hStage lines with
          ⟨t, next, rfl, hNext, hKept, hSame, hCopies, hGone⟩
        rcases hKept with hEq | ⟨-, hEq⟩
        · subst hEq
          refine ⟨_, hNext, ?_⟩
          -- A stray that completes leaves no model and no
          -- document behind; any other leaves the stray.
          by_cases hc : c = q.companion
          · subst hc
            cases hLost with
            | unpaired => exact .unpaired
            | opening r hCompanion hCase =>
                exact .opening r hCompanion (Or.inr hGone)
            | paired hCase =>
                exact .paired (Or.inr (Or.inr hCopies))
          · apply hLost.other hSame hc
            intro hStray
            rcases hStray with ⟨r, hr, hCompanion, hNot⟩
            refine ⟨r, ?_, hCompanion, hNot⟩
            rw [hSame.host.opens]
            apply (hErase r).mpr
            refine ⟨hr, ?_⟩
            intro hEq
            subst hEq
            exact hc hCompanion.symm
        · subst hEq
          exact ⟨.unpaired, hNext, .unpaired⟩

theorem run_shows
    {events : List Event}
    (h : Alone fresh p stage s)
    (hShows : Shows c m s stage)
    (hClean : ¬ Stray c stage s)
    (hEvents : ∀ e ∈ events, e.Completes) :
    ∃ next,
      Alone fresh p next (s.run events) ∧
        Shows c m (s.run events) next ∧
        ¬ Stray c next (s.run events) := by
  refine run_completions
    (P := fun t =>
      ∃ next,
        Alone fresh p next t ∧ Shows c m t next ∧
          ¬ Stray c next t)
    hEvents ?_ ⟨stage, h, hShows, hClean⟩
  intro t i lines ht
  rcases ht with ⟨next, hNext, hShown, hRest⟩
  exact hNext.complete_shows hShown hRest i lines

theorem run_lost
    {events : List Event}
    (h : Alone fresh p stage s)
    (hLost : Lost c s stage)
    (hEvents : ∀ e ∈ events, e.Completes) :
    ∃ next,
      Alone fresh p next (s.run events) ∧
        Lost c (s.run events) next := by
  refine run_completions
    (P := fun t =>
      ∃ next, Alone fresh p next t ∧ Lost c t next)
    hEvents ?_ ⟨stage, h, hLost⟩
  intro t i lines ht
  rcases ht with ⟨next, hNext, hRest⟩
  exact hNext.complete_lost hRest i lines

/- A companion that is shown in the end. -/
theorem shows_ended
    (h : Alone fresh p stage s)
    (hShows : Shows c m s stage)
    (hDone : s.host.opens = [])
    (hLines :
      Host.isOpen s.host c = true →
        (Host.lineCount s.host c).isSome = true) :
    s.registry.pairForPrimary p = some ⟨p, c⟩ ∧
      Host.isOpen s.host c = true ∧
      s.engine.modelFor c = some m := by
  cases hShows with
  | opening q hCompanion hModel =>
      have hMem := h.awaited q rfl
      rw [hDone] at hMem
      cases hMem
  | paired hPresent hModel =>
      have hOpen : Host.isOpen s.host c = true :=
        (s.host.isOpen_iff c).mpr (Or.inr hPresent)
      rcases Option.isSome_iff_exists.mp (hLines hOpen) with
        ⟨n, hn⟩
      rw [hn] at hModel
      exact ⟨(h.registry.pairForPrimary_iff _).mpr
        ⟨c, rfl, rfl⟩, hOpen, hModel⟩

/- A companion that is lost in the end. -/
theorem lost_ended
    (h : Alone fresh p stage s)
    (hLost : Lost c s stage)
    (hDone : s.host.opens = [])
    (hPair : s.registry.pairForPrimary p = some ⟨p, c⟩)
    (hOpen : Host.isOpen s.host c = true) :
    s.engine.modelFor c = none := by
  rcases (h.registry.pairForPrimary_iff _).mp hPair with
    ⟨a, hStage, -⟩
  subst hStage
  cases hLost with
  | paired hCase =>
      rcases hCase with ⟨q, hq, -⟩ | hView | hNone
      · rw [hDone] at hq
        cases hq
      · exact hView
      · rw [Desk.isOpen_iff_copies, hNone] at hOpen
        cases hOpen

end Alone

/- A companion with a stray opening will be lost. -/
theorem Shows.lost
    {c : String}
    {m : Model}
    {s : Session Desk}
    {stage : Stage}
    (h : Shows c m s stage)
    (hStray : Stray c stage s) :
    Lost c s stage := by
  cases h with
  | opening q hCompanion _ =>
      exact .opening q hCompanion (Or.inl hStray)
  | paired _ _ => exact .paired (Or.inl hStray)

----
-- The newest request
----

namespace Course

/- The newest request is being served. -/
theorem shows_requested
    (k : Course) :
    ∃ stage,
      Alone k.desk.Lacks k.primary stage k.requested ∧
        Shows k.companion k.model k.requested stage := by
  have hNew :
      Alone k.desk.Lacks k.primary .unpaired
        (Session.new k.paletteSize k.desk) :=
    alone_new k.paletteSize k.isOpen k.idle
  rcases hNew.run k.named k.serves with ⟨st, hRun⟩
  rcases hRun.showCompanion k.named k.companionClosed
      k.model with ⟨next, hNext, hShows⟩
  unfold requested
  rw [Session.run, List.foldl_append]
  exact ⟨next, hNext, hShows k.companionNamed⟩

/- Whether a stray is left can be told from the registry. -/
theorem undisturbed_iff
    (k : Course)
    {fresh : String → Prop}
    {stage : Stage}
    (h : Alone fresh k.primary stage k.requested) :
    k.Undisturbed ↔
      ¬ Stray k.companion stage k.requested := by
  constructor
  · intro hAll hStray
    rcases hStray with ⟨q, hq, hCompanion, hNot⟩
    exact hNot ((h.registry.pendingFor_iff q).mp
      (hAll q hq hCompanion))
  · intro hClean q hq hCompanion
    apply (h.registry.pendingFor_iff q).mpr
    apply Classical.byContradiction
    intro hNot
    exact hClean ⟨q, hq, hCompanion, hNot⟩

/-
  Once no opening is under way, the newest request has won,
  exactly if no older opening of its companion had been given
  up and was still under way when it was made.
-/
theorem newest_wins_iff
    (k : Course)
    (hDone : k.ended.host.opens = [])
    (hLines :
      Host.isOpen k.ended.host k.companion = true →
        (Host.lineCount k.ended.host k.companion).isSome =
          true) :
    k.Wins ↔ k.Undisturbed := by
  rcases k.shows_requested with ⟨stage, hAlone, hShows⟩
  rw [k.undisturbed_iff hAlone]
  constructor
  · intro hWins hStray
    rcases hAlone.run_lost (hShows.lost hStray)
        k.completes with ⟨next, hNext, hLost⟩
    rcases hWins with ⟨hPair, hOpen, hModel⟩
    have hNone := hNext.lost_ended hLost hDone hPair hOpen
    rw [ended, hNone] at hModel
    cases hModel
  · intro hClean
    rcases hAlone.run_shows hShows hClean k.completes with
      ⟨next, hNext, hShown, -⟩
    exact hNext.shows_ended hShown hDone hLines

/- A request for a stylesheet of a page. -/
def pageRequest
    (uri : String) : Event :=
  .showCompanion uri ⟨.empty, [], [], [], []⟩
    (some "file:///index.html")

/- Openings complete, each with one line. -/
def completions
    (indices : List Nat) : List Event :=
  indices.map fun i => .complete i true (some 1)

theorem completes_completions
    (indices : List Nat) :
    ∀ e ∈ completions indices, e.Completes := by
  intro e he
  rcases List.mem_map.mp he with ⟨i, -, rfl⟩
  exact .success i (some 1)

/-
  On a desk with one page, a second stylesheet is asked for
  before the first is open, and then the first again.
-/
def backAndForth
    (between after : List Nat) : Course where
  paletteSize := 8
  desk :=
    (Desk.new true).add "file:///index.html" .primary true
  primary := "file:///index.html"
  before :=
    pageRequest "file:///a.css" ::
      pageRequest "file:///b.css" :: completions between
  uri := "file:///a.css"
  model := ⟨.empty, [], [], [], []⟩
  after := completions after
  idle := rfl
  named := by decide
  isOpen := rfl
  serves := by
    refine List.forall_mem_cons.mpr ⟨.request _ _ rfl, ?_⟩
    refine List.forall_mem_cons.mpr ⟨.request _ _ rfl, ?_⟩
    intro e he
    exact .completion (completes_completions between e he)
  companionNamed := by decide
  companionClosed := rfl
  completes := completes_completions after

/-
  The given up opening of the first stylesheet completes
  before that is asked for again.  Then the openings complete
  in reverse order.
-/
theorem newest_wins_in_reverse :
    (backAndForth [0] [1, 0]).ended.host.opens = [] ∧
      (Host.lineCount (backAndForth [0] [1, 0]).ended.host
        "file:///a.css").isSome = true ∧
      (backAndForth [0] [1, 0]).Undisturbed ∧
      (backAndForth [0] [1, 0]).Wins := by
  have hUndisturbed :
      (backAndForth [0] [1, 0]).Undisturbed := by
    decide
  refine ⟨rfl, rfl, hUndisturbed, ?_⟩
  exact (newest_wins_iff _ rfl fun _ => rfl).mpr hUndisturbed

/-
  The given up opening of the first stylesheet completes after
  that is asked for again.  The stylesheet is paired and open,
  but nothing is rendered.
-/
theorem newest_loses_model :
    (backAndForth [] [0, 0, 0]).ended.host.opens = [] ∧
      (Host.lineCount (backAndForth [] [0, 0, 0]).ended.host
        "file:///a.css").isSome = true ∧
      (backAndForth [] [0, 0, 0]).ended.engine.modelFor
        "file:///a.css" = none ∧
      ¬ (backAndForth [] [0, 0, 0]).Wins :=
  ⟨rfl, rfl, rfl, by decide⟩

end Course

end Session

end Pairing

end StyleCompanion
