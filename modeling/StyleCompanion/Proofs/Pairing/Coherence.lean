import StyleCompanion.Proofs.Pairing.Shedding
import StyleCompanion.Proofs.Pairing.Turns

/-
  The pairs, the views, the models and the desk agree.

  On a reporting desk whose documents only disappear by being
  closed, and while every companion is asked for by one
  primary, both documents of a pair are open, every view is
  that of a paired companion, and every model is kept for a
  companion that is paired or being opened.

  In the middle of an event the models run ahead: the model of
  a request is kept before its companion is opened.  And the
  openings lag behind: one that completes is waited for until
  it is looked at.  `Session.Sound` leaves room for both.

  Main declarations:
    * `Session.asked`
    * `Session.Coherent`
    * `Session.Sound`
    * `Session.Settled`
    * `Session.Settled.showFor`
    * `Session.Settled.complete`
    * `Session.coherent_run`
-/

namespace StyleCompanion

namespace Pairing

namespace Session

open Attribution

----
-- Coherence
----

/- The pairs that the events of a run ask for. -/
def asked
    (s : Session Desk) : List Event → List DocumentPair
  | [] => []
  | e :: events =>
      (s.asks e).toList ++ (s.step e).asked events

/- The parts of a session agree. -/
structure Coherent
    (s : Session Desk) : Prop where
  pairs :
    ∀ pair ∈ s.registry.pairList,
      Host.isOpen s.host pair.primary = true ∧
        Host.isOpen s.host pair.companion = true
  views :
    ∀ v, s.engine.hasRender v = true →
      ∃ pair ∈ s.registry.pairList, pair.companion = v
  models :
    ∀ c, (Table.get? s.models c).isSome = true →
      (∃ pair ∈ s.registry.pairList, pair.companion = c) ∨
        ∃ q ∈ s.host.opens, q.companion = c

/-
  What holds of the registry and the desk at every moment, for
  openings that are waited for.
-/
structure Grounded
    (asked : List DocumentPair)
    (waiting : List PendingOpen)
    (r : PairRegistry)
    (d : Desk) : Prop where
  filed : r.Filed
  apart : r.Apart
  reporting : d.reporting = true
  pairs : ∀ pair ∈ r.pairList, pair ∈ asked
  openings :
    ∀ q ∈ waiting, ⟨q.primary, q.companion⟩ ∈ asked
  pending : ∀ q ∈ r.pendingList, q ∈ waiting
  documents : ∀ u, r.Mentions u → Host.isOpen d u = true

/-
  What holds of a session at every moment.  The model of one
  companion may be kept ahead of its opening.
-/
structure Sound
    (asked : List DocumentPair)
    (waiting : List PendingOpen)
    (ahead : Option String)
    (s : Session Desk) : Prop where
  ground : Grounded asked waiting s.registry s.host
  views :
    ∀ v ∈ Table.keys s.engine.views,
      s.registry.HasCompanion v
  models :
    ∀ v ∈ Table.keys s.models,
      s.registry.HasCompanion v ∨
        (∃ q ∈ waiting, q.companion = v) ∨ ahead = some v

/- A session between two events. -/
def Settled
    (asked : List DocumentPair)
    (s : Session Desk) : Prop :=
  Sound asked s.host.opens none s

theorem Settled.coherent
    {asked : List DocumentPair}
    {s : Session Desk}
    (h : Settled asked s) :
    s.Coherent where
  pairs pair hPair :=
    ⟨h.ground.documents _ ⟨pair, hPair, Or.inl rfl⟩,
      h.ground.documents _ ⟨pair, hPair, Or.inr rfl⟩⟩
  views v hv := h.views v (Table.contains_iff.mp hv)
  models c hc := by
    rcases h.models c (Table.contains_iff.mp hc) with
      hPaired | hWaiting | hAhead
    · exact Or.inl hPaired
    · exact Or.inr hWaiting
    · cases hAhead

theorem settled_new
    (asked : List DocumentPair)
    (paletteSize : Nat)
    {desk : Desk}
    (hIdle : desk.opens = [])
    (hReporting : desk.reporting = true) :
    Settled asked (Session.new paletteSize desk) := by
  constructor
  · constructor
    · exact PairRegistry.filed_new
    · intro _
      exact Or.inl rfl
    · exact hReporting
    · intro _ hPair
      cases hPair
    · intro q hq
      change q ∈ desk.opens at hq
      rw [hIdle] at hq
      cases hq
    · intro _ hq
      cases hq
    · intro u hMentions
      rcases hMentions with ⟨pair, hPair, -⟩
      cases hPair
  · intro _ hv
    cases hv
  · intro _ hv
    cases hv

----
-- The registry and the desk
----

/- One of several openings ends, and the others are left. -/
theorem mem_eraseIdx_of_ne
    {waiting : List PendingOpen}
    {i : Nat}
    {q other : PendingOpen}
    (hIndex : waiting[i]? = some q)
    (hMem : other ∈ waiting)
    (hNe : other ≠ q) :
    other ∈ waiting.eraseIdx i := by
  rcases List.mem_iff_getElem?.mp hMem with ⟨j, hj⟩
  apply List.mem_eraseIdx_iff_getElem?.mpr
  refine ⟨j, ?_, hj⟩
  intro hEq
  subst hEq
  rw [hIndex] at hj
  exact hNe (Option.some.inj hj).symm

namespace Grounded

variable {asked : List DocumentPair}
variable {waiting : List PendingOpen}
variable {r : PairRegistry} {d : Desk} {p c : String}

theorem enrolled
    (h : Grounded asked waiting r d) :
    Enrolled asked r :=
  ⟨h.filed, h.pairs,
    fun q hq => h.openings q (h.pending q hq)⟩

/- A desk that keeps its documents. -/
theorem onDesk
    {e : Desk}
    (h : Grounded asked waiting r d)
    (hReporting : e.reporting = d.reporting)
    (hDocuments :
      ∀ u, Host.isOpen d u = true → Host.isOpen e u = true) :
    Grounded asked waiting r e :=
  { h with
    reporting := hReporting.trans h.reporting
    documents := fun u hMentions =>
      hDocuments u (h.documents u hMentions) }

/- An opening that begins is waited for. -/
theorem beginOpen
    (h : Grounded asked waiting r d)
    (hAsked : ⟨p, c⟩ ∈ asked)
    (hFree : r.pairForPrimary p = none)
    (hIdle : r.pendingFor p = none) :
    Grounded asked (waiting ++ [⟨p, c, r.nextToken⟩])
      (r.beginOpen p c).1 d := by
  have hFiled := h.filed.beginOpen p c
  have hApart := h.apart.beginOpen hFree hIdle c
  rw [PairRegistry.beginOpen_eq hIdle] at hFiled hApart ⊢
  refine ⟨hFiled, hApart, h.reporting, h.pairs, ?_, ?_,
    h.documents⟩
  · intro q hq
    rw [List.mem_append, List.mem_singleton] at hq
    rcases hq with hOld | hNew
    · exact h.openings q hOld
    · rw [hNew]
      exact hAsked
  · intro q hq
    have hPerm :=
      (Table.insert_perm h.filed.pendingKeys p
        ⟨p, c, r.nextToken⟩).map Prod.snd
    rw [List.mem_append, List.mem_singleton]
    rcases List.mem_cons.mp (hPerm.mem_iff.mp hq) with
      hNew | hOld
    · exact Or.inr hNew
    · have hKept := (Table.erase_sublist r.pending p).map
        Prod.snd
      exact Or.inl (h.pending q (hKept.subset hOld))

/- An opening that ends is not waited for any more. -/
theorem finishOpen
    {i : Nat}
    {q : PendingOpen}
    (h : Grounded asked waiting r d)
    (hIndex : waiting[i]? = some q) :
    Grounded asked (waiting.eraseIdx i) (r.finishOpen q).1
      d := by
  have hLost := r.loses_finishOpen q
  refine ⟨hLost.filed h.filed, hLost.apart h.apart,
    h.reporting, ?_, ?_, ?_, ?_⟩
  · intro pair hPair
    exact h.pairs pair (hLost.mem_pairList hPair)
  · intro other hOther
    exact h.openings other (List.mem_of_mem_eraseIdx hOther)
  · intro other hOther
    have hNe : other ≠ q := by
      intro hEq
      subst hEq
      have hFound := h.filed.pendingFor
        (hLost.mem_pendingList hOther)
      have hAwaits : r.Awaits other := by
        unfold PairRegistry.Awaits
        rw [hFound]
        rfl
      have hLeft := (hLost.filed h.filed).pendingFor hOther
      rw [PairRegistry.finishOpen_eq hAwaits] at hLeft
      have hGone :=
        Table.get?_erase_self r.pending other.primary
      exact Option.some_ne_none _ (hLeft.symm.trans hGone)
    have hMem := h.pending other
      (hLost.mem_pendingList hOther)
    exact mem_eraseIdx_of_ne hIndex hMem hNe
  · intro u hMentions
    exact h.documents u (hLost.mentions hMentions)

/- A pair of open documents is registered. -/
theorem register
    (h : Grounded asked waiting r d)
    (hAsked : ⟨p, c⟩ ∈ asked)
    (hIdle : r.pendingFor p = none)
    (hPrimary : Host.isOpen d p = true)
    (hCompanion : Host.isOpen d c = true) :
    Grounded asked waiting (r.register p c) d := by
  refine ⟨h.filed.register p c, h.apart.register hIdle c,
    h.reporting, ?_, h.openings, h.pending, ?_⟩
  · intro pair hPair
    rcases h.filed.mem_register.mp hPair with
      hNew | ⟨hOld, -⟩
    · rw [hNew]
      exact hAsked
    · exact h.pairs pair hOld
  · intro u hMentions
    rcases hMentions with ⟨pair, hPair, hEither⟩
    rcases h.filed.mem_register.mp hPair with
      hNew | ⟨hOld, -⟩
    · subst hNew
      rcases hEither with hEq | hEq
      · rw [← hEq]
        exact hPrimary
      · rw [← hEq]
        exact hCompanion
    · exact h.documents u ⟨pair, hOld, hEither⟩

end Grounded

namespace Sound

variable {asked : List DocumentPair}
variable {waiting : List PendingOpen} {ahead : Option String}
variable {s t : Session Desk} {p c : String}

/- Whatever sheds keeps a session sound. -/
theorem shed
    (h : Sound asked waiting ahead s)
    (hSheds : s.Sheds t) :
    Sound asked waiting ahead t := by
  have hLost := hSheds.registry
  constructor
  · exact {
      filed := hLost.filed h.ground.filed
      apart := hLost.apart h.ground.apart
      reporting := hSheds.reporting.trans h.ground.reporting
      pairs := fun pair hPair =>
        h.ground.pairs pair (hLost.mem_pairList hPair)
      openings := h.ground.openings
      pending := fun q hq =>
        h.ground.pending q (hLost.mem_pendingList hq)
      documents := fun u hMentions =>
        hSheds.documents u hMentions
          (h.ground.documents u (hLost.mentions hMentions)) }
  · intro v hv
    rcases hSheds.views v hv with ⟨hBefore, hKept⟩
    exact hKept (h.views v hBefore)
  · intro v hv
    rcases hSheds.models v hv with ⟨hBefore, hKept⟩
    rcases h.models v hBefore with hPaired | hOther
    · exact Or.inl (hKept hPaired)
    · exact Or.inr hOther

----
-- Models and renders
----

/- A model is kept before its companion is wanted. -/
theorem keepModel
    (h : Sound asked waiting none s)
    (c : String)
    (m : Model) :
    Sound asked waiting (some c) (s.keepModel c m) where
  ground := h.ground
  views := h.views
  models v hv := by
    rcases Table.mem_keys_insert.mp hv with hEq | hOld
    · exact Or.inr (Or.inr (congrArg some hEq.symm))
    · rcases h.models v hOld with hPaired | hWaiting | hAhead
      · exact Or.inl hPaired
      · exact Or.inr (Or.inl hWaiting)
      · cases hAhead

/- The model of a wanted companion is not ahead. -/
theorem caughtUp
    (h : Sound asked waiting (some c) s)
    (hWanted :
      s.registry.HasCompanion c ∨
        ∃ q ∈ waiting, q.companion = c) :
    Sound asked waiting none s :=
  { h with
    models := by
      intro v hv
      rcases h.models v hv with hPaired | hWaiting | hAhead
      · exact Or.inl hPaired
      · exact Or.inr (Or.inl hWaiting)
      · cases hAhead
        rcases hWanted with hPaired | hWaiting
        · exact Or.inl hPaired
        · exact Or.inr (Or.inl hWaiting) }

/- A model that is ahead is dropped. -/
theorem dropModel
    (h : Sound asked waiting (some c) s) :
    Sound asked waiting none (s.dropModel c) where
  ground := h.ground
  views := h.views
  models v hv := by
    rcases Table.mem_keys_erase.mp hv with ⟨hOld, hNe⟩
    rcases h.models v hOld with hPaired | hWaiting | hAhead
    · exact Or.inl hPaired
    · exact Or.inr (Or.inl hWaiting)
    · cases hAhead
      exact absurd rfl hNe

end Sound

namespace Settled

variable {asked : List DocumentPair}
variable {s t : Session Desk} {p c : String}

theorem shed
    (h : Settled asked s)
    (hSheds : s.Sheds t) :
    Settled asked t := by
  unfold Settled
  rw [hSheds.opens]
  exact Sound.shed h hSheds

/- Paired companions may be rendered. -/
theorem render
    (h : Settled asked s)
    (hPaired : s.registry.HasCompanion c)
    (m : Model) :
    Settled asked (s.render c m) := by
  refine Settled.shed ?_ (sheds_decorate _ _)
  refine ⟨h.ground, ?_, h.models⟩
  intro v hv
  rcases Overlay.Engine.mem_keys_render hv with hEq | hOld
  · rw [hEq]
    exact hPaired
  · exact h.views v hOld

/- A paired companion is read again and rendered. -/
theorem refreshAndRender
    (h : Settled asked s)
    (hPaired : s.registry.HasCompanion c)
    (m : Model) :
    Settled asked (s.refreshAndRender c m).1 := by
  rcases s.host.refresh_eq c with
    ⟨d, edited, hRefresh, hSame, hPrimary, hSecondary⟩
  have hDesk : s.Sheds { s with host := d } := by
    apply sheds_onDesk hSame.reporting hSame.opens
    intro u hOpen
    rw [Desk.isOpen_iff] at hOpen ⊢
    rw [hPrimary, hSecondary]
    exact hOpen
  rw [refreshAndRender_done s c hRefresh]
  generalize hEq :
    (if edited then
      ({ s with host := d } : Session Desk).companionEdited c
    else { s with host := d }) = t
  have hEdited : s.Sheds t ∧ t.registry = s.registry := by
    rw [← hEq]
    split
    · exact ⟨hDesk.trans (sheds_companionEdited _ c),
        companionEdited_registry _ c⟩
    · exact ⟨hDesk, rfl⟩
  have hStill : t.registry.HasCompanion c := by
    rw [hEdited.2]
    exact hPaired
  have hKept : Settled asked (t.keepModel c m) :=
    ((h.shed hEdited.1).keepModel c m).caughtUp
      (Or.inl hStill)
  exact hKept.render hStill m

end Settled

----
-- Requests
----

namespace Sound

variable {asked : List DocumentPair}
variable {s : Session Desk} {p c : String}

theorem beginOpening
    (h : Sound asked s.host.opens (some c) s)
    (hAsked : ⟨p, c⟩ ∈ asked)
    (hFree : s.registry.pairForPrimary p = none)
    (hIdle : s.registry.pendingFor p = none) :
    Settled asked (s.beginOpening p c) := by
  have hGround := h.ground.beginOpen hAsked hFree hIdle
  rw [PairRegistry.beginOpen_eq hIdle] at hGround
  unfold Session.beginOpening
  rw [PairRegistry.beginOpen_eq hIdle]
  constructor
  · exact hGround.onDesk rfl fun _ hOpen => hOpen
  · exact h.views
  · intro v hv
    rcases h.models v hv with hPaired | hWaiting | hAhead
    · exact Or.inl hPaired
    · rcases hWaiting with ⟨q, hq, hCompanion⟩
      exact Or.inr (Or.inl
        ⟨q, List.mem_append_left _ hq, hCompanion⟩)
    · cases hAhead
      exact Or.inr (Or.inl
        ⟨_, List.mem_append_right _ List.mem_cons_self, rfl⟩)

/- A companion that is nobody's is opened. -/
theorem openCompanion
    (h : Sound asked s.host.opens (some c) s)
    (hAsked : ⟨p, c⟩ ∈ asked)
    (hFree : s.registry.pairForPrimary p = none) :
    Settled asked (s.openCompanion p c) := by
  unfold Session.openCompanion
  split
  next hIdle => exact h.beginOpening hAsked hFree hIdle
  next q hPending =>
    split
    next hEq =>
      have hq := h.ground.pending q
        (PairRegistry.mem_pendingList_of_pendingFor hPending)
      exact (h.caughtUp (Or.inr ⟨q, hq, hEq⟩)).shed
        (s.sheds_log _)
    next =>
      have hSheds : s.Sheds (s.supersede p c q) := by
        change s.Sheds
          (((s.info _).withoutPending p).dropModel q.companion)
        refine Sheds.trans ?_ (sheds_dropModel _ q.companion)
        exact (s.sheds_log _).trans
          (sheds_registry (PairRegistry.loses_cancelOpen _ p)
            rfl)
      have hSuperseded := h.shed hSheds
      rw [← hSheds.opens] at hSuperseded
      exact hSuperseded.beginOpening hAsked hFree
        (Table.get?_erase_self _ p)

/- The companion of an unpaired primary is nobody else's. -/
theorem showUnpaired
    (h : Sound asked s.host.opens (some c) s)
    (hDedicated : Dedicated asked)
    (hAsked : ⟨p, c⟩ ∈ asked)
    (hFree : s.registry.pairForPrimary p = none)
    (m : Model) :
    Settled asked (s.showUnpaired p c m).1 := by
  unfold Session.showUnpaired
  split
  next shared hShared =>
    have hMem :=
      PairRegistry.mem_pairList_of_pairForCompanion hShared
    have hPrimary : shared.primary = p :=
      hDedicated.one shared (h.ground.pairs shared hMem)
        ⟨p, c⟩ hAsked
        (PairRegistry.companion_of_pairForCompanion hShared)
    have hFound := h.ground.filed.pairForPrimary hMem
    rw [hPrimary, hFree] at hFound
    cases hFound
  next => exact h.openCompanion hAsked hFree

/- A primary changes its companion. -/
theorem replacePair
    {pair : DocumentPair}
    (h : Sound asked s.host.opens (some c) s)
    (hDedicated : Dedicated asked)
    (hAsked : ⟨p, c⟩ ∈ asked)
    (hPair : s.registry.pairForPrimary p = some pair)
    (m : Model) :
    Settled asked
      ((s.replacePair pair c).showUnpaired p c m).1 := by
  have hFree :=
    pairForPrimary_replacePair h.ground.filed hPair c
  have hMem := PairRegistry.mem_pairList_of_pairForPrimary hPair
  have hSheds : s.Sheds (s.replacePair pair c) := by
    have hDropped :
        s.Sheds ((s.info
          ("Companion for " ++ pair.primary ++
            " changed from " ++ pair.companion ++ " to " ++
            c)).dropPair pair) :=
      (s.sheds_log _).trans
        (sheds_dropPair_of_mem (s := s.info _) h.ground.filed
          hMem)
    refine hDropped.trans (sheds_close hDedicated ?_ ?_ _)
    · exact h.ground.enrolled.loses hDropped.registry
    · exact hDropped.reporting.trans h.ground.reporting
  have hReplaced := h.shed hSheds
  rw [← hSheds.opens] at hReplaced
  exact hReplaced.showUnpaired hDedicated hAsked hFree m

end Sound

namespace Settled

variable {asked : List DocumentPair} {s : Session Desk}

theorem close
    (h : Settled asked s)
    (hDedicated : Dedicated asked)
    (uri : String) :
    Settled asked (s.close uri) :=
  h.shed
    (sheds_close hDedicated h.ground.enrolled
      h.ground.reporting uri)

theorem showFor
    {p c : String}
    (h : Settled asked s)
    (hDedicated : Dedicated asked)
    (hAsked : ⟨p, c⟩ ∈ asked)
    (m : Model) :
    Settled asked (s.showFor p c m).1 := by
  have hReconciled := h.shed (sheds_reconcile h.ground.filed)
  have hKept := hReconciled.keepModel c m
  unfold Session.showFor
  dsimp only
  split
  next hFree => exact hKept.showUnpaired hDedicated hAsked hFree m
  next pair hPair =>
    have hMem :=
      PairRegistry.mem_pairList_of_pairForPrimary hPair
    split
    next hEq =>
      have hCaughtUp :
          Settled asked (s.reconcile.keepModel c m) :=
        hKept.caughtUp (Or.inl ⟨pair, hMem, hEq⟩)
      exact hCaughtUp.refreshAndRender ⟨pair, hMem, hEq⟩ m
    next => exact hKept.replacePair hDedicated hAsked hPair m

end Settled

----
-- Completions
----

namespace Sound

variable {asked : List DocumentPair}
variable {waiting : List PendingOpen}
variable {s : Session Desk} {q : PendingOpen}

/- An opening ends before its model is looked at. -/
theorem finishOpen
    {i : Nat}
    (h : Sound asked waiting none s)
    (hIndex : waiting[i]? = some q) :
    Sound asked (waiting.eraseIdx i) (some q.companion)
      { s with registry := (s.registry.finishOpen q).1 } := by
  have hKept : ∀ v, s.registry.HasCompanion v →
      (s.registry.finishOpen q).1.HasCompanion v := by
    intro v hPaired
    unfold PairRegistry.HasCompanion PairRegistry.pairList
    rw [PairRegistry.pairs_finishOpen]
    exact hPaired
  refine ⟨h.ground.finishOpen hIndex, ?_, ?_⟩
  · intro v hv
    exact hKept v (h.views v hv)
  · intro v hv
    rcases h.models v hv with hPaired | hWaiting | hAhead
    · exact Or.inl (hKept v hPaired)
    · rcases hWaiting with ⟨other, hOther, hCompanion⟩
      by_cases hEq : other = q
      · subst hEq
        exact Or.inr (Or.inr (congrArg some hCompanion))
      · exact Or.inr (Or.inl
          ⟨other, mem_eraseIdx_of_ne hIndex hOther hEq,
            hCompanion⟩)
    · cases hAhead

/- A pair catches up with the model of its companion. -/
theorem register
    {p c : String}
    (h : Sound asked waiting (some c) s)
    (hAsked : ⟨p, c⟩ ∈ asked)
    (hFree : s.registry.pairForPrimary p = none)
    (hIdle : s.registry.pendingFor p = none)
    (hPrimary : Host.isOpen s.host p = true)
    (hCompanion : Host.isOpen s.host c = true) :
    Sound asked waiting none (s.register p c) := by
  have hFiled := h.ground.filed
  have hKept : ∀ v, s.registry.HasCompanion v →
      (s.registry.register p c).HasCompanion v := by
    intro v hPaired
    rcases hPaired with ⟨pair, hPair, hEq⟩
    refine ⟨pair, hFiled.mem_register.mpr (Or.inr ⟨hPair, ?_⟩),
      hEq⟩
    intro hMine
    have hFound := hFiled.pairForPrimary hPair
    rw [hMine, hFree] at hFound
    cases hFound
  refine ⟨h.ground.register hAsked hIdle hPrimary hCompanion,
    ?_, ?_⟩
  · intro v hv
    exact hKept v (h.views v hv)
  · intro v hv
    rcases h.models v hv with hPaired | hWaiting | hAhead
    · exact Or.inl (hKept v hPaired)
    · exact Or.inr (Or.inl hWaiting)
    · cases hAhead
      exact Or.inl ⟨⟨p, c⟩,
        hFiled.mem_register.mpr (Or.inl rfl), rfl⟩

end Sound

/- A companion that appears is open, and nothing is lost. -/
theorem sheds_placeOpened
    {s : Session Desk}
    (hFiled : s.registry.Filed)
    (companion : String)
    (lines : Option Int) :
    s.Sheds (s.placeOpened companion lines) ∧
      Host.isOpen (s.placeOpened companion lines).host
        companion = true := by
  rcases s.placeOpened_cases companion lines with
    ⟨counts, region, hPlace⟩
  have hAdded := Desk.isOpen_add
    { s.host with counts := counts } companion region true
  have hDesk :
      s.Sheds (s.onDesk fun d =>
        { d with counts := counts }.add companion region
          true) := by
    apply sheds_onDesk
    · cases region <;> rfl
    · cases region <;> rfl
    · intro u hOpen
      exact (hAdded u).mpr (Or.inr hOpen)
  have hOpen := (hAdded companion).mpr (Or.inl rfl)
  rcases hPlace with hPlace | hPlace
  · rw [hPlace]
    exact ⟨hDesk, hOpen⟩
  · have hNotes := reconcile_host (s.onDesk fun d =>
      { d with counts := counts }.add companion region true)
    have hStill := congrArg (Host.isOpen · companion) hNotes
    rw [hPlace]
    refine ⟨hDesk.trans (sheds_reconcile hFiled), ?_⟩
    exact hStill.trans hOpen

namespace Settled

variable {asked : List DocumentPair} {s : Session Desk}

/-
  A companion that was opened appears while its opening is
  still waited for.
-/
theorem delivered
    (h : Settled asked s)
    (i : Nat)
    (q : PendingOpen)
    (ok : Bool)
    (lines : Option Int) :
    Sound asked s.host.opens none
        (s.delivered i q ok lines) ∧
      (s.delivered i q ok lines).host.opens =
        s.host.opens.eraseIdx i ∧
      (ok = true →
        Host.isOpen (s.delivered i q ok lines).host
          q.companion = true) := by
  have hTaken :
      Sound asked s.host.opens none (s.withoutOpening i) :=
    ⟨h.ground.onDesk rfl fun _ hOpen => hOpen,
      h.views, h.models⟩
  unfold Session.delivered
  cases ok with
  | false => exact ⟨hTaken, rfl, fun hOk => by cases hOk⟩
  | true =>
      rcases sheds_placeOpened (s := s.withoutOpening i)
          h.ground.filed q.companion lines with
        ⟨hSheds, hOpen⟩
      exact ⟨hTaken.shed hSheds, hSheds.opens,
        fun _ => hOpen⟩

theorem complete
    (h : Settled asked s)
    (hDedicated : Dedicated asked)
    (i : Nat)
    (ok : Bool)
    (lines : Option Int) :
    Settled asked (s.complete i ok lines).1 := by
  cases hIndex : s.host.opens[i]? with
  | none =>
      simp only [Session.complete, hIndex]
      exact h
  | some q =>
      have hAsked :=
        h.ground.openings q (List.mem_of_getElem? hIndex)
      rcases h.delivered i q ok lines with
        ⟨hSound, hOpens, hOpen⟩
      rw [complete_eq hIndex]
      generalize s.delivered i q ok lines = t
        at hSound hOpens hOpen
      have hFinished := hSound.finishOpen hIndex
      rw [← hOpens] at hFinished
      by_cases hJoins : t.Joins q ok
      · rcases hJoins with ⟨rfl, hAwaits, hPrimary⟩
        have hFinish := PairRegistry.finishOpen_eq hAwaits
        -- The new pair takes the place of no other, whose
        -- view would stay behind.
        have hFree :
            t.registry.pairForPrimary q.primary = none := by
          apply (hSound.ground.apart q.primary).resolve_right
          intro hNone
          rw [PairRegistry.Awaits, hNone] at hAwaits
          cases hAwaits
        rw [companionOpened_awaited hFinish hPrimary]
        rw [hFinish] at hFinished
        have hJoined :
            Settled asked
              (({ t with
                  registry :=
                    { t.registry with
                      pending :=
                        Table.erase t.registry.pending
                          q.primary } } :
                Session Desk).register q.primary
                  q.companion) :=
          hFinished.register hAsked hFree
            (Table.get?_erase_self _ _) hPrimary (hOpen rfl)
        cases Table.get? t.models q.companion with
        | none => exact hJoined
        | some m =>
            refine hJoined.render ⟨⟨q.primary, q.companion⟩,
              ?_, rfl⟩ m
            exact hFinished.ground.filed.mem_register.mpr
              (Or.inl rfl)
      · cases ok with
        | false =>
            exact (hFinished.shed (sheds_log _ _)).dropModel
        | true =>
            rcases companionOpened_orphaned hJoins with
              ⟨text, hOpened⟩
            rw [hOpened]
            have hDropped :
                Settled asked
                  ((({ t with
                      registry :=
                        (t.registry.finishOpen q).1 } :
                    Session Desk).info text).dropModel
                      q.companion) :=
              (hFinished.shed (sheds_log _ _)).dropModel
            exact hDropped.close hDedicated q.companion

----
-- Runs
----

/- Every event but one keeps a session settled. -/
theorem step
    {e : Event}
    (h : Settled asked s)
    (hDedicated : Dedicated asked)
    (hAsks : ∀ pair ∈ s.asks e, pair ∈ asked)
    (hKept : ∀ uri, e ≠ .takeOut uri) :
    Settled asked (s.step e) := by
  have hFiled := h.ground.filed
  have hEnrolled := h.ground.enrolled
  have hReporting := h.ground.reporting
  cases e with
  | place uri region active =>
      have hAdded :=
        s.host.isOpen_add uri region active
      apply h.shed
      apply sheds_onDesk
      · cases region <;> rfl
      · cases region <;> rfl
      · intro u hOpen
        exact (hAdded u).mpr (Or.inr hOpen)
  | takeOut uri => exact absurd rfl (hKept uri)
  | close uri => exact h.close hDedicated uri
  | prepareReload _ _ =>
      exact h.shed (sheds_onDesk rfl rfl fun _ hOpen => hOpen)
  | setCount _ _ =>
      exact h.shed (sheds_onDesk rfl rfl fun _ hOpen => hOpen)
  | complete i ok lines => exact h.complete hDedicated i ok lines
  | showCompanion uri m given =>
      cases hPair : s.asks (.showCompanion uri m given) with
      | none =>
          rcases step_of_asks_eq_none hPair with ⟨text, hStep⟩
          rw [hStep]
          exact h.shed (s.sheds_log _)
      | some pair =>
          rcases step_of_asks hPair with ⟨m', hStep⟩
          rw [hStep]
          exact h.showFor hDedicated (hAsks pair hPair) m'
  | documentOpened => exact h.shed (sheds_reconcile hFiled)
  | activeViewChanged uri =>
      exact h.shed (sheds_activeViewChanged hFiled uri)
  | documentClosed uri =>
      exact h.shed
        ((sheds_releaseClosed hFiled uri).closeReleased
          hDedicated hEnrolled hReporting)
  | companionEdited uri =>
      exact h.shed (s.sheds_companionEdited uri)
  | primaryClosed uri =>
      exact h.shed
        ((sheds_releasePrimary hFiled uri).closeReleased
          hDedicated hEnrolled hReporting)
  | companionClosed uri =>
      exact h.shed (sheds_companionClosed hFiled uri)
  | reconcile => exact h.shed (sheds_reconcile hFiled)
  | teardown => exact h.shed s.sheds_teardown
  | setPaletteSize size =>
      exact h.shed (s.sheds_setPaletteSize size)

theorem run
    {events : List Event}
    (h : Settled asked s)
    (hDedicated : Dedicated asked)
    (hAsked : ∀ pair ∈ s.asked events, pair ∈ asked)
    (hKept : ∀ uri, Event.takeOut uri ∉ events) :
    Settled asked (s.run events) := by
  induction events generalizing s with
  | nil => exact h
  | cons e events ih =>
      apply ih
      · apply h.step hDedicated
        · intro pair hPair
          apply hAsked
          exact List.mem_append_left _
            (Option.mem_toList.mpr hPair)
        · intro uri hEq
          subst hEq
          exact hKept uri List.mem_cons_self
      · intro pair hPair
        exact hAsked pair (List.mem_append_right _ hPair)
      · intro uri hMem
        exact hKept uri (List.mem_cons_of_mem e hMem)

end Settled

/-
  After every run over a reporting desk whose documents only
  disappear by being closed, and in which every companion is
  asked for by one primary and is none itself, the pairs, the
  views and the models agree with the desk.
-/
theorem coherent_run
    (paletteSize : Nat)
    {desk : Desk}
    {events : List Event}
    (hIdle : desk.opens = [])
    (hReporting : desk.reporting = true)
    (hKept : ∀ uri, Event.takeOut uri ∉ events)
    (hDedicated :
      Dedicated
        ((Session.new paletteSize desk).asked events)) :
    ((Session.new paletteSize desk).run events).Coherent := by
  apply Settled.coherent
  apply (settled_new _ paletteSize hIdle hReporting).run
    hDedicated
  · intro pair hPair
    exact hPair
  · exact hKept

/-
  Two pages ask for stylesheets.  The first is changed and
  asked for again, and the second is still being opened.
-/
def twoPages : List Event :=
  [.place "file:///index.html" .primary true,
    .place "file:///about.html" .primary true,
    .request "file:///a.css" "file:///index.html",
    .complete 0 true (some 1),
    .prepareReload "file:///a.css" 2,
    .request "file:///a.css" "file:///index.html",
    .request "file:///b.css" "file:///about.html"]

/- One has a pair, a view and a model, the other a model. -/
theorem twoPages_coherent :
    Dedicated
        ((Session.new 8 (Desk.new true)).asked twoPages) ∧
      ((Session.new 8 (Desk.new true)).run
        twoPages).registry.pairList =
          [⟨"file:///index.html", "file:///a.css"⟩] ∧
      ((Session.new 8 (Desk.new true)).run
        twoPages).engine.hasRender "file:///a.css" = true ∧
      Table.keys ((Session.new 8 (Desk.new true)).run
        twoPages).models =
          ["file:///a.css", "file:///b.css"] ∧
      ((Session.new 8 (Desk.new true)).run
        twoPages).Coherent := by
  have hDedicated :
      Dedicated
        ((Session.new 8 (Desk.new true)).asked twoPages) := by
    decide
  refine ⟨hDedicated, rfl, rfl, rfl, ?_⟩
  apply coherent_run 8 rfl rfl _ hDedicated
  intro uri hMem
  simp [twoPages, Event.request] at hMem

end Session

end Pairing

end StyleCompanion
