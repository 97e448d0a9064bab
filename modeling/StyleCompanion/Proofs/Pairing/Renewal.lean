import StyleCompanion.Proofs.Overlay.Rendering
import StyleCompanion.Proofs.Pairing.Accounts
import StyleCompanion.Proofs.Pairing.Bursts
import StyleCompanion.Proofs.Text.Blank

/-
  Showing a companion that is paired.

  A primary may ask again for the companion that it has, or
  for one that serves another primary.  The companion is read
  again then, which may report a change of its text and so
  discard the model and the render that are being installed.
  They are installed all the same, since both are set after
  the report.

  Main declarations:
    * `Session.Arises`
    * `Session.Arises.named`
    * `Session.pairList_reconcile`
    * `Session.Installs`
    * `Session.installs_refreshAndRender`
    * `Session.shown_again_installs_model`
-/

namespace StyleCompanion

namespace Pairing

open Attribution

----
-- Pairs that survive
----

namespace PairRegistry

/- The pairs that are left when one is removed. -/
theorem Filed.pairList_remove
    {r : PairRegistry}
    (h : r.Filed)
    (p : String) :
    (r.remove p).pairList =
      r.pairList.filter fun pair => decide (pair.primary ≠ p) := by
  unfold pairList remove Table.erase Table.values
  rw [List.filter_map]
  apply congrArg
  apply List.filter_congr
  intro e he
  have hPrimary := h.pairs e he
  simp only [Function.comp, hPrimary]

/- A primary without a pair is registered at the end. -/
theorem pairList_register_of_none
    {r : PairRegistry}
    {p : String}
    (h : r.pairForPrimary p = none)
    (c : String) :
    (r.register p c).pairList = r.pairList ++ [⟨p, c⟩] := by
  have hKeys := pairForPrimary_eq_none_iff.mp h
  unfold pairList register Table.values
  rw [Table.insert_of_notMem_keys hKeys, List.map_append]
  rfl

end PairRegistry

namespace Session

section AnyHost

variable {H : Type} [Host H] (s : Session H)

/-
  Of the pairs that are looked at, those with a companion that
  is present stay, and so do all others.
-/
theorem pairList_unpairAll
    {present : List String}
    {pairs : List DocumentPair}
    (hFiled : s.registry.Filed)
    (hOnly :
      ∀ x ∈ s.registry.pairList, ∀ y ∈ pairs,
        x.primary = y.primary → x = y) :
    (pairs.foldl (unpairVanished present)
        s).registry.pairList =
      s.registry.pairList.filter fun x =>
        decide (x ∈ pairs → x.companion ∈ present) := by
  induction pairs generalizing s with
  | nil => simp
  | cons y pairs ih =>
      have hRest :
          ∀ x ∈ s.registry.pairList, ∀ z ∈ pairs,
            x.primary = z.primary → x = z := by
        intro x hx z hz
        exact hOnly x hx z (List.mem_cons_of_mem y hz)
      rw [List.foldl_cons]
      by_cases hThere : y.companion ∈ present
      · have hStep : unpairVanished present s y = s :=
          if_pos hThere
        rw [hStep, ih s hFiled hRest]
        apply List.filter_congr
        intro x _
        by_cases hx : x = y
        · simp [hx, hThere]
        · simp [hx]
      · have hStep :
            (unpairVanished present s y).registry =
              s.registry.remove y.primary := by
          unfold unpairVanished
          rw [if_neg hThere]
          rfl
        have hLoses := s.registry.loses_remove y.primary
        rw [ih _ (hStep ▸ hLoses.filed hFiled) ?_, hStep,
          hFiled.pairList_remove, List.filter_filter]
        · apply List.filter_congr
          intro x hx
          by_cases hEq : x = y
          · simp [hEq, hThere]
          · have hOther : x.primary ≠ y.primary := fun h =>
              hEq (hOnly x hx y List.mem_cons_self h)
            simp [hEq, hOther]
        · intro x hx
          rw [hStep] at hx
          exact hRest x (hLoses.mem_pairList hx)

/- A reconciliation keeps the pairs that are complete. -/
theorem pairList_reconcile
    (hFiled : s.registry.Filed) :
    s.reconcile.registry.pairList =
      s.registry.pairList.filter fun pair =>
        decide (pair.companion ∈
          Host.documentsIn s.host .secondary) := by
  have hOnly :
      ∀ x ∈ s.registry.pairList, ∀ y ∈ s.registry.pairList,
        x.primary = y.primary → x = y :=
    fun _ hx _ hy => hFiled.eq_of_primary hx hy
  unfold reconcile
  rw [pairList_unpairAll s hFiled hOnly]
  apply List.filter_congr
  intro x hx
  simp [hx]

/- A companion that is present has the same first pair. -/
theorem pairForCompanion_reconcile
    (hFiled : s.registry.Filed)
    {c : String}
    (hPresent : c ∈ Host.documentsIn s.host .secondary) :
    s.reconcile.registry.pairForCompanion c =
      s.registry.pairForCompanion c := by
  unfold PairRegistry.pairForCompanion
  rw [pairList_reconcile s hFiled, List.find?_filter]
  congr 1
  funext pair
  by_cases hEq : pair.companion = c
  · simp [hEq, hPresent]
  · simp [hEq]

end AnyHost

----
-- Pairs have names
----

/- A session that a run over an idle desk leads to. -/
def Arises
    (s : Session Desk) : Prop :=
  ∃ paletteSize desk events,
    desk.opens = [] ∧
      s = (Session.new paletteSize desk).run events

/- Whatever is asked for has names without blanks around. -/
theorem named_of_asks
    {s : Session Desk}
    {e : Event}
    {pair : DocumentPair}
    (h : s.asks e = some pair) :
    pair.primary ≠ "" ∧ pair.companion ≠ "" ∧
      Text.trim pair.companion = pair.companion := by
  unfold asks at h
  split at h
  next uri _ given =>
    split at h
    next => cases h
    next hNamed =>
      rw [not_or] at hNamed
      cases h
      exact ⟨hNamed.2, hNamed.1, Text.trim_trim uri⟩
  next => cases h

theorem named_of_mem_asked
    {s : Session Desk}
    {events : List Event}
    {pair : DocumentPair}
    (h : pair ∈ s.asked events) :
    pair.primary ≠ "" ∧ pair.companion ≠ "" ∧
      Text.trim pair.companion = pair.companion := by
  induction events generalizing s with
  | nil => cases h
  | cons e events ih =>
      rcases List.mem_append.mp h with hFirst | hLater
      · exact named_of_asks (Option.mem_toList.mp hFirst)
      · exact ih hLater

namespace Arises

variable {s : Session Desk}

theorem filed
    (h : s.Arises) :
    s.registry.Filed := by
  rcases h with ⟨paletteSize, desk, events, -, rfl⟩
  exact filed_run paletteSize desk events

/- All pairs go back to requests, which have names. -/
theorem named
    (h : s.Arises)
    {pair : DocumentPair}
    (hPair : pair ∈ s.registry.pairList) :
    pair.primary ≠ "" ∧ pair.companion ≠ "" ∧
      Text.trim pair.companion = pair.companion := by
  rcases h with ⟨paletteSize, desk, events, hIdle, rfl⟩
  have hNew :=
    accounted_new
      ((Session.new paletteSize desk).asked events)
      paletteSize hIdle
  have hAccounted := hNew.run fun pair hAsked => hAsked
  exact named_of_mem_asked
    (hAccounted.enrolled.pairs pair hPair)

end Arises

----
-- What is noted down
----

/- A desk notes down the calls of a surface. -/
theorem painted_decorate
    (d : Desk)
    (effects : List Overlay.Effect) :
    (effects.foldl Host.decorate d).painted =
      d.painted ++ Overlay.surfaceCalls effects := by
  have hCalls :
      effects.filter (·.isPainted) =
        Overlay.surfaceCalls effects := by
    apply List.filter_congr
    intro effect _
    cases effect <;> rfl
  rcases d.exists_records_decorate effects with
    ⟨records, hDesk⟩
  rw [hDesk, ← hCalls]

theorem calls_decorate
    (d : Desk)
    (effects : List Overlay.Effect) :
    (effects.foldl Host.decorate d).calls = d.calls := by
  rcases d.exists_records_decorate effects with
    ⟨records, hDesk⟩
  rw [hDesk]

/-
  Reading a document again is noted down, and finds as many
  lines as were prepared.
-/
theorem refresh_notes
    (d : Desk)
    (c : String) :
    ∃ e edited,
      d.refresh c = .done e edited ∧
        e.calls = d.calls ++ [.refresh c] ∧
        e.painted = d.painted ∧
        e.opens = d.opens ∧
        Host.lineCount e c =
          (Table.get? d.reloads c).or
            (Host.lineCount d c) := by
  unfold Desk.refresh
  dsimp only
  split
  next hNone =>
    have hLines : Table.get? d.reloads c = none := hNone
    refine ⟨_, _, rfl, rfl, rfl, rfl, ?_⟩
    rw [hLines]
    rfl
  next n hSome =>
    have hLines : Table.get? d.reloads c = some n := hSome
    refine ⟨_, _, rfl, rfl, rfl, rfl, ?_⟩
    rw [hLines]
    exact Table.get?_insert_self _ _ _

/- A change of the text is at most cleared away. -/
theorem companionEdited_notes
    (s : Session Desk)
    (c : String) :
    ∃ cleared,
      (s.companionEdited c).host.painted =
          s.host.painted ++ cleared ∧
        (∀ effect ∈ cleared, effect = .clear c) ∧
        (s.companionEdited c).host.calls = s.host.calls ∧
        (s.companionEdited c).engine.paletteSize =
          s.engine.paletteSize := by
  unfold companionEdited
  split
  · refine ⟨[], (List.append_nil _).symm, ?_, rfl, rfl⟩
    intro effect hEffect
    cases hEffect
  · refine ⟨_, painted_decorate _ _, ?_, calls_decorate _ _,
      rfl⟩
    intro effect hEffect
    have hMem := List.mem_of_mem_filter hEffect
    unfold Overlay.Engine.clear at hMem
    dsimp only at hMem
    split at hMem
    · cases hMem
    · exact List.mem_singleton.mp hMem

----
-- Installing a model
----

/-
  The picture of a model on a view: the view is cleared and
  painted.
-/
def picture
    (c : String)
    (m : Model)
    (paletteSize : Nat)
    (count : Int) : List Overlay.Effect :=
  .clear c ::
    (Overlay.paintFor m (.assign m paletteSize) count).map
      fun p => .paint c p.1 p.2

/-
  A model was installed on a companion: it is kept and held by
  the engine, and its picture for the number of lines that the
  reading has found was painted last.  No opening was begun or
  given up.
-/
structure Installs
    (c : String)
    (m : Model)
    (s t : Session Desk) : Prop where
  opens : t.host.opens = s.host.opens
  pending : t.registry.pending = s.registry.pending
  model : Table.get? t.models c = some m
  view : t.engine.modelFor c = some m
  lines :
    Host.lineCount t.host c =
      (Table.get? s.host.reloads c).or
        (Host.lineCount s.host c)
  painted :
    ∃ cleared count,
      Host.lineCount t.host c = some count ∧
        t.host.painted =
          s.host.painted ++ cleared ++
            picture c m s.engine.paletteSize count ∧
        ∀ effect ∈ cleared, effect = .clear c

/- A render of a model that is kept installs it. -/
theorem painted_render
    (s : Session Desk)
    {c : String}
    {count : Int}
    (hCount : Host.lineCount s.host c = some count)
    (m : Model) :
    (s.render c m).host.painted =
      s.host.painted ++
        picture c m s.engine.paletteSize count := by
  unfold render picture
  dsimp only
  rw [hCount, ← Overlay.surfaceCalls_render]
  exact painted_decorate _ _

/-
  What is installed does not depend on whether the reading
  reports a change: the model is kept and rendered after it.
-/
theorem installs_refreshAndRender
    (s : Session Desk)
    {c : String}
    (hCounted : (Host.lineCount s.host c).isSome = true)
    (m : Model) :
    s.Installs c m (s.refreshAndRender c m).1 ∧
      (s.refreshAndRender c m).1.host.calls =
        s.host.calls ++ [.refresh c] := by
  rcases refresh_notes s.host c with
    ⟨e, edited, hRefresh, hCalls, hPainted, hOpens, hLines⟩
  have hSome :
      ((Table.get? s.host.reloads c).or
        (Host.lineCount s.host c)).isSome = true := by
    rw [Option.isSome_or, hCounted, Bool.or_true]
  rcases Option.isSome_iff_exists.mp hSome with
    ⟨count, hCount⟩
  rw [hCount] at hLines
  -- The session in which the model is kept.
  let u : Session Desk :=
    if edited then
      ({ s with host := e } : Session Desk).companionEdited c
    else { s with host := e }
  have hNotes :
      u.host.forgetNotes = e.forgetNotes ∧
        u.registry = s.registry ∧
        u.host.calls = e.calls ∧
        u.engine.paletteSize = s.engine.paletteSize ∧
        ∃ cleared,
          u.host.painted = e.painted ++ cleared ∧
            ∀ effect ∈ cleared, effect = .clear c := by
    cases edited with
    | false =>
        refine ⟨rfl, rfl, rfl, rfl, [], ?_, ?_⟩
        · exact (List.append_nil _).symm
        · intro effect hEffect
          cases hEffect
    | true =>
        rcases companionEdited_notes { s with host := e } c with
          ⟨cleared, hCleared, hOnly, hSame, hSize⟩
        exact ⟨companionEdited_host _ c,
          companionEdited_registry _ c, hSame, hSize, cleared,
          hCleared, hOnly⟩
  rcases hNotes with
    ⟨hNotes, hRegistry, hSame, hSize, cleared, hCleared, hOnly⟩
  have hResult :
      (s.refreshAndRender c m).1 =
        (u.keepModel c m).render c m :=
    refreshAndRender_done s c hRefresh m
  have hBefore :
      Host.lineCount (u.keepModel c m).host c =
        some count := by
    have hCounts := congrArg Desk.counts hNotes
    exact (congrArg (Table.get? · c) hCounts).trans hLines
  have hAfter :
      Host.lineCount ((u.keepModel c m).render c m).host c =
        some count := by
    have hCounts := congrArg Desk.counts
      (render_host (u.keepModel c m) c m)
    exact (congrArg (Table.get? · c) hCounts).trans hBefore
  rw [hResult]
  refine ⟨⟨?_, ?_, ?_, ?_, ?_, cleared, count, hAfter, ?_,
    hOnly⟩, ?_⟩
  · have hDesk := render_host (u.keepModel c m) c m
    exact (congrArg Desk.opens hDesk).trans
      ((congrArg Desk.opens hNotes).trans hOpens)
  · exact congrArg PairRegistry.pending hRegistry
  · exact Table.get?_insert_self u.models c m
  · rw [render_modelFor, hAfter]
    rfl
  · rw [hAfter, hCount]
  · rw [painted_render _ hBefore]
    change u.host.painted ++
      picture c m u.engine.paletteSize count = _
    rw [hCleared, hPainted, hSize]
  · refine (calls_decorate _ _).trans ?_
    exact hSame.trans hCalls

----
-- Getting ready
----

/-
  A session got ready for an installation: pairs, models and
  active documents may have changed, but no opening, no
  number of lines and nothing that is painted.
-/
structure Readies
    (s u : Session Desk) : Prop where
  opens : u.host.opens = s.host.opens
  pending : u.registry.pending = s.registry.pending
  reloads : u.host.reloads = s.host.reloads
  counts : u.host.counts = s.host.counts
  painted : u.host.painted = s.host.painted
  paletteSize : u.engine.paletteSize = s.engine.paletteSize

theorem readies_reconcile
    (s : Session Desk) :
    s.Readies s.reconcile := by
  rcases s.exists_records_reconcile with ⟨records, hHost⟩
  refine ⟨?_, s.pending_reconcile, ?_, ?_, ?_,
    s.paletteSize_reconcile⟩ <;> rw [hHost]

/- Bringing a document forward is noted down. -/
theorem reveal_notes
    (d : Desk)
    (uri : String)
    (region : Region) :
    (d.reveal uri region).calls =
        d.calls ++ [.reveal uri region] ∧
      (d.reveal uri region).opens = d.opens ∧
      (d.reveal uri region).reloads = d.reloads ∧
      (d.reveal uri region).counts = d.counts ∧
      (d.reveal uri region).painted = d.painted := by
  unfold Desk.reveal
  dsimp only
  split
  next => exact ⟨rfl, rfl, rfl, rfl, rfl⟩
  next r _ => cases r <;> exact ⟨rfl, rfl, rfl, rfl, rfl⟩

/- A companion that moves to a primary is brought forward. -/
theorem readies_takeOver
    (s : Session Desk)
    (p : String)
    (shared : DocumentPair) :
    s.Readies (s.takeOver p shared) ∧
      (s.takeOver p shared).host.calls =
        s.host.calls ++
          [.reveal shared.companion .secondary] := by
  rcases reveal_notes (Host.log s.host _) shared.companion
      .secondary with
    ⟨hCalls, hOpens, hReloads, hCounts, hPainted⟩
  exact ⟨⟨hOpens, rfl, hReloads, hCounts, hPainted, rfl⟩,
    hCalls⟩

theorem calls_reconcile
    (s : Session Desk) :
    s.reconcile.host.calls = s.host.calls := by
  rcases s.exists_records_reconcile with ⟨records, hHost⟩
  rw [hHost]

/- Keeping the model early does not matter. -/
theorem Readies.keepModel
    {s u : Session Desk}
    (h : s.Readies u)
    (c : String)
    (m : Model) :
    s.Readies (u.keepModel c m) :=
  ⟨h.opens, h.pending, h.reloads, h.counts, h.painted,
    h.paletteSize⟩

theorem Readies.trans
    {s u v : Session Desk}
    (h : s.Readies u)
    (k : u.Readies v) :
    s.Readies v where
  opens := k.opens.trans h.opens
  pending := k.pending.trans h.pending
  reloads := k.reloads.trans h.reloads
  counts := k.counts.trans h.counts
  painted := k.painted.trans h.painted
  paletteSize := k.paletteSize.trans h.paletteSize

theorem Readies.lineCount_eq
    {s u : Session Desk}
    (h : s.Readies u)
    (c : String) :
    Host.lineCount u.host c = Host.lineCount s.host c :=
  congrArg (Table.get? · c) h.counts

theorem Readies.isSome_lineCount
    {s u : Session Desk}
    (h : s.Readies u)
    {c : String}
    (hCounted : (Host.lineCount s.host c).isSome = true) :
    (Host.lineCount u.host c).isSome = true := by
  rw [h.lineCount_eq, hCounted]

/- What a session that got ready installs is installed. -/
theorem Readies.installs
    {c : String}
    {m : Model}
    {s u t : Session Desk}
    (h : s.Readies u)
    (hInstalls : u.Installs c m t) :
    s.Installs c m t where
  opens := hInstalls.opens.trans h.opens
  pending := hInstalls.pending.trans h.pending
  model := hInstalls.model
  view := hInstalls.view
  lines := by
    rw [hInstalls.lines, h.reloads, h.lineCount_eq]
  painted := by
    rcases hInstalls.painted with
      ⟨cleared, count, hCount, hPicture, hOnly⟩
    rw [h.painted, h.paletteSize] at hPicture
    exact ⟨cleared, count, hCount, hPicture, hOnly⟩

----
-- Requests
----

/- A request with names is served. -/
theorem showCompanion_eq_showFor
    (s : Session Desk)
    {p c : String}
    (hPrimary : p ≠ "")
    (hCompanion : c ≠ "")
    (hTrimmed : Text.trim c = c)
    (m : Model) :
    s.showCompanion c m (some p) = s.showFor p c m := by
  simp only [showCompanion, primaryFor, hTrimmed,
    String.isEmpty_iff, hPrimary, hCompanion, if_false]

/- Every desk can read a document again. -/
theorem refreshAndRender_snd
    (s : Session Desk)
    (c : String)
    (m : Model) :
    (s.refreshAndRender c m).2 = none := by
  rcases refresh_notes s.host c with ⟨e, edited, hRefresh, -⟩
  simp only [refreshAndRender, Host.refresh, hRefresh]

/- The pairs whose companions have not vanished. -/
def survivors
    (s : Session Desk) : List DocumentPair :=
  s.registry.pairList.filter fun pair =>
    decide (pair.companion ∈ s.host.secondary.documents)

/- A primary without a survivor has no pair any more. -/
theorem pairForPrimary_reconcile_eq_none
    {s : Session Desk}
    (hFiled : s.registry.Filed)
    {p : String}
    (hFree : ∀ pair ∈ s.survivors, pair.primary ≠ p) :
    s.reconcile.registry.pairForPrimary p = none := by
  cases hPair : s.reconcile.registry.pairForPrimary p with
  | none => rfl
  | some pair =>
      have hReconciled := s.loses_reconcile.filed hFiled
      have hMem : pair ∈ s.reconcile.registry.pairList :=
        Table.mem_values.mpr ⟨p, Table.mem_of_get? hPair⟩
      rw [pairList_reconcile s hFiled] at hMem
      exact absurd (hReconciled.primary_eq hPair)
        (hFree pair hMem)

/- A companion that its primary has is read again. -/
theorem showFor_paired
    {s : Session Desk}
    {p c : String}
    (hPair :
      s.reconcile.registry.pairForPrimary p = some ⟨p, c⟩)
    (m : Model) :
    s.showFor p c m =
      (s.reconcile.keepModel c m).refreshAndRender c m := by
  have hKept :
      (s.reconcile.keepModel c m).registry.pairForPrimary p =
        some ⟨p, c⟩ := hPair
  simp only [showFor, hKept, if_true]

/- A companion that another primary has moves. -/
theorem showFor_shared
    {s : Session Desk}
    {p c : String}
    {shared : DocumentPair}
    (hFree : s.reconcile.registry.pairForPrimary p = none)
    (hShared :
      s.reconcile.registry.pairForCompanion c = some shared)
    (m : Model) :
    s.showFor p c m =
      ((s.reconcile.keepModel c m).takeOver p
        shared).refreshAndRender c m := by
  have hKeptFree :
      (s.reconcile.keepModel c m).registry.pairForPrimary p =
        none := hFree
  have hKeptShared :
      (s.reconcile.keepModel c m).registry.pairForCompanion
        c = some shared := hShared
  simp only [showFor, hKeptFree, showUnpaired, hKeptShared]

section Shown

variable
  {s : Session Desk}
  (hArises : s.Arises)
  {c : String}
  (hPresent : c ∈ s.host.secondary.documents)
  (hCounted : (Host.lineCount s.host c).isSome = true)
  (m : Model)
  {p : String}

include hArises hPresent hCounted

/- A request of the primary that has the companion. -/
theorem installs_for_paired
    (hPair : s.registry.pairForPrimary p = some ⟨p, c⟩) :
    ∃ t, s.showCompanion c m (some p) = (t, none) ∧
      s.Installs c m t ∧
      t.registry.pairList = s.survivors ∧
      t.host.calls = s.host.calls ++ [.refresh c] := by
  have hFiled := hArises.filed
  have hMem : (⟨p, c⟩ : DocumentPair) ∈ s.registry.pairList :=
    Table.mem_values.mpr ⟨p, Table.mem_of_get? hPair⟩
  rcases hArises.named hMem with
    ⟨hPrimary, hCompanion, hTrimmed⟩
  have hShow :=
    showFor_paired
      (s.pairForPrimary_reconcile hFiled hMem hPresent) m
  have hReady := s.readies_reconcile.keepModel c m
  rcases installs_refreshAndRender _
      (hReady.isSome_lineCount hCounted) m with
    ⟨hInstalls, hCalls⟩
  refine ⟨_, ?_, hReady.installs hInstalls, ?_, ?_⟩
  · rw [showCompanion_eq_showFor s hPrimary hCompanion
      hTrimmed, hShow]
    exact Prod.ext rfl (refreshAndRender_snd _ c m)
  · rw [refreshAndRender_registry]
    exact s.pairList_reconcile hFiled
  · rw [hCalls]
    exact congrArg (· ++ _) s.calls_reconcile

/- A request of a primary that takes the companion over. -/
theorem installs_for_taker
    {shared : DocumentPair}
    (hPrimary : p ≠ "")
    (hFree : ∀ pair ∈ s.survivors, pair.primary ≠ p)
    (hShared : s.registry.pairForCompanion c = some shared) :
    ∃ t, s.showCompanion c m (some p) = (t, none) ∧
      s.Installs c m t ∧
      t.registry.pairList =
        (s.survivors.filter fun pair =>
          decide (pair.primary ≠ shared.primary)) ++
            [⟨p, c⟩] ∧
      t.host.calls =
        s.host.calls ++ [.reveal c .secondary, .refresh c] := by
  have hFiled := hArises.filed
  have hReconciled := s.loses_reconcile.filed hFiled
  have hMem :=
    PairRegistry.mem_pairList_of_pairForCompanion hShared
  have hEq :=
    PairRegistry.companion_of_pairForCompanion hShared
  rcases hArises.named hMem with ⟨-, hCompanion, hTrimmed⟩
  rw [hEq] at hCompanion hTrimmed
  have hNone :=
    pairForPrimary_reconcile_eq_none hFiled hFree
  have hStill :=
    (s.pairForCompanion_reconcile hFiled hPresent).trans
      hShared
  rcases readies_takeOver (s.reconcile.keepModel c m) p
      shared with
    ⟨hTaken, hRevealed⟩
  have hReady :=
    (s.readies_reconcile.keepModel c m).trans hTaken
  rcases installs_refreshAndRender _
      (hReady.isSome_lineCount hCounted) m with
    ⟨hInstalls, hCalls⟩
  refine ⟨_, ?_, hReady.installs hInstalls, ?_, ?_⟩
  · rw [showCompanion_eq_showFor s hPrimary hCompanion
      hTrimmed, showFor_shared hNone hStill]
    exact Prod.ext rfl (refreshAndRender_snd _ c m)
  · have hLost :=
      (s.reconcile.registry.loses_remove
        shared.primary).pairForPrimary_eq_none hNone
    rw [refreshAndRender_registry]
    refine (PairRegistry.pairList_register_of_none hLost
      shared.companion).trans ?_
    rw [hReconciled.pairList_remove,
      s.pairList_reconcile hFiled, hEq]
    rfl
  · rw [hCalls, hRevealed, hEq, List.append_assoc]
    exact congrArg (· ++ _) s.calls_reconcile

end Shown

/-
  A companion that is shown again is read again and gets the
  new model, whatever the reading reports.  So does one that
  serves another primary, which loses its pair.  Nothing is
  opened or closed.
-/
theorem shown_again_installs_model
    {s : Session Desk}
    (hArises : s.Arises)
    {c : String}
    (hPresent : c ∈ s.host.secondary.documents)
    (hCounted : (Host.lineCount s.host c).isSome = true)
    (m : Model)
    (p : String) :
    (s.registry.pairForPrimary p = some ⟨p, c⟩ →
      ∃ t, s.showCompanion c m (some p) = (t, none) ∧
        s.Installs c m t ∧
        t.registry.pairList = s.survivors ∧
        t.host.calls = s.host.calls ++ [.refresh c]) ∧
    (∀ shared, p ≠ "" →
      (∀ pair ∈ s.survivors, pair.primary ≠ p) →
      s.registry.pairForCompanion c = some shared →
      ∃ t, s.showCompanion c m (some p) = (t, none) ∧
        s.Installs c m t ∧
        t.registry.pairList =
          (s.survivors.filter fun pair =>
            decide (pair.primary ≠ shared.primary)) ++
              [⟨p, c⟩] ∧
        t.host.calls =
          s.host.calls ++
            [.reveal c .secondary, .refresh c]) := by
  constructor
  · intro hPair
    exact installs_for_paired hArises hPresent hCounted m hPair
  · intro shared hPrimary hFree hShared
    exact installs_for_taker hArises hPresent hCounted m
      hPrimary hFree hShared

/-
  A stylesheet that was rendered for one of two pages, and of
  which the next reading finds and reports another text.
-/
def outdated : Session Desk :=
  (Session.new 8 (Desk.new true)).run
    [.place "file:///index.html" .primary true,
      .place "file:///about.html" .primary true,
      .request "file:///a.css" "file:///index.html",
      .complete 0 true (some 5),
      .prepareReload "file:///a.css" 2]

/- Each page can show the stylesheet with a new model. -/
theorem outdated_renewed :
    outdated.engine.hasRender "file:///a.css" = true ∧
      (∃ e, outdated.host.refresh "file:///a.css" =
        .done e true) ∧
      (∃ t,
        outdated.showCompanion "file:///a.css" oneLiner
            (some "file:///index.html") = (t, none) ∧
          outdated.Installs "file:///a.css" oneLiner t ∧
          t.registry.pairList =
            [⟨"file:///index.html", "file:///a.css"⟩]) ∧
      (∃ t,
        outdated.showCompanion "file:///a.css" oneLiner
            (some "file:///about.html") = (t, none) ∧
          outdated.Installs "file:///a.css" oneLiner t ∧
          t.registry.pairList =
            [⟨"file:///about.html", "file:///a.css"⟩]) := by
  have hArises : outdated.Arises := ⟨8, _, _, rfl, rfl⟩
  have hAgain :=
    shown_again_installs_model hArises
      (c := "file:///a.css") (by decide) rfl oneLiner
  have hPairs :
      outdated.survivors =
        [⟨"file:///index.html", "file:///a.css"⟩] := by
    decide
  refine ⟨rfl, ⟨_, rfl⟩, ?_, ?_⟩
  · rcases (hAgain "file:///index.html").1 rfl with
      ⟨t, hShow, hInstalls, hList, -⟩
    exact ⟨t, hShow, hInstalls, hList.trans hPairs⟩
  · rcases (hAgain "file:///about.html").2
        ⟨"file:///index.html", "file:///a.css"⟩ (by decide)
        (by decide) rfl with
      ⟨t, hShow, hInstalls, hList, -⟩
    rw [hPairs] at hList
    exact ⟨t, hShow, hInstalls, hList⟩

end Session

end Pairing

end StyleCompanion
