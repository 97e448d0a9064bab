import StyleCompanion.Proofs.Pairing.Closing

/-
  What the pairing leaves behind on a desk.

  Most operations only shed.  They lose pairs and openings,
  models and views.  A pair that is lost takes the model and
  the view of its companion with it, and a document that a
  pair still mentions stays open.  A closing sheds as well if
  it is reported and no companion is a primary.

  Main declarations:
    * `Session.Sheds`
    * `Session.sheds_dropPair`
    * `Session.sheds_reconcile`
    * `Session.sheds_teardown`
    * `Session.Dedicated`
    * `Session.sheds_close`
-/

namespace StyleCompanion

namespace Pairing

namespace Session

----
-- Shedding
----

/-
  What is kept for documents is kept for fewer of them, and
  for companions only while they are paired.
-/
def Keeps
    (r t : PairRegistry)
    (before after : List String) : Prop :=
  ∀ v ∈ after,
    v ∈ before ∧ (r.HasCompanion v → t.HasCompanion v)

/- A session that has lost something and gained nothing. -/
structure Sheds
    (s t : Session Desk) : Prop where
  registry : s.registry.Loses t.registry
  reporting : t.host.reporting = s.host.reporting
  opens : t.host.opens = s.host.opens
  documents :
    ∀ u, t.registry.Mentions u →
      Host.isOpen s.host u = true →
        Host.isOpen t.host u = true
  views :
    Keeps s.registry t.registry (Table.keys s.engine.views)
      (Table.keys t.engine.views)
  models :
    Keeps s.registry t.registry (Table.keys s.models)
      (Table.keys t.models)

theorem Keeps.trans
    {r t u : PairRegistry}
    {before between after : List String}
    (h : Keeps r t before between)
    (k : Keeps t u between after) :
    Keeps r u before after := by
  intro v hv
  rcases k v hv with ⟨hBetween, hLater⟩
  rcases h v hBetween with ⟨hBefore, hFirst⟩
  exact ⟨hBefore, fun hPaired => hLater (hFirst hPaired)⟩

variable {s t u : Session Desk}

theorem Sheds.trans
    (h : s.Sheds t)
    (k : t.Sheds u) :
    s.Sheds u where
  registry := h.registry.trans k.registry
  reporting := k.reporting.trans h.reporting
  opens := k.opens.trans h.opens
  documents v hMentions hOpen :=
    k.documents v hMentions
      (h.documents v (k.registry.mentions hMentions) hOpen)
  views := h.views.trans k.views
  models := h.models.trans k.models

/- A session with the same pairs sheds what it has less of. -/
theorem sheds_of_pairs
    (hRegistry : s.registry.Loses t.registry)
    (hPairs : t.registry.pairs = s.registry.pairs)
    (hHost :
      t.host.reporting = s.host.reporting ∧
        t.host.opens = s.host.opens ∧
        ∀ u, Host.isOpen s.host u = true →
          Host.isOpen t.host u = true)
    (hViews :
      ∀ v ∈ Table.keys t.engine.views,
        v ∈ Table.keys s.engine.views)
    (hModels :
      ∀ v ∈ Table.keys t.models, v ∈ Table.keys s.models) :
    s.Sheds t := by
  have hKeeps : ∀ {before after : List String},
      (∀ v ∈ after, v ∈ before) →
        Keeps s.registry t.registry before after := by
    intro before after hSubset v hv
    refine ⟨hSubset v hv, fun hPaired => ?_⟩
    unfold PairRegistry.HasCompanion PairRegistry.pairList
    rw [hPairs]
    exact hPaired
  exact ⟨hRegistry, hHost.1, hHost.2.1,
    fun u _ hOpen => hHost.2.2 u hOpen,
    hKeeps hViews, hKeeps hModels⟩

/- A desk that keeps its documents. -/
theorem sheds_onDesk
    {d : Desk}
    (hReporting : d.reporting = s.host.reporting)
    (hOpens : d.opens = s.host.opens)
    (hDocuments :
      ∀ u, Host.isOpen s.host u = true →
        Host.isOpen d u = true) :
    s.Sheds { s with host := d } :=
  sheds_of_pairs (.refl _) rfl
    ⟨hReporting, hOpens, hDocuments⟩
    (fun _ hv => hv) (fun _ hv => hv)

theorem Sheds.refl
    (s : Session Desk) :
    s.Sheds s :=
  sheds_onDesk rfl rfl fun _ hOpen => hOpen

theorem sheds_log
    (s : Session Desk)
    (r : LogRecord) :
    s.Sheds (s.log r) :=
  sheds_onDesk rfl rfl fun _ hOpen => hOpen

theorem sheds_decorate
    (s : Session Desk)
    (effects : List Overlay.Effect) :
    s.Sheds (s.decorate effects) := by
  have hNotes := Desk.forgetNotes_decorate effects s.host
  have hReporting := congrArg Desk.reporting hNotes
  have hOpens := congrArg Desk.opens hNotes
  apply sheds_onDesk
  · exact hReporting
  · exact hOpens
  · intro u hOpen
    rw [Desk.isOpen_iff_copies] at hOpen ⊢
    rw [Desk.copies_of_forgetNotes hNotes]
    exact hOpen

/- An engine with fewer views. -/
theorem sheds_engine
    {e : Overlay.Engine}
    (h :
      ∀ v ∈ Table.keys e.views,
        v ∈ Table.keys s.engine.views) :
    s.Sheds { s with engine := e } :=
  sheds_of_pairs (.refl _) rfl
    ⟨rfl, rfl, fun _ hOpen => hOpen⟩ h (fun _ hv => hv)

theorem sheds_clearView
    (s : Session Desk)
    (view : String) :
    s.Sheds (s.clearView view) := by
  refine (sheds_engine ?_).trans (sheds_decorate _ _)
  intro v hv
  exact (Table.mem_keys_erase.mp hv).1

theorem sheds_setPaletteSize
    (s : Session Desk)
    (size : Nat) :
    s.Sheds (s.setPaletteSize size) := by
  refine (sheds_engine ?_).trans (sheds_decorate _ _)
  intro v hv
  exact Overlay.Engine.mem_keys_setPaletteSize hv

theorem sheds_dropModel
    (s : Session Desk)
    (c : String) :
    s.Sheds (s.dropModel c) := by
  apply sheds_of_pairs
  · exact .refl _
  · rfl
  · exact ⟨rfl, rfl, fun _ hOpen => hOpen⟩
  · exact fun _ hv => hv
  · intro v hv
    exact (Table.mem_keys_erase.mp hv).1

/- A registry that gives up openings. -/
theorem sheds_registry
    {r : PairRegistry}
    (hLost : s.registry.Loses r)
    (hPairs : r.pairs = s.registry.pairs) :
    s.Sheds { s with registry := r } :=
  sheds_of_pairs hLost hPairs
    ⟨rfl, rfl, fun _ hOpen => hOpen⟩
    (fun _ hv => hv) (fun _ hv => hv)

theorem sheds_released
    (s : Session Desk)
    (uri : String)
    (records : List LogRecord) :
    s.Sheds ((s.withoutPending uri).withRecords records) :=
  (sheds_registry (s.registry.loses_cancelOpen uri) rfl).trans
    (sheds_onDesk rfl rfl fun _ hOpen => hOpen)

----
-- Pairs that end
----

/-
  A pair ends with all that is kept for its companion, if its
  primary has no other.
-/
theorem sheds_dropPair
    {pair : DocumentPair}
    (hFiled : s.registry.Filed)
    (hOnly :
      ∀ other ∈ s.registry.pairList,
        other.primary = pair.primary → other = pair) :
    s.Sheds (s.dropPair pair) := by
  have hKeeps : ∀ {before after : List String},
      (∀ v ∈ after, v ∈ before ∧ v ≠ pair.companion) →
        Keeps s.registry (s.dropPair pair).registry before
          after := by
    intro before after hErased v hv
    rcases hErased v hv with ⟨hBefore, hNe⟩
    refine ⟨hBefore, ?_⟩
    intro hPaired
    rcases hPaired with ⟨other, hOther, hCompanion⟩
    refine ⟨other, hFiled.mem_remove.mpr ⟨hOther, ?_⟩,
      hCompanion⟩
    intro hPrimary
    have hSame := hOnly other hOther hPrimary
    subst hSame
    exact hNe hCompanion.symm
  exact {
    registry := s.loses_dropPair pair
    reporting := rfl
    opens := rfl
    documents := fun _ _ hOpen => hOpen
    views := hKeeps fun v hv => Table.mem_keys_erase.mp hv
    models := hKeeps fun v hv => Table.mem_keys_erase.mp hv }

theorem sheds_dropPair_of_mem
    {pair : DocumentPair}
    (hFiled : s.registry.Filed)
    (h : pair ∈ s.registry.pairList) :
    s.Sheds (s.dropPair pair) :=
  sheds_dropPair hFiled fun _ hOther hEq =>
    hFiled.eq_of_primary hOther h hEq

theorem sheds_unpairVanished
    {pair : DocumentPair}
    (hFiled : s.registry.Filed)
    (hOnly :
      ∀ other ∈ s.registry.pairList,
        other.primary = pair.primary → other = pair)
    (present : List String) :
    s.Sheds (s.unpairVanished present pair) := by
  unfold unpairVanished
  split
  · exact .refl s
  · exact (s.sheds_log _).trans
      (sheds_dropPair (s := s.info _) hFiled hOnly)

theorem sheds_reconcile
    (hFiled : s.registry.Filed) :
    s.Sheds s.reconcile := by
  -- The pairs in the list are those of the first session.
  have hFold :
      ∀ (present : List String) (pairs : List DocumentPair)
        (t : Session Desk),
        t.registry.Filed →
          (∀ pair ∈ pairs, ∀ other ∈ t.registry.pairList,
            other.primary = pair.primary → other = pair) →
          t.Sheds (pairs.foldl (unpairVanished present) t) := by
    intro present pairs
    induction pairs with
    | nil =>
        intro t _ _
        exact .refl t
    | cons pair pairs ih =>
        intro t hKept hOnly
        rw [List.forall_mem_cons] at hOnly
        have hStep :=
          sheds_unpairVanished hKept hOnly.1 present
        refine hStep.trans (ih _ ?_ ?_)
        · exact hStep.registry.filed hKept
        · intro next hNext other hOther
          exact hOnly.2 next hNext other
            (hStep.registry.mem_pairList hOther)
  apply hFold _ _ _ hFiled
  intro pair hPair other hOther hEq
  exact hFiled.eq_of_primary hOther hPair hEq

theorem sheds_reveal
    (s : Session Desk)
    (uri : String)
    (region : Region) :
    s.Sheds
      { s with host := Host.reveal s.host uri region } := by
  change s.Sheds { s with host := s.host.reveal uri region }
  unfold Desk.reveal
  dsimp only
  split
  next => exact sheds_onDesk rfl rfl fun _ hOpen => hOpen
  next shelf _ =>
    cases shelf with
    | primary =>
        exact sheds_onDesk rfl rfl fun _ hOpen => hOpen
    | secondary =>
        exact sheds_onDesk rfl rfl fun _ hOpen => hOpen

theorem sheds_activeViewChanged
    (hFiled : s.registry.Filed)
    (uri : String) :
    s.Sheds (s.activeViewChanged uri) := by
  have hReconcile := sheds_reconcile hFiled
  unfold activeViewChanged
  dsimp only
  split
  · unfold primaryFocused
    split
    · exact hReconcile
    · exact hReconcile.trans (sheds_reveal _ _ _)
  · split
    · unfold companionFocused
      split
      · exact hReconcile
      · exact hReconcile.trans (sheds_reveal _ _ _)
    · exact hReconcile

theorem sheds_companionEdited
    (s : Session Desk)
    (uri : String) :
    s.Sheds (s.companionEdited uri) := by
  unfold companionEdited
  split
  · exact .refl s
  · exact ((s.sheds_log _).trans (sheds_dropModel _ uri)).trans
      (sheds_clearView _ uri)

/- Only views of no companion are left after a teardown. -/
theorem sheds_teardown
    (s : Session Desk) :
    s.Sheds s.teardown := by
  have hFold :
      ∀ (pairs : List DocumentPair) (t : Session Desk),
        t.Sheds
            (pairs.foldl
              (fun t pair => t.clearView pair.companion) t) ∧
          ∀ v ∈
              Table.keys
                (pairs.foldl
                  (fun t pair => t.clearView pair.companion)
                  t).engine.views,
            ∀ pair ∈ pairs, pair.companion ≠ v := by
    intro pairs
    induction pairs with
    | nil =>
        intro t
        exact ⟨.refl t, fun _ _ pair hPair => by cases hPair⟩
    | cons pair pairs ih =>
        intro t
        rcases ih (t.clearView pair.companion) with
          ⟨hSheds, hCleared⟩
        refine ⟨(t.sheds_clearView _).trans hSheds, ?_⟩
        intro v hv
        rw [List.forall_mem_cons]
        refine ⟨?_, hCleared v hv⟩
        intro hEq
        have hFirst := (hSheds.views v hv).1
        exact (Table.mem_keys_erase.mp hFirst).2 hEq.symm
  rcases hFold s.registry.pairList s with ⟨hSheds, hCleared⟩
  exact {
    registry :=
      hSheds.registry.trans (PairRegistry.loses_clear _)
    reporting := hSheds.reporting
    opens := hSheds.opens
    documents := by
      intro u hMentions
      rcases hMentions with ⟨pair, hPair, -⟩
      cases hPair
    views := by
      intro v hv
      refine ⟨(hSheds.views v hv).1, ?_⟩
      intro hPaired
      rcases hPaired with ⟨pair, hPair, hEq⟩
      exact absurd hEq (hCleared v hv pair hPair)
    models := fun v hv => by cases hv }

theorem sheds_releasePrimary
    (hFiled : s.registry.Filed)
    (uri : String) :
    s.Sheds (s.releasePrimary uri).1 := by
  rcases s.releasePrimary_eq uri with ⟨records, hRelease⟩
  have hReleased := s.sheds_released uri records
  rw [hRelease]
  cases hPair : s.registry.pairForPrimary uri with
  | none => exact hReleased
  | some pair =>
      exact hReleased.trans
        (sheds_dropPair_of_mem
          (hReleased.registry.filed hFiled)
          (PairRegistry.mem_pairList_of_pairForPrimary hPair))

theorem sheds_companionClosed
    (hFiled : s.registry.Filed)
    (uri : String) :
    s.Sheds (s.companionClosed uri) := by
  unfold companionClosed
  split
  · exact s.sheds_log _
  next pair hFound =>
    exact sheds_dropPair_of_mem hFiled
      (PairRegistry.mem_pairList_of_pairForCompanion hFound)

theorem sheds_releaseClosed
    (hFiled : s.registry.Filed)
    (uri : String) :
    s.Sheds (s.releaseClosed uri).1 := by
  unfold releaseClosed
  split
  · exact sheds_releasePrimary hFiled uri
  · split
    · exact sheds_companionClosed hFiled uri
    · exact s.sheds_log _

----
-- Closings
----

/-
  Each companion is asked for by one primary only, and is no
  primary itself.
-/
structure Dedicated
    (asked : List DocumentPair) : Prop where
  one :
    ∀ a ∈ asked, ∀ b ∈ asked,
      a.companion = b.companion → a.primary = b.primary
  apart :
    ∀ a ∈ asked, ∀ b ∈ asked, a.companion ≠ b.primary

instance
    (asked : List DocumentPair) :
    Decidable (Dedicated asked) :=
  decidable_of_iff
    ((∀ a ∈ asked, ∀ b ∈ asked,
        a.companion = b.companion → a.primary = b.primary) ∧
      ∀ a ∈ asked, ∀ b ∈ asked, a.companion ≠ b.primary)
    ⟨fun h => ⟨h.1, h.2⟩, fun h => ⟨h.one, h.apart⟩⟩

/- All pairs and openings were asked for. -/
structure Enrolled
    (asked : List DocumentPair)
    (r : PairRegistry) : Prop where
  filed : r.Filed
  pairs : ∀ pair ∈ r.pairList, pair ∈ asked
  pending :
    ∀ q ∈ r.pendingList, ⟨q.primary, q.companion⟩ ∈ asked

theorem Enrolled.loses
    {asked : List DocumentPair}
    {r t : PairRegistry}
    (h : Enrolled asked r)
    (hLost : r.Loses t) :
    Enrolled asked t where
  filed := hLost.filed h.filed
  pairs pair hPair := h.pairs pair (hLost.mem_pairList hPair)
  pending q hq := h.pending q (hLost.mem_pendingList hq)

variable {asked : List DocumentPair} {uri : String}

/- A document that is closed belongs to no pair any more. -/
theorem not_mentions_releaseClosed
    (hDedicated : Dedicated asked)
    (h : Enrolled asked s.registry) :
    ¬ (s.releaseClosed uri).1.registry.Mentions uri := by
  intro hMentions
  rcases hMentions with ⟨other, hOther, hEither⟩
  have hLost := s.loses_releaseClosed uri
  have hOld := hLost.mem_pairList hOther
  have hAsked := h.pairs other hOld
  -- The document is a paired primary, a waiting primary or a
  -- companion, and each excludes the others.
  cases hPair : s.registry.pairForPrimary uri with
  | some pair =>
      have hMine :=
        PairRegistry.mem_pairList_of_pairForPrimary hPair
      have hPrimary := h.filed.primary_eq hPair
      rcases releaseClosed_of_pair hPair with
        ⟨records, hRelease⟩
      rw [hRelease] at hOther
      rcases hEither with hEq | hEq
      · have hFiled :=
          (s.registry.loses_cancelOpen uri).filed h.filed
        apply (hFiled.mem_remove.mp hOther).2
        rw [hEq, hPrimary]
      · apply hDedicated.apart other hAsked pair
          (h.pairs pair hMine)
        rw [hEq, hPrimary]
  | none =>
      have hNotPrimary : other.primary ≠ uri := by
        intro hEq
        have hFound := h.filed.pairForPrimary hOld
        rw [hEq, hPair] at hFound
        cases hFound
      have hCompanion := hEither.resolve_left hNotPrimary
      rcases releaseClosed_of_free hPair with
        ⟨records, hRelease, hNone⟩ | ⟨pair, hFound, hRelease⟩
      · cases hPending : s.registry.pendingFor uri with
        | none =>
            have hAll :=
              PairRegistry.pairForCompanion_eq_none_iff.mp
                (hNone hPending)
            exact hAll other hOld hCompanion
        | some q =>
            have hq :=
              PairRegistry.mem_pendingList_of_pendingFor
                hPending
            have hPrimary : q.primary = uri :=
              h.filed.pending _ (Table.mem_of_get? hPending)
            apply hDedicated.apart other hAsked _
              (h.pending q hq)
            rw [hCompanion, hPrimary]
      · rw [hRelease] at hOther
        apply (h.filed.mem_remove.mp hOther).2
        apply hDedicated.one other hAsked pair
        · exact h.pairs pair
            (PairRegistry.mem_pairList_of_pairForCompanion
              hFound)
        · rw [hCompanion,
            PairRegistry.companion_of_pairForCompanion hFound]

/- A closing sheds if no pair is left of the document. -/
theorem Sheds.of_shut
    (h : (s.shut uri).Sheds t)
    (hFree :
      Host.isOpen s.host uri = true →
        ¬ t.registry.Mentions uri) :
    s.Sheds t where
  registry := h.registry
  reporting :=
    h.reporting.trans (s.host.sameBut_close uri).reporting
  opens := h.opens.trans (s.host.sameBut_close uri).opens
  documents v hMentions hOpen := by
    by_cases hv : v = uri
    · subst hv
      exact absurd hMentions (hFree hOpen)
    · apply h.documents v hMentions
      exact ((s.host.sameBut_close uri).isOpen hv).mpr hOpen
  views := h.views
  models := h.models

theorem sheds_closeWithin
    (hDedicated : Dedicated asked)
    (h : Enrolled asked s.registry)
    (hReporting : s.host.reporting = true)
    (fuel : Nat)
    (uri : String) :
    s.Sheds (closeWithin fuel s uri) := by
  induction fuel generalizing s uri with
  | zero => exact .refl s
  | succ n ih =>
      rw [closeWithin_succ]
      by_cases hReported : (s.host.close uri).reported = true
      · have hClosed :
            s.Sheds ((s.shut uri).releaseClosed uri).1 := by
          apply Sheds.of_shut
          · exact sheds_releaseClosed (s := s.shut uri)
              h.filed uri
          · intro _
            exact not_mentions_releaseClosed (s := s.shut uri)
              hDedicated h
        rw [if_pos hReported]
        split
        · exact hClosed
        next companion _ =>
          refine hClosed.trans (ih ?_ ?_ companion)
          · exact h.loses hClosed.registry
          · rw [hClosed.reporting]
            exact hReporting
      · rw [if_neg hReported]
        apply Sheds.of_shut (.refl _)
        intro hOpen
        rw [Desk.close_reported, hOpen, hReporting]
          at hReported
        exact absurd rfl hReported

theorem sheds_close
    (hDedicated : Dedicated asked)
    (h : Enrolled asked s.registry)
    (hReporting : s.host.reporting = true)
    (uri : String) :
    s.Sheds (s.close uri) :=
  sheds_closeWithin hDedicated h hReporting _ uri

/- A companion that was released is closed afterwards. -/
theorem Sheds.closeReleased
    {r : Session Desk × Option String}
    (hSheds : s.Sheds r.1)
    (hDedicated : Dedicated asked)
    (h : Enrolled asked s.registry)
    (hReporting : s.host.reporting = true) :
    s.Sheds (closeReleased r) := by
  unfold Session.closeReleased
  split
  · exact hSheds
  · refine hSheds.trans (sheds_close hDedicated ?_ ?_ _)
    · exact h.loses hSheds.registry
    · rw [hSheds.reporting]
      exact hReporting

end Session

end Pairing

end StyleCompanion
