import StyleCompanion.Proofs.Application.Schedule

/-
  The places of pairs.

  A pair should have its primary in the primary region and its
  companion in the secondary one.  Primaries are always where
  they should be.  Companions are as long as no opening ends
  with a pair whose companion is open among the primaries, or
  with a companion that serves another primary already.  The
  first is out of its place at once.  The second is so after
  it was closed, since only one of its pairs is dropped then.

  Main declarations:
    * `Arrangement.Placed`
    * `Arrangement.Move.placed`
    * `Application.PairsPlaced`
    * `Application.StaysPlaced`
    * `Application.Misplaces`
    * `Application.staysPlaced_iff_not_misplaces`
-/

namespace StyleCompanion

open Pairing
open Arrangement (Move Path)

namespace Pairing.PairRegistry

variable {r t : PairRegistry}

/- Nobody is waited for anew when openings are lost. -/
theorem Loses.awaits
    (h : r.Loses t)
    (hFiled : r.Filed)
    {p : PendingOpen}
    (hAwaits : t.Awaits p) :
    r.Awaits p := by
  rcases Option.map_eq_some_iff.mp hAwaits with
    ⟨q, hq, hToken⟩
  have hMem := h.mem_pendingList
    (mem_pendingList_of_pendingFor hq)
  have hPrimary : q.primary = p.primary :=
    (h.filed hFiled).pending _ (Table.mem_of_get? hq)
  unfold Awaits
  rw [← hPrimary, hFiled.pendingFor hMem, ← hToken]
  rfl

/- The pairs once an opening has ended with a new one. -/
theorem Filed.mem_register_finishOpen
    (h : r.Filed)
    (p : PendingOpen)
    {pair : DocumentPair} :
    pair ∈ ((r.finishOpen p).1.register p.primary
        p.companion).pairList ↔
      pair = ⟨p.primary, p.companion⟩ ∨
        pair ∈ r.pairList ∧ pair.primary ≠ p.primary := by
  rw [((r.loses_finishOpen p).filed h).mem_register]
  unfold pairList
  rw [pairs_finishOpen]

/- Of two pairs one belongs to another primary. -/
theorem Filed.exists_ne_primary
    (h : r.Filed)
    {pair other : DocumentPair}
    (hPair : pair ∈ r.pairList)
    (hOther : other ∈ r.pairList)
    (hEq : pair.companion = other.companion)
    (hNe : pair ≠ other)
    (p : String) :
    ∃ left ∈ r.pairList,
      left.companion = pair.companion ∧ left.primary ≠ p := by
  by_cases hIs : pair.primary = p
  · refine ⟨other, hOther, hEq.symm, ?_⟩
    rw [← hIs]
    exact fun hSame =>
      hNe (h.eq_of_primary hPair hOther hSame.symm)
  · exact ⟨pair, hPair, rfl, hIs⟩

end Pairing.PairRegistry

namespace Arrangement

variable {s t : Arrangement}

----
-- Placed arrangements
----

/- The pairing follows the workspace and guards it. -/
structure Guarded
    (s : Arrangement) : Prop extends Booked s where
  attached : s.attached = true
  guard : s.guard = .pairing

theorem Path.guarded
    (hPath : Path s t)
    (h : s.Guarded) :
    t.Guarded :=
  ⟨hPath.booked h.toBooked, hPath.attached.trans h.attached,
    hPath.guard.trans h.guard⟩

/-
  The companion of every pair lies in the secondary region,
  and no two pairs share it.
-/
structure Placed
    (s : Arrangement) : Prop extends Guarded s where
  beside : ∀ pair ∈ s.registry.pairList,
    pair.companion ∈ s.workspace.documentsIn .secondary
  unshared : ∀ pair ∈ s.registry.pairList,
    ∀ other ∈ s.registry.pairList,
      pair.companion = other.companion → pair = other

theorem Placed.of_loses
    (h : s.Placed)
    {r : PairRegistry}
    (hLoses : s.registry.Loses r) :
    Placed { s with registry := r } where
  toGuarded := ⟨h.toBooked.of_loses hLoses, h.attached, h.guard⟩
  beside pair hPair := h.beside pair (hLoses.mem_pairList hPair)
  unshared pair hPair other hOther :=
    h.unshared pair (hLoses.mem_pairList hPair) other
      (hLoses.mem_pairList hOther)

/- A companion that is closed is the companion of nobody. -/
theorem Placed.companion_ne
    (h : s.Placed)
    {u : String}
    {r : PairRegistry}
    (hFrees : s.registry.Frees u r)
    {pair : DocumentPair}
    (hPair : pair ∈ r.pairList) :
    pair.companion ≠ u := by
  rintro rfl
  have hPlaced := h.beside pair
    (hFrees.loses.mem_pairList hPair)
  refine hFrees.companion
    (h.pairForPrimary_eq_none h.attached hPlaced)
    (h.pendingFor_eq_none h.attached hPlaced) ?_
    ⟨pair, hPair, rfl⟩
  intro p hp q hq hpc hqc
  exact h.unshared p hp q hq (hpc.trans hqc.symm)

/- A new pair with a companion that is in its place and free. -/
theorem Placed.register
    (h : s.Placed)
    {p c : String}
    (hPrimary : p ∈ s.workspace.documentsIn .primary)
    (hCompanion : c ∈ s.workspace.documentsIn .secondary)
    (hFree : ∀ pair ∈ s.registry.pairList,
      pair.companion = c → pair.primary = p) :
    Placed { s with registry := s.registry.register p c } where
  toGuarded :=
    ⟨⟨h.toSound.register (fun _ => hPrimary) c, h.tokens,
      h.taken, h.noted, h.genuine⟩, h.attached, h.guard⟩
  beside pair hPair := by
    rcases h.filed.mem_register.mp hPair with rfl | hOld
    · exact hCompanion
    · exact h.beside pair hOld.1
  unshared pair hPair other hOther hEq := by
    rcases h.filed.mem_register.mp hPair with rfl | hOld
    · rcases h.filed.mem_register.mp hOther with rfl | hOld'
      · rfl
      · exact absurd (hFree other hOld'.1 hEq.symm) hOld'.2
    · rcases h.filed.mem_register.mp hOther with rfl | hOld'
      · exact absurd (hFree pair hOld.1 hEq) hOld.2
      · exact h.unshared pair hOld.1 other hOld'.1 hEq

/- Every move keeps companions in their places. -/
theorem Move.placed
    (hMove : Move s t)
    (h : s.Placed) :
    t.Placed := by
  have hGuarded : t.Guarded :=
    (Path.of_move hMove).guarded h.toGuarded
  cases hMove with
  | shuffle hShuffles =>
      refine ⟨hGuarded, fun pair hPair => ?_, h.unshared⟩
      rw [hShuffles.pages]
      exact h.beside pair hPair
  | add hClosed region e =>
      refine ⟨hGuarded, fun pair hPair => ?_, h.unshared⟩
      rw [Workspace.documentsIn_add]
      split
      · exact List.mem_append_left _ (h.beside pair hPair)
      · exact h.beside pair hPair
  | remove hPlain u =>
      rw [h.attached] at hPlain
      cases hPlain
  | close hOpen hLeft hFrees =>
      have hLost := h.of_loses hFrees.loses
      refine ⟨hGuarded, fun pair hPair => ?_, hLost.unshared⟩
      rw [hLeft.pages, Workspace.documentsIn_remove hOpen _ _
        (h.companion_ne hFrees hPair)]
      exact hLost.beside pair hPair
  | lose hLoses => exact h.of_loses hLoses
  | @takeOver p c shared hPlaced hShared =>
      have hLoses := s.registry.loses_remove shared.primary
      refine (h.of_loses hLoses).register
        (hPlaced h.attached).1 (hPlaced h.attached).2 ?_
      intro pair hPair hEq
      -- Only the pair that was removed had the companion.
      have hOld := h.filed.mem_remove.mp hPair
      have hSame := h.unshared pair hOld.1 _
        (PairRegistry.mem_pairList_of_pairForCompanion hShared)
        (hEq.trans (PairRegistry.companion_of_pairForCompanion
          hShared).symm)
      exact absurd (congrArg _ hSame) hOld.2
  | begin hPlaced hIdle c =>
      refine ⟨hGuarded, ?_, ?_⟩
      all_goals
        change ∀ pair ∈ Table.values
          (s.registry.beginOpen _ c).1.pairs, _
        rw [PairRegistry.beginOpen_eq hIdle]
      · exact h.beside
      · exact h.unshared
  | request uri region preserveFocus =>
      exact ⟨hGuarded, h.beside, h.unshared⟩

theorem Path.placed
    (hPath : Path s t)
    (h : s.Placed) :
    t.Placed :=
  hPath.keeps h fun _ _ hx hMove => hMove.placed hx

end Arrangement

namespace Pairing.Session

variable {a : Session Desktop}

----
-- Activations that drop nothing
----

/- With all companions in their places nothing is dropped. -/
theorem registry_noticeActivated
    (h : ∀ pair ∈ a.registry.pairList, pair.companion ∈
      a.host.workspace.documentsIn .secondary)
    (activated : Option (String × Region)) :
    (a.noticeActivated activated).registry = a.registry := by
  cases activated with
  | none => rfl
  | some place =>
      change (a.activeViewChanged place.1).registry = _
      rw [registry_activeViewChanged, reconcile_eq_self a h]

theorem keyboard_reveal
    (d : Desktop)
    (u : String)
    (wanted : Option Region) :
    (d.reveal u wanted).workspace.keyboard =
      d.workspace.keyboard := by
  have hLogged : (d.reveal u wanted).workspace =
      d.workspace.bringForward u :=
    congrArg Prod.fst (Desktop.layout_logAll _ _)
  rw [hLogged]
  unfold Workspace.bringForward
  split
  · rfl
  next region _ => cases region <;> rfl

/- The keyboard stays where it is. -/
theorem keyboard_noticeActivated
    (a : Session Desktop)
    (activated : Option (String × Region)) :
    (a.noticeActivated activated).host.workspace.keyboard =
      a.host.workspace.keyboard := by
  cases activated with
  | none => rfl
  | some place =>
      have hReconciled : a.reconcile.host.workspace =
          a.host.workspace :=
        congrArg Prod.fst a.layout_reconcile
      have hSettled :
          (a.noticeActivated (some place)).host.workspace =
            (a.activeViewChanged place.1).host.workspace :=
        workspace_settle _ _
      rw [hSettled, ← hReconciled]
      unfold activeViewChanged
      dsimp only
      split
      · unfold primaryFocused
        split
        · rfl
        · exact keyboard_reveal _ _ _
      · split
        · unfold companionFocused
          split
          · rfl
          · exact keyboard_reveal _ _ _
        · rfl

end Pairing.Session

namespace Application

variable {a : Application}

----
-- Pairs in their places
----

/-
  Every pair has its primary in the primary region and another
  document for its companion in the secondary region, and a
  reconciliation finds nothing to drop.
-/
def PairsPlaced
    (a : Application) : Prop :=
  (∀ pair ∈ a.registry.pairList,
      pair.primary ∈ a.workspace.documentsIn .primary ∧
        pair.companion ∈ a.workspace.documentsIn .secondary ∧
        pair.primary ≠ pair.companion) ∧
    Session.reconcile a = a

/- Pairs are in their places whatever is done next. -/
def StaysPlaced
    (a : Application) : Prop :=
  ∀ cs : List Command, (∀ c ∈ cs, c.isDirect = true) →
    (a.run cs).PairsPlaced

theorem pairsPlaced_of_placed
    (h : a.arrangement.Placed) :
    a.PairsPlaced := by
  refine ⟨fun pair hPair => ?_, ?_⟩
  · have hPrimary := h.seated h.attached pair hPair
    have hCompanion := h.beside pair hPair
    refine ⟨hPrimary, hCompanion, fun hEq => ?_⟩
    rw [hEq] at hPrimary
    exact h.orderly.disjoint hPrimary hCompanion
  · exact Session.reconcile_eq_self a h.beside

theorem staysPlaced_of_placed
    (h : a.arrangement.Placed) :
    a.StaysPlaced := by
  intro cs hDirect
  apply pairsPlaced_of_placed
  induction cs generalizing a with
  | nil => exact h
  | cons c cs ih =>
      rw [List.forall_mem_cons] at hDirect
      exact ih ((path_perform h.toSound hDirect.1).placed h)
        hDirect.2

----
-- A companion that is shared
----

/- The keyboard goes to a companion, and that is closed. -/
def dismiss
    (c : String) : List Command :=
  [.focus c, .close c]

theorem registry_announceActive
    (h : ∀ pair ∈ a.registry.pairList,
      pair.companion ∈ a.workspace.documentsIn .secondary)
    (activated : Option (String × Region)) :
    (a.announceActive activated).registry = a.registry := by
  unfold announceActive
  split
  · rfl
  · split
    · exact Session.registry_noticeActivated h _
    · rfl

theorem keyboard_announceActive
    (a : Application)
    (activated : Option (String × Region)) :
    (a.announceActive activated).workspace.keyboard =
      a.workspace.keyboard := by
  unfold announceActive
  split
  · rfl
  · split
    · exact Session.keyboard_noticeActivated a _
    · exact congrArg Workspace.keyboard
        (Session.workspace_settle a _)

/- The companion gets the keyboard and keeps its pairs. -/
theorem focus_companion
    (hBeside : ∀ pair ∈ a.registry.pairList,
      pair.companion ∈ a.workspace.documentsIn .secondary)
    (c : String) :
    (a.focus c).registry = a.registry ∧
      (a.focus c).workspace.keyboard = some c := by
  have hShuffles := a.workspace.shuffles_focus c
  have hKeyboard : (a.workspace.focus c).1.keyboard =
      some c := by
    unfold Workspace.focus
    split
    next hHas => exact hHas
    next =>
      unfold Workspace.markActive
      split
      · rfl
      · split <;> rfl
  refine ⟨registry_announceActive
    (a := a.withWorkspace (a.workspace.focus c).1) ?_ _,
    (keyboard_announceActive _ _).trans hKeyboard⟩
  intro pair hPair
  change _ ∈ (a.workspace.focus c).1.documentsIn .secondary
  rw [hShuffles.pages]
  exact hBeside pair hPair

/- Only one of the pairs is dropped with the companion. -/
theorem registry_close_companion
    (hSound : a.arrangement.Sound)
    (hAttached : a.host.attached = true)
    {c : String}
    (hPlaced : c ∈ a.workspace.documentsIn .secondary)
    (hKeyboard : a.workspace.keyboard = some c)
    {pair : DocumentPair}
    (hPair : a.registry.pairForCompanion c = some pair) :
    (Session.close a c).registry =
      a.registry.remove pair.primary := by
  have hQuiet : (a.host.workspace.remove c).2 = none :=
    Workspace.remove_snd_of_keyboard hKeyboard
  have hFree : a.registry.pairForPrimary c = none :=
    hSound.pairForPrimary_eq_none hAttached hPlaced
  have hIdle : a.registry.pendingFor c = none :=
    hSound.pendingFor_eq_none hAttached hPlaced
  rw [Session.close_of_secondary hSound hAttached hPlaced]
  change (Session.parted a c).1.registry = _
  unfold Session.parted
  rw [hQuiet]
  exact congrArg (·.1.registry)
    (Session.releaseClosed_of_companion
      (s := Session.without a c) hFree hIdle hPair)

theorem notMem_close_companion
    (hSound : a.arrangement.Sound)
    (hAttached : a.host.attached = true)
    {c : String}
    (hPlaced : c ∈ a.workspace.documentsIn .secondary) :
    c ∉ (workspace (Session.close a c)).documentsIn
      .secondary := by
  have hOpen : a.workspace.isOpen c = true :=
    hSound.orderly.isOpen_of_mem hPlaced
  rw [Session.close_of_secondary hSound hAttached hPlaced]
  unfold workspace
  rw [Session.workspace_settle,
    (Session.workspace_parted hSound.filed c).pages]
  exact hSound.orderly.notMem_remove hOpen .secondary

/- Of two pairs with a companion one is left without it. -/
theorem not_staysPlaced_of_shared
    (hSound : a.arrangement.Sound)
    (hAttached : a.host.attached = true)
    (hBeside : ∀ pair ∈ a.registry.pairList,
      pair.companion ∈ a.workspace.documentsIn .secondary)
    {pair other : DocumentPair}
    (hPair : pair ∈ a.registry.pairList)
    (hOther : other ∈ a.registry.pairList)
    (hEq : pair.companion = other.companion)
    (hNe : pair ≠ other) :
    ¬ a.StaysPlaced := by
  intro hStays
  obtain ⟨c, hc⟩ : ∃ c, pair.companion = c := ⟨_, rfl⟩
  have hPlaced : c ∈ a.workspace.documentsIn .secondary :=
    hc ▸ hBeside pair hPair
  have hOpen : a.workspace.isOpen c = true :=
    hSound.orderly.isOpen_of_mem hPlaced
  -- The companion gets the keyboard.
  have hEases : Session.Eases a (a.focus c) :=
    eases_activate (a.workspace.shuffles_focus c)
  have hFocused : (a.focus c).arrangement.Sound :=
    hEases.path.sound hSound
  have hStill : c ∈
      (a.focus c).workspace.documentsIn .secondary := by
    change c ∈ (a.focus c).host.workspace.documentsIn _
    rw [hEases.host.workspace.pages]
    exact hPlaced
  rcases focus_companion hBeside c with
    ⟨hRegistry, hKeyboard⟩
  obtain ⟨first, hFirst⟩ : ∃ first,
      (a.focus c).registry.pairForCompanion c = some first := by
    rw [hRegistry, ← Option.isSome_iff_exists,
      Option.isSome_iff_ne_none, Ne,
      PairRegistry.pairForCompanion_eq_none_iff]
    exact fun hNone => hNone pair hPair hc
  have hLeft := registry_close_companion hFocused
    (hEases.host.attached.trans hAttached) hStill hKeyboard
    hFirst
  -- At least one of the pairs is not the first.
  rcases hSound.filed.exists_ne_primary hPair hOther hEq hNe
    first.primary with ⟨left, hMem, hCompanion, hLater⟩
  have hRun : a.run (dismiss c) =
      Session.close (a.focus c) c := by
    change Session.close (a.onOpen c fun a =>
      quiet (a.focus c)).1 c = _
    unfold onOpen
    rw [if_pos hOpen]
    rfl
  have hPairs := (hStays (dismiss c)
    (by simp [dismiss, Command.isDirect])).1
  rw [hRun, hLeft, hRegistry] at hPairs
  have hEnd := (hPairs left
    (hSound.filed.mem_remove.mpr ⟨hMem, hLater⟩)).2.1
  rw [hCompanion, hc] at hEnd
  exact notMem_close_companion hFocused
    (hEases.host.attached.trans hAttached) hStill hEnd

----
-- The ends of openings
----

/-
  An opening that is waited for ends with a pair whose
  companion lies among the primaries, or serves another
  primary.
-/
def Misplaces
    (a : Application) : Turn → Prop
  | .complete (.companion p) =>
      a.registry.Awaits p ∧
        (p.companion ∈ a.workspace.documentsIn .primary ∨
          ∃ pair ∈ a.registry.pairList,
            pair.companion = p.companion ∧
              pair.primary ≠ p.primary)
  | _ => False

theorem Opens.loses
    {u : String}
    {region : Region}
    {b : Application}
    {outcome : Outcome Bool}
    (h : a.Opens u region b outcome) :
    a.registry.Loses b.registry := by
  cases h with
  | shown hOpen hEases => exact hEases.registry
  | undecodable hClosed hRead hSame =>
      exact (Session.Eases.of_arrangement hSame).registry
  | unreadable hClosed hRead hSame =>
      exact (Session.Eases.of_arrangement hSame).registry
  | added hClosed hRead e hEases => exact hEases.registry

/- A companion that is waited for goes to its place. -/
theorem target_of_awaits
    (h : a.arrangement.Guarded)
    {p : PendingOpen}
    (hAwaits : a.registry.Awaits p)
    (hTask : .companion p ∈ a.host.tasks) :
    a.target p.companion .secondary = .secondary := by
  have hNoted : p ∈ a.registry.pendingList :=
    h.mem_pendingList hTask hAwaits
  have hCompanion :
      a.registry.isCompanion p.companion = true := by
    unfold PairRegistry.isCompanion
    rw [Bool.or_eq_true, List.any_eq_true]
    exact Or.inr ⟨p, hNoted, decide_eq_true rfl⟩
  have hGuard : a.host.guard = .pairing := h.guard
  unfold target
  rw [hGuard]
  exact if_neg fun hNot => hNot.2 hCompanion

/- The companion of a pair that is not made amiss. -/
theorem Opens.companion_placed
    (h : a.arrangement.Placed)
    {p : PendingOpen}
    (hTarget : a.target p.companion .secondary = .secondary)
    (hNot : p.companion ∉ a.workspace.documentsIn .primary)
    {b : Application}
    (hOpens : a.Opens p.companion .secondary b (.ok true)) :
    p.companion ∈ b.workspace.documentsIn .secondary := by
  cases hOpens with
  | shown hOpen hEases =>
      have hPages := hEases.host.workspace.pages .secondary
      change p.companion ∈ b.host.workspace.documentsIn _
      rw [hPages]
      rcases Workspace.exists_regionOf hOpen with
        ⟨region, hRegion⟩
      have hPlaced :=
        (h.orderly.placed region p.companion).mpr hRegion
      cases region with
      | primary => exact absurd hPlaced hNot
      | secondary => exact hPlaced
  | added hClosed hRead e hEases =>
      have hPages := hEases.host.workspace.pages .secondary
      change p.companion ∈ b.host.workspace.documentsIn _
      rw [hPages, hTarget]
      change p.companion ∈ (a.workspace.add p.companion
        .secondary e).documentsIn .secondary
      rw [Workspace.documentsIn_add, if_pos rfl]
      exact List.mem_append_right _ List.mem_cons_self

theorem guarded_dropTask
    (h : a.arrangement.Guarded) :
    a.dropTask.arrangement.Guarded :=
  ⟨booked_dropTask h.toBooked, h.attached, h.guard⟩

theorem placed_dropTask
    (h : a.arrangement.Placed) :
    a.dropTask.arrangement.Placed :=
  ⟨guarded_dropTask h.toGuarded, h.beside, h.unshared⟩

theorem placed_companion
    (h : a.arrangement.Placed)
    {p : PendingOpen}
    (hTask : .companion p ∈ a.host.tasks)
    (hNot : ¬ a.Misplaces (.complete (.companion p))) :
    (a.turn (.complete (.companion p))).arrangement.Placed := by
  have hDropped := placed_dropTask h
  have hOpens := a.dropTask.opens_openDocument p.companion
    .secondary true
  rcases hRun : a.dropTask.openDocument p.companion .secondary
      true with ⟨b, outcome⟩
  rw [hRun] at hOpens
  have hOpened := hOpens.path.placed hDropped
  cases outcome with
  | error e =>
      rw [turn_companion_error hRun]
      exact hOpened
  | ok ok =>
      rw [turn_companion hRun]
      have hFinished := hOpened.of_loses
        (b.registry.loses_finishOpen p)
      by_cases hJoins : Session.Joins b p ok
      · cases hJoins.1
        have hAwaits : a.registry.Awaits p :=
          hOpens.loses.awaits h.filed hJoins.2.1
        have hTarget := target_of_awaits h.toGuarded hAwaits
          hTask
        have hPlaced := Opens.companion_placed hDropped hTarget
          (fun hIn => hNot ⟨hAwaits, Or.inl hIn⟩) hOpens
        have hPrimary := primary_placed_of_awaits
          hOpened.toSound hOpened.attached hJoins.2.1
        refine (eases_companionOpened hJoins).path.placed
          (hFinished.register hPrimary hPlaced ?_)
        intro pair hPair hEq
        by_contra hNe
        have hOld := hOpens.loses.mem_pairList
          ((b.registry.loses_finishOpen p).mem_pairList hPair)
        exact hNot ⟨hAwaits, Or.inr ⟨pair, hOld, hEq, hNe⟩⟩
      · exact (path_companionOpened hOpened.filed
          hJoins).placed hFinished

/- A due turn that misplaces nothing. -/
theorem placed_turn
    (h : a.arrangement.Placed)
    {t : Turn}
    (hDue : a.isDue t = true)
    (hNot : ¬ a.Misplaces t) :
    (a.turn t).arrangement.Placed := by
  cases t with
  | command c => exact (path_perform h.toSound hDue).placed h
  | complete task =>
      have hHead := of_decide_eq_true hDue
      cases task with
      | companion p =>
          exact placed_companion h
            (List.mem_of_mem_head? hHead) hNot
      | report u region preserveFocus =>
          exact (a.path_report u region preserveFocus).placed
            (placed_dropTask h)

/- What is open is only shown. -/
theorem openDocument_of_isOpen
    {u : String}
    (hOpen : a.workspace.isOpen u = true)
    (region : Region) :
    ∃ d, a.openDocument u region true =
        ({ a with host := d }, .ok true) ∧
      a.host.Shuffles d := by
  obtain ⟨d, hd⟩ : ∃ d, a.host.logAll (redirectLog u region
      (a.target u region)) = d := ⟨_, rfl⟩
  have hLogged : a.host.Shuffles d := by
    rw [← hd]
    exact .of_layout (Desktop.layout_logAll _ _)
  have hStill : d.workspace.isOpen u = true := by
    rw [hLogged.workspace.isOpen]
    exact hOpen
  refine ⟨{ d with workspace := d.workspace.bringForward u },
    ?_, hLogged.trans (.of_workspace
      (d.workspace.shuffles_bringForward u))⟩
  unfold openDocument onDesktop
  dsimp only
  rw [hd]
  exact if_pos hStill

/- An open companion that is waited for is paired at once. -/
theorem pairs_of_awaits
    (h : a.arrangement.Guarded)
    {p : PendingOpen}
    (hAwaits : a.registry.Awaits p)
    (hOpen : a.workspace.isOpen p.companion = true) :
    (a.turn (.complete (.companion p))).registry =
        (a.registry.finishOpen p).1.register p.primary
          p.companion ∧
      a.workspace.Shuffles
        (a.turn (.complete (.companion p))).workspace := by
  rcases openDocument_of_isOpen (a := a.dropTask) hOpen
    .secondary with ⟨d, hRun, hShuffles⟩
  rw [turn_companion hRun]
  have hPrimary := primary_placed_of_awaits h.toSound
    h.attached hAwaits
  have hStill : d.workspace.isOpen p.primary = true := by
    rw [hShuffles.workspace.isOpen]
    exact h.orderly.isOpen_of_mem hPrimary
  have hJoins : Session.Joins
      ({ a.dropTask with host := d } : Application) p true :=
    ⟨rfl, hAwaits, hStill⟩
  exact ⟨Session.registry_companionOpened hJoins,
    hShuffles.workspace.trans
      (eases_companionOpened hJoins).host.workspace⟩

theorem guarded_companionOpened
    (h : a.arrangement.Guarded)
    (p : PendingOpen)
    (ok : Bool) :
    (Session.arrangement (a.companionOpened p ok)).Guarded := by
  have hBooked := booked_companionOpened h.toBooked p ok
  by_cases hJoins : Session.Joins a p ok
  · have hEases := eases_companionOpened hJoins
    exact ⟨hBooked, hEases.host.attached.trans h.attached,
      hEases.host.guard.trans h.guard⟩
  · have hPath := path_companionOpened h.filed hJoins
    exact ⟨hBooked, hPath.attached.trans h.attached,
      hPath.guard.trans h.guard⟩

/- Due turns leave the pairing attached and on guard. -/
theorem guarded_turn
    (h : a.arrangement.Guarded)
    {t : Turn}
    (hDue : a.isDue t = true) :
    (a.turn t).arrangement.Guarded := by
  cases t with
  | command c => exact (path_perform h.toSound hDue).guarded h
  | complete task =>
      exact keeps_complete (guarded_dropTask h)
        (fun _ _ hs hPath => hPath.guarded hs)
        (fun _ p ok hb => guarded_companionOpened hb p ok) task

/- A pair that is made amiss does not stay in its place. -/
theorem not_staysPlaced_of_misplaces
    (h : a.arrangement.Placed)
    {t : Turn}
    (hDue : a.isDue t = true)
    (hAmiss : a.Misplaces t) :
    ¬ (a.turn t).StaysPlaced := by
  cases t with
  | command c => cases hAmiss
  | complete task =>
      cases task with
      | report u region preserveFocus => cases hAmiss
      | companion p =>
          rcases hAmiss with ⟨hAwaits, hWay⟩
          have hGuarded := guarded_turn h.toGuarded hDue
          have hOpen : a.workspace.isOpen p.companion = true := by
            rcases hWay with hIn | ⟨pair, hPair, hEq, -⟩
            · exact h.orderly.isOpen_of_mem hIn
            · rw [← hEq]
              exact h.orderly.isOpen_of_mem
                (h.beside pair hPair)
          rcases pairs_of_awaits h.toGuarded hAwaits hOpen with
            ⟨hRegistry, hShuffles⟩
          generalize a.turn (.complete (.companion p)) = b
            at hGuarded hRegistry hShuffles ⊢
          have hMem : ∀ pair, pair ∈ b.registry.pairList ↔
              pair = ⟨p.primary, p.companion⟩ ∨
                pair ∈ a.registry.pairList ∧
                  pair.primary ≠ p.primary := by
            intro pair
            rw [hRegistry]
            exact h.filed.mem_register_finishOpen p
          have hNew := (hMem _).mpr (Or.inl rfl)
          rcases hWay with hIn | ⟨pair, hPair, hEq, hNe⟩
          · -- The new pair is out of its place already.
            intro hStays
            have hPlaced := ((hStays [] (by simp)).1 _ hNew).2.1
            change _ ∈ b.workspace.documentsIn _ at hPlaced
            rw [hShuffles.pages] at hPlaced
            exact h.orderly.disjoint hIn hPlaced
          · -- The companion is shared, and may be dismissed.
            have hOld := (hMem pair).mpr (Or.inr ⟨hPair, hNe⟩)
            refine not_staysPlaced_of_shared hGuarded.toSound
              hGuarded.attached ?_ hNew hOld hEq.symm ?_
            · intro other hOther
              rw [hShuffles.pages]
              rcases (hMem other).mp hOther with rfl | hKept
              · rw [← hEq]
                exact h.beside pair hPair
              · exact h.beside other hKept.1
            · rintro rfl
              exact hNe rfl

----
-- Runs
----

theorem Begun.guarded
    (h : a.Begun) :
    a.arrangement.Guarded :=
  ⟨h.booked, h.attached, h.guard⟩

theorem Begun.placed
    (h : a.Begun) :
    a.arrangement.Placed := by
  have hPairs : a.registry.pairList = [] := by
    rw [h.registry]
    rfl
  refine ⟨h.guarded, ?_, ?_⟩
  all_goals
    intro pair hPair
    change pair ∈ a.registry.pairList at hPair
    rw [hPairs] at hPair
    cases hPair

theorem guarded_turns
    (h : a.arrangement.Guarded)
    {ts : List Turn}
    (hDue : a.areDue ts = true)
    (k : Nat) :
    (a.turns (ts.take k)).arrangement.Guarded := by
  induction ts generalizing a k with
  | nil =>
      rw [List.take_nil]
      exact h
  | cons t ts ih =>
      rcases Bool.and_eq_true_iff.mp hDue with
        ⟨hFirst, hRest⟩
      cases k with
      | zero => exact h
      | succ k => exact ih (guarded_turn h hFirst) hRest k

/-
  The primaries of all pairs are in their place at any time.
  The companions are and stay so, whatever is done, if and
  only if no turn makes a pair amiss.
-/
theorem staysPlaced_iff_not_misplaces
    (hBegun : a.Begun)
    {ts : List Turn}
    (hDue : a.areDue ts = true) :
    (∀ k, ∀ pair ∈ (a.turns (ts.take k)).registry.pairList,
        pair.primary ∈
          (a.turns (ts.take k)).workspace.documentsIn
            .primary) ∧
      ((∀ k, (a.turns (ts.take k)).StaysPlaced) ↔
        ∀ k t, ts[k]? = some t →
          ¬ (a.turns (ts.take k)).Misplaces t) := by
  refine ⟨fun k => ?_, ?_⟩
  · have hGuarded := guarded_turns hBegun.guarded hDue k
    exact hGuarded.seated hGuarded.attached
  · exact forall_turns_iff
      (I := (·.arrangement.Placed)) (B := Misplaces)
      (fun _ h => staysPlaced_of_placed h)
      (fun _ _ h hTurn hNot => placed_turn h hTurn hNot)
      (fun _ _ h hTurn hAmiss =>
        not_staysPlaced_of_misplaces h hTurn hAmiss)
      hBegun.placed hDue

/- The stylesheet of the site is put in its place. -/
theorem visit_staysPlaced :
    studio.areDue visit = true ∧
      (studio.turns visit).registry.pairList =
        [⟨"file:///index.html", "file:///a.css"⟩] ∧
      ∀ k, (studio.turns (visit.take k)).StaysPlaced := by
  have hDue : studio.areDue visit = true := by decide +kernel
  refine ⟨hDue, rfl, ?_⟩
  apply (staysPlaced_iff_not_misplaces begun_studio hDue).2.mpr
  intro k t ht hAmiss
  match k, ht with
  | 0, rfl => cases hAmiss
  | 1, rfl => cases hAmiss
  | 2, rfl =>
      rcases hAmiss with ⟨-, hIn | ⟨pair, hPair, -⟩⟩
      · have hPages : (studio.turns
            (visit.take 2)).workspace.documentsIn .primary =
              ["file:///index.html"] := rfl
        rw [hPages] at hIn
        exact absurd (List.mem_singleton.mp hIn) (by decide)
      · cases hPair

/- The stylesheet was open among the primaries before. -/
def crossed : List Turn :=
  .command (.openDocument "file:///a.css" .primary false) ::
    visit

/- It is paired where it lies, and would be dropped. -/
theorem crossed_not_pairsPlaced :
    studio.areDue crossed = true ∧
      (studio.turns crossed).registry.pairList =
        [⟨"file:///index.html", "file:///a.css"⟩] ∧
      (studio.turns crossed).workspace.documentsIn .secondary =
        [] ∧
      (Session.reconcile (studio.turns
        crossed)).registry.pairList = [] ∧
      ¬ (studio.turns crossed).PairsPlaced := by
  have hPairs : (studio.turns crossed).registry.pairList =
      [⟨"file:///index.html", "file:///a.css"⟩] := rfl
  have hPages : (studio.turns crossed).workspace.documentsIn
      .secondary = [] := rfl
  refine ⟨by decide +kernel, hPairs, hPages, rfl, ?_⟩
  intro hPlaced
  have hIn := (hPlaced.1 _ (hPairs ▸
    List.mem_singleton_self _)).2.1
  rw [hPages] at hIn
  cases hIn

end Application

end StyleCompanion
