import Mathlib.Logic.Relation
import StyleCompanion.Proofs.Application.Painting
import StyleCompanion.Proofs.Workspace.Order

/-
  What an application can do to its documents, pairs and
  openings.

  An arrangement is the part of an application that says where
  documents lie, how they are paired, which openings wait and
  what there is to paint with.  All that users, editors and the
  backend do to it comes down to a few moves: documents are
  shown, added, removed and closed, pairs are lost and taken
  over, and openings begin.  The end of an opening stands
  apart.

  An arrangement is sound if its workspace is orderly and the
  primaries of all pairs and openings lie in the primary
  region.  Every move keeps it sound.

  Main declarations:
    * `Arrangement`
    * `Arrangement.Move`
    * `Arrangement.Path`
    * `Arrangement.Sound`
    * `Arrangement.Move.sound`
    * `Pairing.Session.Eases`
    * `Pairing.Session.parted`
    * `Pairing.Session.move_parted`
    * `Pairing.Session.path_close`
-/

namespace StyleCompanion

open Pairing

----
-- A document is closed
----

/-
  A registry has let go of a closed document.  No pair or
  opening has it for its primary.  If it was no primary before
  and the companion of one pair at most, it is in no pair.
-/
structure Pairing.PairRegistry.Frees
    (u : String)
    (r t : PairRegistry) : Prop where
  loses : r.Loses t
  primary : t.pairForPrimary u = none
  pending : t.pendingFor u = none
  companion :
    r.pairForPrimary u = none → r.pendingFor u = none →
      (∀ p ∈ r.pairList, ∀ q ∈ r.pairList,
        p.companion = u → q.companion = u → p = q) →
      ¬ t.HasCompanion u

namespace Pairing.PairRegistry.Frees

variable {u : String} {r t x : PairRegistry}

/- Losses before do no harm. -/
theorem of_loses
    (h : r.Loses t)
    (k : t.Frees u x) :
    r.Frees u x where
  loses := h.trans k.loses
  primary := k.primary
  pending := k.pending
  companion hFree hIdle hOne :=
    k.companion (h.pairForPrimary_eq_none hFree)
      (h.pendingFor_eq_none hIdle) fun p hp q hq =>
        hOne p (h.mem_pairList hp) q (h.mem_pairList hq)

theorem primary_ne
    (h : r.Frees u t)
    (hFiled : r.Filed)
    {pair : DocumentPair}
    (hPair : pair ∈ t.pairList) :
    pair.primary ≠ u := by
  rintro rfl
  have hFound := (h.loses.filed hFiled).pairForPrimary hPair
  rw [h.primary] at hFound
  cases hFound

theorem pending_ne
    (h : r.Frees u t)
    (hFiled : r.Filed)
    {q : PendingOpen}
    (hPending : q ∈ t.pendingList) :
    q.primary ≠ u := by
  rintro rfl
  have hFound := (h.loses.filed hFiled).pendingFor hPending
  rw [h.pending] at hFound
  cases hFound

end Pairing.PairRegistry.Frees

namespace Pairing.Session

variable {H : Type} [Host H] {s : Session H} {u : String}

/- A primary without a pair only loses its opening. -/
theorem releasePrimary_of_none
    (h : s.registry.pairForPrimary u = none) :
    (s.releasePrimary u).1.registry =
        (s.registry.cancelOpen u).1 ∧
      (s.releasePrimary u).2 = none := by
  unfold releasePrimary
  dsimp only
  split
  next => split <;> exact ⟨rfl, rfl⟩
  next pair hPair =>
    have hFound : s.registry.pairForPrimary u = some pair := by
      split at hPair <;> exact hPair
    rw [h] at hFound
    cases hFound

/- A primary with a pair loses it, too. -/
theorem releasePrimary_of_some
    {pair : DocumentPair}
    (h : s.registry.pairForPrimary u = some pair) :
    (s.releasePrimary u).1.registry =
        (s.registry.cancelOpen u).1.remove pair.primary ∧
      (s.releasePrimary u).2 = some pair.companion := by
  unfold releasePrimary
  dsimp only
  split
  next hNone =>
    have hFree : s.registry.pairForPrimary u = none := by
      split at hNone <;> exact hNone
    rw [h] at hFree
    cases hFree
  next found hFound =>
    have hSame : s.registry.pairForPrimary u = some found := by
      split at hFound <;> exact hFound
    rw [h] at hSame
    cases hSame
    split <;> exact ⟨rfl, rfl⟩

theorem frees_releasePrimary
    (hFiled : s.registry.Filed)
    (h : s.registry.pairForPrimary u ≠ none ∨
      s.registry.pendingFor u ≠ none) :
    s.registry.Frees u (s.releasePrimary u).1.registry := by
  have hCancelled :
      (s.registry.cancelOpen u).1.pendingFor u = none :=
    Table.get?_erase_self _ u
  have hGone :
      (s.releasePrimary u).1.registry.pairForPrimary u = none ∧
        (s.releasePrimary u).1.registry.pendingFor u =
          none := by
    cases hPair : s.registry.pairForPrimary u with
    | none =>
        rw [(releasePrimary_of_none hPair).1]
        exact ⟨hPair, hCancelled⟩
    | some pair =>
        rw [(releasePrimary_of_some hPair).1,
          hFiled.primary_eq hPair]
        exact ⟨Table.get?_erase_self _ u, hCancelled⟩
  refine ⟨s.loses_releasePrimary u, hGone.1, hGone.2, ?_⟩
  intro hFree hIdle
  rcases h with hPaired | hWaiting
  · exact absurd hFree hPaired
  · exact absurd hIdle hWaiting

theorem frees_releaseClosed
    (hFiled : s.registry.Filed)
    (u : String) :
    s.registry.Frees u (s.releaseClosed u).1.registry := by
  unfold releaseClosed
  split
  next hPrimary =>
    apply frees_releasePrimary hFiled
    simpa [Option.isSome_iff_ne_none] using hPrimary
  next hPrimary =>
    have hNone : s.registry.pairForPrimary u = none ∧
        s.registry.pendingFor u = none := by
      simpa using hPrimary
    split
    next hFound =>
      rcases Option.isSome_iff_exists.mp hFound with
        ⟨pair, hPair⟩
      have hLoses := s.loses_companionClosed u
      refine ⟨hLoses,
        hLoses.pairForPrimary_eq_none hNone.1,
        hLoses.pendingFor_eq_none hNone.2, ?_⟩
      intro _ _ hOne hLeft
      rcases hLeft with ⟨other, hOther, hEq⟩
      have hSame := hOne other (hLoses.mem_pairList hOther)
        pair (PairRegistry.mem_pairList_of_pairForCompanion
          hPair)
        hEq (PairRegistry.companion_of_pairForCompanion hPair)
      unfold companionClosed at hOther
      rw [hPair] at hOther
      exact (hFiled.mem_remove.mp hOther).2
        (congrArg _ hSame)
    next hFound =>
      refine ⟨.refl _, hNone.1, hNone.2, ?_⟩
      intro _ _ _ hLeft
      rcases hLeft with ⟨other, hOther, hEq⟩
      have hAbsent : s.registry.pairForCompanion u = none := by
        simpa using hFound
      exact PairRegistry.pairForCompanion_eq_none_iff.mp
        hAbsent other hOther hEq

/- A companion drops the first pair that has it. -/
theorem releaseClosed_of_companion
    (hFree : s.registry.pairForPrimary u = none)
    (hIdle : s.registry.pendingFor u = none)
    {pair : DocumentPair}
    (hPair : s.registry.pairForCompanion u = some pair) :
    s.releaseClosed u = (s.dropPair pair, none) := by
  unfold releaseClosed companionClosed
  rw [hFree, hIdle, hPair]
  rfl

/- Whoever is closed lets its companion go, if it has one. -/
theorem releaseClosed_snd
    (s : Session H)
    (u : String) :
    (s.releaseClosed u).2 =
      (s.registry.pairForPrimary u).map (·.companion) := by
  unfold releaseClosed
  cases hPair : s.registry.pairForPrimary u with
  | some pair =>
      exact (releasePrimary_of_some hPair).2
  | none =>
      split
      · exact (releasePrimary_of_none hPair).2
      · split <;> rfl

/- The pairs of other primaries stay. -/
theorem pairForPrimary_releaseClosed
    (hFiled : s.registry.Filed)
    {c v : String}
    (h : (s.releaseClosed u).2 = some c)
    (hNe : u ≠ v) :
    (s.releaseClosed u).1.registry.pairForPrimary v =
      s.registry.pairForPrimary v := by
  rw [releaseClosed_snd] at h
  rcases Option.map_eq_some_iff.mp h with ⟨pair, hPair, -⟩
  unfold releaseClosed
  rw [if_pos (by rw [hPair]; rfl),
    (releasePrimary_of_some hPair).1, hFiled.primary_eq hPair]
  exact (Table.get?_erase _ u v).trans (if_neg hNe)

end Pairing.Session

----
-- Arrangements
----

/- The surface of the overlay as if it were switched on. -/
def Desktop.inks
    (d : Desktop) : Workspace.Surface :=
  { d.surface with enabled := true }

/-
  Where documents lie, how they are paired, which openings
  wait, and the colours for painting.
-/
structure Arrangement where
  workspace : Workspace
  guard : Desktop.Guard
  attached : Bool
  registry : PairRegistry
  tasks : List Desktop.Task
  inks : Workspace.Surface
  colors : Nat

/- The arrangement of an application. -/
def Pairing.Session.arrangement
    (a : Session Desktop) : Arrangement :=
  { workspace := a.host.workspace
    guard := a.host.guard
    attached := a.host.attached
    registry := a.registry
    tasks := a.host.tasks
    inks := a.host.inks
    colors := a.engine.paletteSize }

namespace Arrangement

/-
  A single move.  A pairing that follows the workspace closes
  a document together with its pairs and openings, and serves
  primaries of the primary region only.
-/
inductive Move
    (s : Arrangement) : Arrangement → Prop where
  | shuffle
      {w : Workspace}
      (h : s.workspace.Shuffles w) :
      Move s { s with workspace := w }
  | add
      {u : String}
      (hClosed : s.workspace.isOpen u = false)
      (region : Region)
      (e : Workspace.Editor) :
      Move s
        { s with workspace := s.workspace.add u region e }
  | remove
      (hPlain : s.attached = false)
      (u : String) :
      Move s
        { s with workspace := (s.workspace.remove u).1 }
  | close
      {u : String}
      {w : Workspace}
      {r : PairRegistry}
      (hOpen : s.workspace.isOpen u = true)
      (hLeft : (s.workspace.remove u).1.Shuffles w)
      (hFrees : s.registry.Frees u r) :
      Move s { s with workspace := w, registry := r }
  | lose
      {r : PairRegistry}
      (h : s.registry.Loses r) :
      Move s { s with registry := r }
  | takeOver
      {p c : String}
      {shared : DocumentPair}
      (hPlaced : s.attached = true →
        p ∈ s.workspace.documentsIn .primary ∧
          c ∈ s.workspace.documentsIn .secondary)
      (hShared : s.registry.pairForCompanion c = some shared) :
      Move s
        { s with
          registry :=
            (s.registry.remove shared.primary).register p c }
  | begin
      {p : String}
      (hPlaced : s.attached = true →
        p ∈ s.workspace.documentsIn .primary)
      (hIdle : s.registry.pendingFor p = none)
      (c : String) :
      Move s
        { s with
          registry := (s.registry.beginOpen p c).1
          tasks := s.tasks ++
            [.companion ⟨p, c, s.registry.nextToken⟩] }
  | request
      (uri : String)
      (region : Region)
      (preserveFocus : Bool) :
      Move s
        { s with
          tasks := s.tasks ++
            [.report uri region preserveFocus] }

/- Moves one after the other. -/
def Path
    (s t : Arrangement) : Prop :=
  Relation.ReflTransGen Move s t

namespace Path

variable {s t x : Arrangement}

theorem refl
    (s : Arrangement) :
    Path s s :=
  Relation.ReflTransGen.refl

theorem trans
    (h : Path s t)
    (k : Path t x) :
    Path s x :=
  Relation.ReflTransGen.trans h k

theorem of_eq
    (h : t = s) :
    Path s t := by
  rw [h]
  exact .refl s

theorem of_move
    (h : Move s t) :
    Path s t :=
  Relation.ReflTransGen.single h

/- What every move keeps holds at the end of a path. -/
theorem keeps
    {P : Arrangement → Prop}
    (h : Path s t)
    (hStart : P s)
    (hMove : ∀ x y, P x → Move x y → P y) :
    P t := by
  induction h with
  | refl => exact hStart
  | tail _ hLast ih => exact hMove _ _ ih hLast

/- The parts that no move changes. -/
theorem fixed
    (h : Path s t) :
    (t.attached, t.guard, t.inks, t.colors) =
      (s.attached, s.guard, s.inks, s.colors) := by
  refine h.keeps (P := fun x =>
    (x.attached, x.guard, x.inks, x.colors) = _) rfl ?_
  intro x y hx hMove
  cases hMove <;> exact hx

theorem attached
    (h : Path s t) :
    t.attached = s.attached :=
  congrArg (·.1) h.fixed

theorem guard
    (h : Path s t) :
    t.guard = s.guard :=
  congrArg (·.2.1) h.fixed

end Path

----
-- Sound arrangements
----

/-
  The workspace is orderly, the registry is filed, and the
  primaries that a pairing follows are primaries indeed.
-/
structure Sound
    (s : Arrangement) : Prop where
  orderly : s.workspace.Orderly
  filed : s.registry.Filed
  seated : s.attached = true →
    ∀ pair ∈ s.registry.pairList,
      pair.primary ∈ s.workspace.documentsIn .primary
  waiting : s.attached = true →
    ∀ q ∈ s.registry.pendingList,
      q.primary ∈ s.workspace.documentsIn .primary

variable {s t : Arrangement}

/- A companion of the secondary region is no primary. -/
theorem Sound.pairForPrimary_eq_none
    (h : s.Sound)
    (hAttached : s.attached = true)
    {u : String}
    (hPlaced : u ∈ s.workspace.documentsIn .secondary) :
    s.registry.pairForPrimary u = none := by
  cases hPair : s.registry.pairForPrimary u with
  | none => rfl
  | some pair =>
      have hSeated := h.seated hAttached pair
        (PairRegistry.mem_pairList_of_pairForPrimary hPair)
      rw [h.filed.primary_eq hPair] at hSeated
      exact absurd hPlaced (h.orderly.disjoint hSeated)

theorem Sound.pendingFor_eq_none
    (h : s.Sound)
    (hAttached : s.attached = true)
    {u : String}
    (hPlaced : u ∈ s.workspace.documentsIn .secondary) :
    s.registry.pendingFor u = none := by
  cases hPending : s.registry.pendingFor u with
  | none => rfl
  | some q =>
      have hWaiting := h.waiting hAttached q
        (PairRegistry.mem_pendingList_of_pendingFor hPending)
      rw [h.filed.pending _ (Table.mem_of_get? hPending)]
        at hWaiting
      exact absurd hPlaced (h.orderly.disjoint hWaiting)

/- Losses leave nothing out of its place. -/
theorem Sound.of_loses
    (h : s.Sound)
    {r : PairRegistry}
    (hLoses : s.registry.Loses r) :
    Sound { s with registry := r } where
  orderly := h.orderly
  filed := hLoses.filed h.filed
  seated hAttached pair hPair :=
    h.seated hAttached pair (hLoses.mem_pairList hPair)
  waiting hAttached q hq :=
    h.waiting hAttached q (hLoses.mem_pendingList hq)

/- A pair of a primary in its place may be registered. -/
theorem Sound.register
    (h : s.Sound)
    {p : String}
    (hPlaced : s.attached = true →
      p ∈ s.workspace.documentsIn .primary)
    (c : String) :
    Sound { s with registry := s.registry.register p c } where
  orderly := h.orderly
  filed := h.filed.register p c
  seated hAttached pair hPair := by
    rcases h.filed.mem_register.mp hPair with hNew | hOld
    · rw [hNew]
      exact hPlaced hAttached
    · exact h.seated hAttached pair hOld.1
  waiting := h.waiting

theorem Sound.shuffle
    (h : s.Sound)
    {w : Workspace}
    (hShuffles : s.workspace.Shuffles w) :
    Sound { s with workspace := w } where
  orderly := hShuffles.orderly h.orderly
  filed := h.filed
  seated hAttached pair hPair := by
    rw [hShuffles.pages]
    exact h.seated hAttached pair hPair
  waiting hAttached q hq := by
    rw [hShuffles.pages]
    exact h.waiting hAttached q hq

/- Nothing that is left names the closed document. -/
theorem Sound.close
    (h : s.Sound)
    {u : String}
    {w : Workspace}
    {r : PairRegistry}
    (hOpen : s.workspace.isOpen u = true)
    (hLeft : (s.workspace.remove u).1.Shuffles w)
    (hFrees : s.registry.Frees u r) :
    Sound { s with workspace := w, registry := r } where
  orderly := hLeft.orderly (h.orderly.remove u)
  filed := hFrees.loses.filed h.filed
  seated hAttached pair hPair := by
    rw [hLeft.pages, Workspace.documentsIn_remove hOpen _ _
      (hFrees.primary_ne h.filed hPair)]
    exact h.seated hAttached pair
      (hFrees.loses.mem_pairList hPair)
  waiting hAttached q hq := by
    rw [hLeft.pages, Workspace.documentsIn_remove hOpen _ _
      (hFrees.pending_ne h.filed hq)]
    exact h.waiting hAttached q
      (hFrees.loses.mem_pendingList hq)

theorem Sound.begin
    (h : s.Sound)
    {p : String}
    (hPlaced : s.attached = true →
      p ∈ s.workspace.documentsIn .primary)
    (c : String)
    (tasks : List Desktop.Task) :
    Sound
      { s with
        registry := (s.registry.beginOpen p c).1
        tasks := tasks } where
  orderly := h.orderly
  filed := h.filed.beginOpen p c
  seated hAttached pair hPair := by
    refine h.seated hAttached pair ?_
    unfold PairRegistry.beginOpen at hPair
    split at hPair <;> exact hPair
  waiting hAttached q hq := by
    rcases h.filed.mem_pendingList_beginOpen hq with
      hOld | hNew
    · exact h.waiting hAttached q hOld
    · rw [hNew]
      exact hPlaced hAttached

/- Every move keeps an arrangement sound. -/
theorem Move.sound
    (hMove : Move s t)
    (h : s.Sound) :
    t.Sound := by
  cases hMove with
  | shuffle hShuffles => exact h.shuffle hShuffles
  | add hClosed region e =>
      refine ⟨h.orderly.add hClosed region e, h.filed, ?_, ?_⟩
      all_goals
        intro hAttached x hx
        rw [Workspace.documentsIn_add]
      · split
        · exact List.mem_append_left _
            (h.seated hAttached x hx)
        · exact h.seated hAttached x hx
      · split
        · exact List.mem_append_left _
            (h.waiting hAttached x hx)
        · exact h.waiting hAttached x hx
  | remove hPlain u =>
      have hNot : s.attached ≠ true := by simp [hPlain]
      exact ⟨h.orderly.remove u, h.filed,
        fun hAttached => absurd hAttached hNot,
        fun hAttached => absurd hAttached hNot⟩
  | close hOpen hLeft hFrees =>
      exact h.close hOpen hLeft hFrees
  | lose hLoses => exact h.of_loses hLoses
  | takeOver hPlaced hShared =>
      exact (h.of_loses (PairRegistry.loses_remove _ _)).register
        (fun hAttached => (hPlaced hAttached).1) _
  | begin hPlaced hIdle c => exact h.begin hPlaced c _
  | request uri region preserveFocus =>
      exact ⟨h.orderly, h.filed, h.seated, h.waiting⟩

theorem Path.sound
    (hPath : Path s t)
    (h : s.Sound) :
    t.Sound :=
  hPath.keeps h fun _ _ hx hMove => hMove.sound hx

end Arrangement

open Arrangement (Move Path)

----
-- Desktops
----

namespace Desktop

/- What a desktop has of an arrangement. -/
def layout
    (d : Desktop) : Workspace × Guard × Bool × List Task ×
      Workspace.Surface :=
  (d.workspace, d.guard, d.attached, d.tasks, d.inks)

variable {d e f : Desktop}

theorem layout_of_bare
    (h : e.bare = d.bare) :
    e.layout = d.layout :=
  (congrArg layout h :)

theorem layout_logAll
    (d : Desktop)
    (rs : List LogRecord) :
    (d.logAll rs).layout = d.layout :=
  layout_of_bare (d.bare_logAll rs)

theorem layout_showMessage
    (d : Desktop)
    (text : String)
    (duration : Nat) :
    (d.showMessage text duration).layout = d.layout :=
  layout_of_bare (d.bare_showMessage text duration)

theorem layout_absorb
    (d : Desktop)
    (c : Client) :
    (d.absorb c).layout = d.layout :=
  layout_of_bare (d.bare_absorb c)

theorem layout_onClient
    (d : Desktop)
    (f : Client → Client) :
    (d.onClient f).layout = d.layout :=
  layout_of_bare (d.bare_onClient f)

theorem layout_settle
    (d : Desktop)
    (engine : Overlay.Engine)
    (e : HostEvent) :
    (d.settle engine e).layout = d.layout :=
  layout_of_bare (d.bare_settle engine e)

/- Only what is shown may be another. -/
structure Shuffles
    (d e : Desktop) : Prop where
  workspace : d.workspace.Shuffles e.workspace
  guard : e.guard = d.guard
  attached : e.attached = d.attached
  tasks : e.tasks = d.tasks
  inks : e.inks = d.inks

namespace Shuffles

theorem of_layout
    (h : e.layout = d.layout) :
    d.Shuffles e := by
  simp only [layout, Prod.mk.injEq] at h
  rcases h with ⟨hWorkspace, hFixed⟩
  refine ⟨?_, hFixed.1, hFixed.2.1, hFixed.2.2.1, hFixed.2.2.2⟩
  rw [hWorkspace]
  exact .refl _

theorem refl
    (d : Desktop) :
    d.Shuffles d :=
  of_layout rfl

theorem trans
    (h : d.Shuffles e)
    (k : e.Shuffles f) :
    d.Shuffles f where
  workspace := h.workspace.trans k.workspace
  guard := k.guard.trans h.guard
  attached := k.attached.trans h.attached
  tasks := k.tasks.trans h.tasks
  inks := k.inks.trans h.inks

theorem of_workspace
    {w : Workspace}
    (h : d.workspace.Shuffles w) :
    d.Shuffles { d with workspace := w } :=
  ⟨h, rfl, rfl, rfl, rfl⟩

theorem paintOn
    (s : Workspace.Surface)
    (uri slot : String)
    (spans : List Overlay.LineSpan) :
    d.Shuffles (d.paintOn s uri slot spans) := by
  refine (of_workspace ?_).trans
    (of_layout (layout_logAll _ _))
  rcases Session.paint_cases s d.workspace uri slot spans with
    hSame | ⟨ss, hPainted⟩
  · rw [hSame]
    exact .refl _
  · rw [hPainted]
    exact Workspace.shuffles_onEditor _ _ _

theorem decorate
    (effect : Overlay.Effect) :
    d.Shuffles (d.decorate effect) := by
  cases effect with
  | log r => exact of_layout rfl
  | clear uri =>
      exact of_workspace (Workspace.shuffles_onEditor _ _ _)
  | paint uri slot spans => exact paintOn _ uri slot spans
  | rendered uri rows =>
      exact (of_workspace
        (Workspace.shuffles_onEditor _ _ _)).trans
          (of_layout rfl)

theorem decorateAll
    (effects : List Overlay.Effect) :
    d.Shuffles (effects.foldl Desktop.decorate d) := by
  induction effects generalizing d with
  | nil => exact .refl d
  | cons e effects ih => exact (decorate e).trans ih

theorem reveal
    (uri : String)
    (wanted : Option Region) :
    d.Shuffles (d.reveal uri wanted) :=
  (of_workspace (d.workspace.shuffles_bringForward uri)).trans
    (of_layout (layout_logAll _ _))

end Shuffles

/- A document that is read again stays where it is. -/
theorem shuffles_reread
    (d : Desktop)
    (uri : String) :
    (∃ e, d.reread uri = .failed d e) ∨
      ∃ e changed,
        d.reread uri = .done e changed ∧ d.Shuffles e := by
  unfold reread
  split
  · exact Or.inr ⟨_, _, rfl, .refl d⟩
  · dsimp only
    split
    · exact Or.inl ⟨_, rfl⟩
    · exact Or.inr ⟨_, _, rfl, .of_layout rfl⟩
    · split
      · exact Or.inr ⟨_, _, rfl, .refl d⟩
      · exact Or.inr ⟨_, _, rfl, .of_workspace
          (Workspace.shuffles_onEditor _ _ _)⟩

end Desktop

----
-- The pairing
----

namespace Pairing.Session

variable {a b c : Session Desktop}

/- Pairs and openings are lost, and documents only shown. -/
structure Eases
    (a b : Session Desktop) : Prop where
  registry : a.registry.Loses b.registry
  host : a.host.Shuffles b.host
  colors : b.engine.paletteSize = a.engine.paletteSize

namespace Eases

theorem refl
    (a : Session Desktop) :
    a.Eases a :=
  ⟨.refl _, .refl _, rfl⟩

theorem trans
    (h : a.Eases b)
    (k : b.Eases c) :
    a.Eases c :=
  ⟨h.registry.trans k.registry, h.host.trans k.host,
    k.colors.trans h.colors⟩

theorem of_shuffles
    (hRegistry : b.registry = a.registry)
    (hColors : b.engine.paletteSize = a.engine.paletteSize)
    (h : a.host.Shuffles b.host) :
    a.Eases b := by
  refine ⟨?_, h, hColors⟩
  rw [hRegistry]
  exact .refl _

theorem of_layout
    (hRegistry : b.registry = a.registry)
    (hColors : b.engine.paletteSize = a.engine.paletteSize)
    (h : b.host.layout = a.host.layout) :
    a.Eases b :=
  of_shuffles hRegistry hColors (.of_layout h)

theorem of_arrangement
    (h : b.arrangement = a.arrangement) :
    a.Eases b := by
  simp only [arrangement, Arrangement.mk.injEq] at h
  rcases h with ⟨hWorkspace, hGuard, hAttached, hRegistry,
    hTasks, hInks, hColors⟩
  refine of_layout hRegistry hColors ?_
  unfold Desktop.layout
  rw [hWorkspace, hGuard, hAttached, hTasks, hInks]

theorem path
    (h : a.Eases b) :
    Path a.arrangement b.arrangement := by
  have hArranged : b.arrangement =
      { a.arrangement with
        workspace := b.host.workspace
        registry := b.registry } := by
    unfold arrangement
    rw [h.host.guard, h.host.attached, h.host.tasks,
      h.host.inks, h.colors]
  rw [hArranged]
  exact (Path.of_move (.shuffle h.host.workspace)).trans
    (Path.of_move (s := { a.arrangement with
      workspace := b.host.workspace }) (.lose h.registry))

end Eases

theorem arrangement_eq
    (hRegistry : b.registry = a.registry)
    (hColors : b.engine.paletteSize = a.engine.paletteSize)
    (hLayout : b.host.layout = a.host.layout) :
    b.arrangement = a.arrangement := by
  simp only [Desktop.layout, Prod.mk.injEq] at hLayout
  rcases hLayout with
    ⟨hWorkspace, hGuard, hAttached, hTasks, hInks⟩
  unfold arrangement
  rw [hRegistry, hWorkspace, hGuard, hAttached, hTasks, hInks,
    hColors]

@[simp] theorem arrangement_settle
    (a : Session Desktop)
    (e : HostEvent) :
    (a.settle e).arrangement = a.arrangement :=
  arrangement_eq rfl rfl (a.host.layout_settle a.engine e)

theorem workspace_settle
    (a : Session Desktop)
    (e : HostEvent) :
    (a.settle e).host.workspace = a.host.workspace :=
  congrArg Arrangement.workspace (a.arrangement_settle e)

theorem tasks_settle
    (a : Session Desktop)
    (e : HostEvent) :
    (a.settle e).host.tasks = a.host.tasks :=
  congrArg Arrangement.tasks (a.arrangement_settle e)

theorem eases_render
    (a : Session Desktop)
    (view : String)
    (m : Attribution.Model) :
    a.Eases (a.render view m) :=
  .of_shuffles rfl (a.engine.paletteSize_render view m _)
    (.decorateAll _)

theorem eases_clearView
    (a : Session Desktop)
    (view : String) :
    a.Eases (a.clearView view) :=
  .of_shuffles rfl rfl (.decorateAll _)

theorem layout_reconcile
    (a : Session Desktop) :
    a.reconcile.host.layout = a.host.layout :=
  a.reconcile_induction (P := (·.host.layout = a.host.layout))
    rfl fun _ _ _ h => h

theorem eases_reconcile
    (a : Session Desktop) :
    a.Eases a.reconcile :=
  ⟨a.loses_reconcile, .of_layout a.layout_reconcile,
    a.paletteSize_reconcile⟩

theorem eases_reveal
    (a : Session Desktop)
    (uri : String)
    (region : Region) :
    a.Eases { a with host := Host.reveal a.host uri region } :=
  .of_shuffles rfl rfl (.reveal uri (some region))

theorem eases_activeViewChanged
    (a : Session Desktop)
    (uri : String) :
    a.Eases (a.activeViewChanged uri) := by
  have hReconcile := a.eases_reconcile
  unfold activeViewChanged
  dsimp only
  split
  · unfold primaryFocused
    split
    · exact hReconcile
    · exact hReconcile.trans (eases_reveal _ _ _)
  · split
    · unfold companionFocused
      split
      · exact hReconcile
      · exact hReconcile.trans (eases_reveal _ _ _)
    · exact hReconcile

theorem eases_settle
    (a : Session Desktop)
    (e : HostEvent) :
    a.Eases (a.settle e) :=
  .of_layout rfl rfl (a.host.layout_settle a.engine e)

theorem eases_noticeActivated
    (a : Session Desktop)
    (activated : Option (String × Region)) :
    a.Eases (a.noticeActivated activated) := by
  cases activated with
  | none => exact .refl a
  | some place =>
      exact (a.eases_activeViewChanged place.1).trans
        (eases_settle _ _)

theorem layout_releaseClosed
    (a : Session Desktop)
    (u : String) :
    (a.releaseClosed u).1.host.layout = a.host.layout ∧
      (a.releaseClosed u).1.engine.paletteSize =
        a.engine.paletteSize := by
  unfold releaseClosed releasePrimary companionClosed
  dsimp only
  repeat' split
  all_goals exact ⟨rfl, rfl⟩

theorem eases_releaseClosed
    (a : Session Desktop)
    (u : String) :
    a.Eases (a.releaseClosed u).1 :=
  ⟨a.loses_releaseClosed u,
    .of_layout (a.layout_releaseClosed u).1,
    (a.layout_releaseClosed u).2⟩

theorem eases_companionEdited
    (a : Session Desktop)
    (u : String) :
    a.Eases (a.companionEdited u) := by
  unfold companionEdited
  split
  · exact .refl a
  · exact (Eases.of_layout (a := a)
      (b := (a.debug _).dropModel u) rfl rfl rfl).trans
      (eases_clearView _ u)

theorem eases_refreshAndRender
    (a : Session Desktop)
    (companion : String)
    (m : Attribution.Model) :
    a.Eases (a.refreshAndRender companion m).1 := by
  have hShown : ∀ b : Session Desktop,
      b.Eases ((b.keepModel companion m).render companion m) :=
    fun b => (Eases.of_layout (a := b)
      (b := b.keepModel companion m) rfl rfl rfl).trans
        (eases_render _ companion m)
  unfold refreshAndRender
  rcases a.host.shuffles_reread companion with
    ⟨e, hRead⟩ | ⟨d, edited, hRead, hShuffles⟩
  · change Host.refresh a.host companion = _ at hRead
    rw [hRead]
    exact .refl a
  · change Host.refresh a.host companion = _ at hRead
    rw [hRead]
    have hFirst : a.Eases { a with host := d } :=
      .of_shuffles rfl rfl hShuffles
    dsimp only
    split
    · exact (hFirst.trans ((eases_companionEdited _ _).trans
        (eases_settle _ _))).trans (hShown _)
    · exact hFirst.trans (hShown _)

theorem eases_teardown
    (a : Session Desktop) :
    a.Eases a.teardown := by
  have hViews : ∀ (pairs : List DocumentPair)
      (a : Session Desktop),
      a.Eases (pairs.foldl
        (fun s pair => s.clearView pair.companion) a) := by
    intro pairs
    induction pairs with
    | nil => exact Eases.refl
    | cons pair pairs ih =>
        exact fun a => (a.eases_clearView _).trans (ih _)
  have hCleared := hViews a.registry.pairList a
  exact ⟨a.loses_teardown, hCleared.host, hCleared.colors⟩

----
-- Closing
----

variable {u : String}

/- The workspace and the registry after one closing. -/
theorem arrangement_parted
    (hFiled : a.registry.Filed)
    (u : String) :
    ∃ w r,
      (a.parted u).1.arrangement =
          { a.arrangement with workspace := w, registry := r } ∧
        (a.host.workspace.remove u).1.Shuffles w ∧
        a.registry.Frees u r := by
  have hNoticed := (a.without u).eases_noticeActivated
    (a.host.workspace.remove u).2
  have hReleased := frees_releaseClosed
    (hNoticed.registry.filed hFiled) u
  have hParted : (a.without u).Eases (a.parted u).1 :=
    hNoticed.trans (eases_releaseClosed _ u)
  refine ⟨(a.parted u).1.host.workspace,
    (a.parted u).1.registry, ?_, hParted.host.workspace,
    .of_loses hNoticed.registry hReleased⟩
  unfold arrangement
  rw [hParted.host.guard, hParted.host.attached,
    hParted.host.tasks, hParted.host.inks, hParted.colors]
  rfl

theorem workspace_parted
    (hFiled : a.registry.Filed)
    (u : String) :
    (a.host.workspace.remove u).1.Shuffles
      (a.parted u).1.host.workspace := by
  rcases arrangement_parted hFiled u with
    ⟨w, r, hParted, hLeft, -⟩
  have hWorkspace := congrArg Arrangement.workspace hParted
  change (a.parted u).1.host.workspace = w at hWorkspace
  rw [hWorkspace]
  exact hLeft

theorem frees_parted
    (hFiled : a.registry.Filed)
    (u : String) :
    a.registry.Frees u (a.parted u).1.registry := by
  rcases arrangement_parted hFiled u with
    ⟨w, r, hParted, -, hFrees⟩
  have hRegistry := congrArg Arrangement.registry hParted
  change (a.parted u).1.registry = r at hRegistry
  rw [hRegistry]
  exact hFrees

theorem move_parted
    (hFiled : a.registry.Filed)
    (hOpen : a.host.workspace.isOpen u = true) :
    Move a.arrangement (a.parted u).1.arrangement := by
  rcases arrangement_parted hFiled u with
    ⟨w, r, hParted, hLeft, hFrees⟩
  rw [hParted]
  exact .close hOpen hLeft hFrees

/- A plain editor just closes the document. -/
theorem arrangement_closeWithin_plain
    (hPlain : a.host.attached = false)
    (hOpen : a.host.workspace.isOpen u = true)
    (n : Nat) :
    (closeWithin (n + 1) a u).arrangement =
      { a.arrangement with
        workspace := (a.host.workspace.remove u).1 } := by
  have hClose : ∃ d, Host.close a.host u = ⟨d, none, false⟩ ∧
      d.layout = (a.without u).host.layout := by
    change ∃ d, Desktop.close a.host u = _ ∧ _
    unfold Desktop.close
    rw [if_neg (by simp [hOpen])]
    dsimp only
    rw [if_neg (by simp [hPlain])]
    cases (a.host.workspace.remove u).2 with
    | none => exact ⟨_, rfl, rfl⟩
    | some place => exact ⟨_, rfl, rfl⟩
  rcases hClose with ⟨d, hClose, hLayout⟩
  unfold closeWithin
  rw [hClose]
  exact arrangement_eq (a := a.without u) rfl rfl hLayout

/- A closing is a path, with all that it closes. -/
theorem path_closeWithin
    (hFiled : a.registry.Filed)
    (fuel : Nat)
    (u : String) :
    Path a.arrangement (closeWithin fuel a u).arrangement := by
  induction fuel generalizing a u with
  | zero => exact .refl _
  | succ n ih =>
      cases hOpen : a.host.workspace.isOpen u with
      | false =>
          rw [closeWithin_eq_self hOpen]
          exact .refl _
      | true =>
          cases hAttached : a.host.attached with
          | false =>
              rw [arrangement_closeWithin_plain hAttached hOpen]
              exact .of_move (.remove hAttached u)
          | true =>
              rw [closeWithin_eq_parted hAttached hOpen,
                arrangement_settle]
              have hMove := move_parted hFiled hOpen
              cases (a.parted u).2 with
              | none => exact .of_move hMove
              | some c =>
                  exact (Path.of_move hMove).trans
                    (ih ((frees_parted hFiled u).loses.filed
                      hFiled) c)

/- No closing adds to the openings that wait. -/
theorem tasks_closeWithin
    (fuel : Nat)
    (a : Session Desktop)
    (u : String) :
    (closeWithin fuel a u).host.tasks = a.host.tasks := by
  induction fuel generalizing a u with
  | zero => rfl
  | succ n ih =>
      cases hOpen : a.host.workspace.isOpen u with
      | false => rw [closeWithin_eq_self hOpen]
      | true =>
          cases hAttached : a.host.attached with
          | false =>
              exact congrArg Arrangement.tasks
                (arrangement_closeWithin_plain hAttached
                  hOpen n)
          | true =>
              have hParted : (a.parted u).1.host.tasks =
                  a.host.tasks :=
                (((a.without u).eases_noticeActivated _).trans
                  (eases_releaseClosed _ u)).host.tasks
              rw [closeWithin_eq_parted hAttached hOpen,
                tasks_settle]
              cases (a.parted u).2 with
              | none => exact hParted
              | some c => exact (ih _ c).trans hParted

theorem path_close
    (hFiled : a.registry.Filed)
    (u : String) :
    Path a.arrangement (a.close u).arrangement :=
  path_closeWithin hFiled _ u

/-
  A document of the secondary region is nobody's primary, so
  nothing else is closed with it.
-/
theorem close_of_secondary
    (hSound : a.arrangement.Sound)
    (hAttached : a.host.attached = true)
    (hPlaced : u ∈ a.host.workspace.documentsIn .secondary) :
    a.close u = (a.parted u).1.settle (.closed u) := by
  have hOpen : a.host.workspace.isOpen u = true :=
    hSound.orderly.isOpen_of_mem hPlaced
  have hNone : (a.parted u).2 = none := by
    have hFree := hSound.pairForPrimary_eq_none hAttached
      hPlaced
    unfold parted
    rw [releaseClosed_snd, (loses_noticeActivated
      (a.without u) _).pairForPrimary_eq_none hFree]
    rfl
  unfold close
  rw [closeWithin_eq_parted hAttached hOpen, hNone]

end Pairing.Session

end StyleCompanion
