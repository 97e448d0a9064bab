import StyleCompanion.Proofs.Application.Reach
import StyleCompanion.Proofs.Application.Places

/-
  Following the focus.

  When another document gets the focus, the pairing brings the
  other one of its pair forward, unless that is shown already.
  To see what it tells the editor, an editor is watched: all
  commands are written down, and nothing else is different.
  With all pairs in their places one command is enough, and
  the same event finds nothing to do afterwards.

  Main declarations:
    * `Watched`
    * `Session.unwatch_noticeActivated`
    * `Session.focusCommands`
    * `Session.focusCommands_eq`
    * `Workspace.shownIn_bringForward`
    * `Application.Undisturbed`
    * `Application.focus_reaches_stable_layout`
-/

namespace StyleCompanion

open Pairing

----
-- Watching an editor
----

namespace Pairing

/- What an editor is told to do with documents. -/
inductive HostCommand where
  | requestOpen (p : PendingOpen)
  | reveal (uri : String) (region : Region)
  | refresh (uri : String)
  | close (uri : String)
  deriving DecidableEq, Repr

/- An editor with the commands that it was given. -/
structure Watched (H : Type) where
  host : H
  commands : List HostCommand

namespace Watched

variable {H : Type} [Host H]

/- Give a command and write it down. -/
def give
    {H : Type}
    (w : Watched H)
    (c : HostCommand)
    (h : H) : Watched H :=
  ⟨h, w.commands ++ [c]⟩

instance : Host (Watched H) where
  documentsIn w := Host.documentsIn w.host
  activeIn w := Host.activeIn w.host
  isOpen w := Host.isOpen w.host
  isVisible w := Host.isVisible w.host
  lineCount w := Host.lineCount w.host
  log w r := { w with host := Host.log w.host r }
  decorate w e := { w with host := Host.decorate w.host e }
  requestOpen w p :=
    w.give (.requestOpen p) (Host.requestOpen w.host p)
  reveal w uri region :=
    w.give (.reveal uri region)
      (Host.reveal w.host uri region)
  refresh w uri :=
    match Host.refresh w.host uri with
    | .done h edited => .done (w.give (.refresh uri) h) edited
    | .failed h e => .failed (w.give (.refresh uri) h) e
  close w uri :=
    let r := Host.close w.host uri
    ⟨w.give (.close uri) r.host, r.activated, r.reported⟩
  settled w engine e :=
    { w with host := Host.settled w.host engine e }

end Watched

namespace Session

variable {H : Type}

/- Begin to watch the editor of a session. -/
def watch
    (s : Session H) : Session (Watched H) :=
  ⟨s.registry, s.models, s.engine, ⟨s.host, []⟩⟩

/- Forget what was written down. -/
def unwatch
    (s : Session (Watched H)) : Session H :=
  ⟨s.registry, s.models, s.engine, s.host.host⟩

variable [Host H]

theorem unwatch_reconcile
    (s : Session (Watched H)) :
    s.reconcile.unwatch = s.unwatch.reconcile := by
  have hFold :
      ∀ (present : List String) (pairs : List DocumentPair)
        (s : Session (Watched H)),
        (pairs.foldl (unpairVanished present) s).unwatch =
          pairs.foldl (unpairVanished present) s.unwatch := by
    intro present pairs
    induction pairs with
    | nil =>
        intro s
        rfl
    | cons pair pairs ih =>
        intro s
        have hStep :
            (unpairVanished present s pair).unwatch =
              unpairVanished present s.unwatch pair := by
          unfold unpairVanished
          split <;> rfl
        rw [List.foldl_cons, List.foldl_cons, ih, hStep]
  exact hFold _ _ s

theorem unwatch_primaryFocused
    (s : Session (Watched H))
    (pair : DocumentPair) :
    (s.primaryFocused pair).unwatch =
      s.unwatch.primaryFocused pair := by
  unfold primaryFocused
  by_cases hShown :
      Host.activeIn s.host .secondary = some pair.companion
  · rw [if_pos hShown]
    exact (if_pos hShown).symm
  · rw [if_neg hShown]
    exact (if_neg hShown).symm

theorem unwatch_companionFocused
    (s : Session (Watched H))
    (pair : DocumentPair) :
    (s.companionFocused pair).unwatch =
      s.unwatch.companionFocused pair := by
  unfold companionFocused
  by_cases hVisible :
      Host.isVisible s.host pair.primary = true
  · rw [if_pos hVisible]
    exact (if_pos hVisible).symm
  · rw [if_neg hVisible]
    exact (if_neg hVisible).symm

theorem unwatch_activeViewChanged
    (s : Session (Watched H))
    (uri : String) :
    (s.activeViewChanged uri).unwatch =
      s.unwatch.activeViewChanged uri := by
  have hRegistry :
      s.unwatch.reconcile.registry = s.reconcile.registry :=
    congrArg Session.registry s.unwatch_reconcile.symm
  unfold activeViewChanged
  dsimp only
  rw [hRegistry]
  cases s.reconcile.registry.pairForPrimary uri with
  | some pair =>
      dsimp only
      rw [unwatch_primaryFocused, unwatch_reconcile]
  | none =>
      cases s.reconcile.registry.pairForCompanion uri with
      | some pair =>
          dsimp only
          rw [unwatch_companionFocused, unwatch_reconcile]
      | none => exact s.unwatch_reconcile

/- An activation is handled in the same way if watched. -/
theorem unwatch_noticeActivated
    (s : Session (Watched H))
    (activated : Option (String × Region)) :
    (s.noticeActivated activated).unwatch =
      s.unwatch.noticeActivated activated := by
  cases activated with
  | none => rfl
  | some place =>
      exact congrArg (·.settle (.activated place.1 place.2))
        (s.unwatch_activeViewChanged place.1)

/- The commands that a change of the focus leads to. -/
def focusCommands
    (s : Session H)
    (uri : String)
    (region : Region) : List HostCommand :=
  (s.watch.noticeActivated (some (uri, region))).host.commands

----
-- What comes forward
----

/-
  The document that has to come forward when another gets the
  focus: the other one of the pair, unless it is shown.
-/
def toReveal
    (s : Session H)
    (uri : String) : Option (String × Region) :=
  match s.registry.pairForPrimary uri with
  | some pair =>
      if Host.activeIn s.host .secondary = some pair.companion
      then none
      else some (pair.companion, .secondary)
  | none =>
      match s.registry.pairForCompanion uri with
      | some pair =>
          if Host.isVisible s.host pair.primary then none
          else some (pair.primary, .primary)
      | none => none

/- Bring a document forward, if there is one to bring. -/
def revealing
    (s : Session H)
    (place : Option (String × Region)) : Session H :=
  match place with
  | none => s
  | some (uri, region) =>
      { s with host := Host.reveal s.host uri region }

variable {s : Session H}

/- With all companions in place one is brought forward. -/
theorem activeViewChanged_eq_revealing
    (h :
      ∀ pair ∈ s.registry.pairList,
        pair.companion ∈ Host.documentsIn s.host .secondary)
    (uri : String) :
    s.activeViewChanged uri = s.revealing (s.toReveal uri) := by
  unfold activeViewChanged toReveal
  rw [reconcile_eq_self s h]
  dsimp only
  cases s.registry.pairForPrimary uri with
  | some pair =>
      dsimp only
      unfold primaryFocused
      split <;> rfl
  | none =>
      cases s.registry.pairForCompanion uri with
      | some pair =>
          dsimp only
          unfold companionFocused
          split <;> rfl
      | none => rfl

theorem focusCommands_eq
    (h :
      ∀ pair ∈ s.registry.pairList,
        pair.companion ∈ Host.documentsIn s.host .secondary)
    (uri : String)
    (region : Region) :
    s.focusCommands uri region =
      (s.toReveal uri).toList.map fun place =>
        .reveal place.1 place.2 := by
  change (s.watch.activeViewChanged uri).host.commands = _
  rw [activeViewChanged_eq_revealing (s := s.watch) h]
  change (s.watch.revealing (s.toReveal uri)).host.commands = _
  cases s.toReveal uri <;> rfl

end Session

end Pairing

----
-- Pages that come forward
----

namespace Workspace

variable {w : Workspace} {u : String} {region : Region}

/- A page comes forward in its own region. -/
theorem shownIn_bringForward
    (hSorted : w.Sorted)
    (h : u ∈ w.documentsIn region)
    (other : Region) :
    (w.bringForward u).shownIn other =
      if region = other then some u else w.shownIn other := by
  have hRegion := (hSorted.placed region u).mp h
  have hTabs :
      (w.tabs region).bringForward u =
        { w.tabs region with current := some u } :=
    if_pos h
  unfold bringForward shownIn
  rw [hRegion]
  dsimp only
  rw [tabs_setTabs, hTabs]
  split <;> rfl

theorem isVisible_iff
    (hSorted : w.Sorted)
    (h : u ∈ w.documentsIn region) :
    w.isVisible u = true ↔ w.shownIn region = some u := by
  have hRegion := (hSorted.placed region u).mp h
  unfold isVisible
  rw [hRegion]
  exact beq_iff_eq

/- A page comes forward without the keyboard. -/
theorem bringForward_keeps
    (w : Workspace)
    (u : String) :
    (w.bringForward u).documents = w.documents ∧
      (w.bringForward u).keyboard = w.keyboard ∧
      (w.bringForward u).active = w.active := by
  unfold bringForward
  split
  next => exact ⟨rfl, rfl, rfl⟩
  next region _ => cases region <;> exact ⟨rfl, rfl, rfl⟩

end Workspace

namespace Application

variable {a : Application}

/-
  Nothing is opened, closed or about to be opened, no pair is
  touched, and neither the keyboard nor the active document
  has changed.
-/
structure Undisturbed
    (a b : Application) : Prop where
  registry : b.registry = a.registry
  documents : b.workspace.documents = a.workspace.documents
  pages :
    ∀ region,
      b.workspace.documentsIn region =
        a.workspace.documentsIn region
  tasks : b.host.tasks = a.host.tasks
  keyboard : b.workspace.keyboard = a.workspace.keyboard
  active : b.workspace.active = a.workspace.active

/- Each pair has its documents in the regions they are for. -/
def InPlace
    (a : Application) : Prop :=
  ∀ pair ∈ a.registry.pairList,
    pair.companion ∈ a.workspace.documentsIn .secondary ∧
      pair.primary ∈ a.workspace.documentsIn .primary

namespace InPlace

/- Nothing but the page of a region may change. -/
theorem layout_noticeActivated
    (h : a.InPlace)
    (u : String)
    (region : Region) :
    (a.noticeActivated (some (u, region))).host.layout =
      (a.revealing (a.toReveal u)).host.layout := by
  have hActive :=
    Session.activeViewChanged_eq_revealing
      (fun pair hPair => (h pair hPair).1) u
  refine (Desktop.layout_settle _ _ _).trans ?_
  exact congrArg (fun b => b.host.layout) hActive

theorem workspace_noticeActivated
    (h : a.InPlace)
    (u : String)
    (region : Region) :
    (a.noticeActivated (some (u, region))).host.workspace =
      (a.toReveal u).elim a.workspace fun place =>
        a.workspace.bringForward place.1 := by
  have hLayout := h.layout_noticeActivated u region
  refine (congrArg Prod.fst hLayout).trans ?_
  cases a.toReveal u with
  | none => rfl
  | some place =>
      exact congrArg Prod.fst (Desktop.layout_logAll _ _)

theorem tasks_noticeActivated
    (h : a.InPlace)
    (u : String)
    (region : Region) :
    (a.noticeActivated (some (u, region))).host.tasks =
      a.host.tasks := by
  have hLayout := h.layout_noticeActivated u region
  refine (congrArg (·.2.2.2.1) hLayout).trans ?_
  cases a.toReveal u with
  | none => rfl
  | some place =>
      exact congrArg (·.2.2.2.1) (Desktop.layout_logAll _ _)

theorem undisturbed
    (h : a.InPlace)
    (u : String)
    (region : Region) :
    a.Undisturbed (a.noticeActivated (some (u, region))) := by
  have hWorkspace := h.workspace_noticeActivated u region
  have hRegistry :=
    Session.registry_noticeActivated
      (fun pair hPair => (h pair hPair).1) (some (u, region))
  have hTasks := h.tasks_noticeActivated u region
  -- Nothing about the new workspace is needed but this.
  generalize hAfter :
    (a.noticeActivated (some (u, region))).host.workspace = w
    at hWorkspace
  have hKeeps :
      w.documents = a.workspace.documents ∧
        (∀ region,
          w.documentsIn region =
            a.workspace.documentsIn region) ∧
        w.keyboard = a.workspace.keyboard ∧
        w.active = a.workspace.active := by
    rw [hWorkspace]
    cases a.toReveal u with
    | none => exact ⟨rfl, fun _ => rfl, rfl, rfl⟩
    | some place =>
        rcases a.workspace.bringForward_keeps place.1 with
          ⟨hDocuments, hKeyboard, hActive⟩
        exact ⟨hDocuments,
          (a.workspace.shuffles_bringForward place.1).pages,
          hKeyboard, hActive⟩
  rw [← hAfter] at hKeeps
  rcases hKeeps with ⟨hDocuments, hPages, hKeyboard, hActive⟩
  exact ⟨hRegistry, hDocuments, hPages, hTasks, hKeyboard,
    hActive⟩

end InPlace

/- The layout stays in place. -/
theorem Undisturbed.inPlace
    {b : Application}
    (h : a.Undisturbed b)
    (hPlaced : a.InPlace) :
    b.InPlace := by
  intro pair hPair
  rw [h.pages, h.pages]
  rw [h.registry] at hPair
  exact hPlaced pair hPair

section Sorted

variable
  (hSorted : a.workspace.Sorted)
  (hPlaced : a.InPlace)
  {u : String}
  {pair : DocumentPair}

include hSorted hPlaced

/- The companion of a primary with the focus is shown. -/
theorem shownIn_of_primary
    (hPair : a.registry.pairForPrimary u = some pair)
    (region : Region) :
    (a.noticeActivated
        (some (u, region))).host.workspace.shownIn .secondary =
      some pair.companion := by
  have hMem :=
    (hPlaced pair
      (PairRegistry.mem_pairList_of_pairForPrimary hPair)).1
  rw [hPlaced.workspace_noticeActivated]
  by_cases hShown :
      a.workspace.shownIn .secondary = some pair.companion
  · have hNone : a.toReveal u = none := by
      unfold Session.toReveal
      rw [hPair]
      exact if_pos hShown
    rw [hNone]
    exact hShown
  · have hSome :
        a.toReveal u = some (pair.companion, .secondary) := by
      unfold Session.toReveal
      rw [hPair]
      exact if_neg hShown
    rw [hSome]
    exact Workspace.shownIn_bringForward hSorted hMem .secondary

/- The primary of a companion with the focus is visible. -/
theorem isVisible_of_companion
    (hFree : a.registry.pairForPrimary u = none)
    (hPair : a.registry.pairForCompanion u = some pair)
    (region : Region) :
    (a.noticeActivated
        (some (u, region))).host.workspace.isVisible
          pair.primary = true ∧
      (a.workspace.isVisible pair.primary = true →
        (a.noticeActivated
          (some (u, region))).host.workspace =
            a.workspace) := by
  have hMem :=
    (hPlaced pair
      (PairRegistry.mem_pairList_of_pairForCompanion hPair)).2
  rw [hPlaced.workspace_noticeActivated]
  by_cases hVisible :
      a.workspace.isVisible pair.primary = true
  · have hNone : a.toReveal u = none := by
      unfold Session.toReveal
      rw [hFree, hPair]
      exact if_pos hVisible
    rw [hNone]
    exact ⟨hVisible, fun _ => rfl⟩
  · have hSome :
        a.toReveal u = some (pair.primary, .primary) := by
      unfold Session.toReveal
      rw [hFree, hPair]
      exact if_neg hVisible
    have hForward :=
      a.workspace.shuffles_bringForward pair.primary
    rw [hSome]
    refine ⟨?_, fun h => absurd h hVisible⟩
    have hPage := hMem
    rw [← hForward.pages] at hPage
    apply (Workspace.isVisible_iff (hForward.sorted hSorted)
      hPage).mpr
    exact Workspace.shownIn_bringForward hSorted hMem .primary

/- The same event finds nothing to bring forward. -/
theorem toReveal_noticeActivated
    (region : Region) :
    Session.toReveal
      (a.noticeActivated (some (u, region))) u = none := by
  have hRegistry := (hPlaced.undisturbed u region).registry
  unfold Session.toReveal
  rw [hRegistry]
  cases hPrimary : a.registry.pairForPrimary u with
  | some pair =>
      exact if_pos
        (shownIn_of_primary hSorted hPlaced hPrimary region)
  | none =>
      cases hCompanion : a.registry.pairForCompanion u with
      | some pair =>
          exact if_pos
            (isVisible_of_companion hSorted hPlaced hPrimary
              hCompanion region).1
      | none => rfl

end Sorted

/-
  With all pairs in place, a change of the focus brings at
  most one document forward, without the keyboard.  It shows
  the companion of a primary, or else makes the primary of a
  companion visible, and leaves nothing to do for the same
  event.
-/
theorem focus_reaches_stable_layout
    {a : Application}
    (hReached : a.Reached)
    (hPlaced :
      ∀ pair ∈ a.registry.pairList,
        pair.companion ∈ a.workspace.documentsIn .secondary ∧
          pair.primary ∈ a.workspace.documentsIn .primary)
    (u : String)
    (region : Region) :
    let b : Application := a.noticeActivated (some (u, region))
    (a.watch.noticeActivated (some (u, region))).unwatch = b ∧
      a.Undisturbed b ∧
      (a.focusCommands u region = [] ∨
        ∃ v place, a.focusCommands u region =
          [.reveal v place]) ∧
      (∀ pair, a.registry.pairForPrimary u = some pair →
        b.workspace.shownIn .secondary =
          some pair.companion) ∧
      (∀ pair, a.registry.pairForPrimary u = none →
        a.registry.pairForCompanion u = some pair →
          b.workspace.isVisible pair.primary = true ∧
            (a.workspace.isVisible pair.primary = true →
              ∀ other, b.workspace.shownIn other =
                a.workspace.shownIn other)) ∧
      b.focusCommands u region = [] ∧
      Application.workspace
          (b.noticeActivated (some (u, region))) =
        b.workspace := by
  have hSorted : a.workspace.Sorted :=
    hReached.sound.orderly.toSorted
  have hInPlace : a.InPlace := hPlaced
  have hUndisturbed := hInPlace.undisturbed u region
  have hAgain := hUndisturbed.inPlace hInPlace
  have hNone :=
    toReveal_noticeActivated hSorted hInPlace (u := u) region
  refine ⟨Session.unwatch_noticeActivated _ _, hUndisturbed,
    ?_, ?_, ?_, ?_, ?_⟩
  · rw [Session.focusCommands_eq
      fun pair hPair => (hPlaced pair hPair).1]
    cases a.toReveal u with
    | none => exact Or.inl rfl
    | some place => exact Or.inr ⟨place.1, place.2, rfl⟩
  · intro pair hPair
    exact shownIn_of_primary hSorted hInPlace hPair region
  · intro pair hFree hPair
    rcases isVisible_of_companion hSorted hInPlace hFree hPair
        region with
      ⟨hVisible, hSame⟩
    refine ⟨hVisible, fun hBefore other => ?_⟩
    exact congrArg (·.shownIn other) (hSame hBefore)
  · rw [Session.focusCommands_eq
      fun pair hPair => (hAgain pair hPair).1, hNone]
    rfl
  · refine (hAgain.workspace_noticeActivated u region).trans ?_
    rw [hNone]
    rfl

/- Another page is opened on top of the first one. -/
def digression : List Turn :=
  visit ++
    [.command (.writeFile "/about.html" [60, 112, 62, 10]),
      .command
        (.openDocument "file:///about.html" .primary false)]

/- The stylesheet brings its own page forward again. -/
theorem digression_focus_stable :
    (studio.turns digression).workspace.shownIn .primary =
        some "file:///about.html" ∧
      (studio.turns digression).focusCommands "file:///a.css"
          .secondary =
        [.reveal "file:///index.html" .primary] ∧
      (Session.noticeActivated (studio.turns digression)
          (some ("file:///a.css", .secondary))
        ).host.workspace.isVisible "file:///index.html" =
          true ∧
      Session.focusCommands
          (Session.noticeActivated (studio.turns digression)
            (some ("file:///a.css", .secondary)))
          "file:///a.css" .secondary = [] := by
  have hAttach :
      Application.attach (.new 0 (.new site []))
        (.new "/settings.json" Settings.appDefaults) none =
          .ok studio := rfl
  have hReached : (studio.turns digression).Reached :=
    (Reached.attach (.start rfl rfl) hAttach).turns digression
  have hPairs :
      (studio.turns digression).registry.pairList =
        [⟨"file:///index.html", "file:///a.css"⟩] := rfl
  have hPrimary :
      (studio.turns digression).workspace.documentsIn .primary =
        ["file:///index.html", "file:///about.html"] := rfl
  have hSecondary :
      (studio.turns digression).workspace.documentsIn .secondary =
        ["file:///a.css"] := rfl
  have hPlaced :
      ∀ pair ∈ (studio.turns digression).registry.pairList,
        pair.companion ∈ (studio.turns
            digression).workspace.documentsIn .secondary ∧
          pair.primary ∈ (studio.turns
            digression).workspace.documentsIn .primary := by
    intro pair hPair
    rw [hPairs, List.mem_singleton] at hPair
    subst hPair
    rw [hPrimary, hSecondary]
    exact ⟨List.mem_cons_self, List.mem_cons_self⟩
  rcases focus_reaches_stable_layout hReached hPlaced
      "file:///a.css" .secondary with
    ⟨-, -, -, -, hCompanion, hQuiet, -⟩
  refine ⟨rfl, rfl, ?_, hQuiet⟩
  exact (hCompanion _ rfl rfl).1

end Application

end StyleCompanion
