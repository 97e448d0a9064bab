import StyleCompanion.Proofs.Application.Freshness
import StyleCompanion.Proofs.Application.Moves

/-
  The moves of every command.

  A command that neither runs openings nor sets the guard is a
  path of moves.  The end of an opening takes it off the list
  and opens its document.  If that cannot be decoded nothing
  else happens.  Otherwise a pair is joined, or what came too
  late is closed again.

  Main declarations:
    * `Application.Command.isDirect`
    * `Application.Opens`
    * `Application.path_perform`
    * `Application.eases_companionOpened`
    * `Application.path_companionOpened`
    * `Application.path_report`
-/

namespace StyleCompanion

open Pairing
open Arrangement (Move Path)

----
-- Showing companions
----

namespace Pairing.Session

variable {a : Session Desktop} {p c : String}

theorem path_beginOpening
    (hPlaced : a.host.attached = true →
      p ∈ a.host.workspace.documentsIn .primary)
    (hIdle : a.registry.pendingFor p = none)
    (c : String) :
    Path a.arrangement (a.beginOpening p c).arrangement := by
  have hBegun : (a.beginOpening p c).arrangement =
      { a.arrangement with
        registry := (a.registry.beginOpen p c).1
        tasks := a.host.tasks ++
          [.companion ⟨p, c, a.registry.nextToken⟩] } := by
    unfold beginOpening
    rw [PairRegistry.beginOpen_eq hIdle]
    rfl
  rw [hBegun]
  exact .of_move (.begin hPlaced hIdle c)

theorem path_openCompanion
    (hPlaced : a.host.attached = true →
      p ∈ a.host.workspace.documentsIn .primary)
    (c : String) :
    Path a.arrangement (a.openCompanion p c).arrangement := by
  unfold openCompanion
  split
  next hIdle => exact path_beginOpening hPlaced hIdle c
  next q _ =>
    split
    next => exact .refl _
    next =>
      have hLoses : a.Eases (a.supersede p c q) :=
        ⟨a.registry.loses_cancelOpen p, .of_layout rfl, rfl⟩
      exact hLoses.path.trans
        (path_beginOpening (a := a.supersede p c q) hPlaced
          (Table.get?_erase_self _ p) c)

/-
  A primary without a pair.  The companion of another pair is
  taken over, and lies in the secondary region.
-/
theorem path_showUnpaired
    (hPlaced : a.host.attached = true →
      p ∈ a.host.workspace.documentsIn .primary)
    (hCompanion : a.host.attached = true →
      a.registry.HasCompanion c →
        c ∈ a.host.workspace.documentsIn .secondary)
    (m : Attribution.Model) :
    Path a.arrangement
      (a.showUnpaired p c m).1.arrangement := by
  unfold showUnpaired
  split
  next shared hShared =>
    have hFound := PairRegistry.companion_of_pairForCompanion
      hShared
    have hMove : Move a.arrangement
        { a.arrangement with
          registry :=
            (a.registry.remove shared.primary).register p c } :=
      .takeOver (fun hAttached => ⟨hPlaced hAttached,
        hCompanion hAttached ⟨shared,
          PairRegistry.mem_pairList_of_pairForCompanion hShared,
          hFound⟩⟩) hShared
    -- The rest shows the companion and renders it.
    let b : Session Desktop :=
      { a with
        registry :=
          (a.registry.remove shared.primary).register p c }
    have hShown : b.Eases (a.takeOver p shared) := by
      subst hFound
      have hSaid : ∀ text, b.Eases (b.info text) :=
        fun _ => .of_layout rfl rfl rfl
      exact (hSaid _).trans (eases_reveal _ shared.companion _)
    exact (Path.of_move hMove).trans
      (hShown.trans (eases_refreshAndRender _ c m)).path
  next => exact path_openCompanion hPlaced c

/-
  The companion that is not wanted any more is closed alone,
  and all other documents stay where they are.
-/
theorem documentsIn_replacePair
    (hSound : a.arrangement.Sound)
    (hAttached : a.host.attached = true)
    {pair : DocumentPair}
    (hCompanion : pair.companion ∈
      a.host.workspace.documentsIn .secondary)
    {u : String}
    (hNe : u ≠ pair.companion)
    (region : Region)
    (c : String) :
    u ∈ (a.replacePair pair c).host.workspace.documentsIn
        region ↔
      u ∈ a.host.workspace.documentsIn region := by
  obtain ⟨b, hb⟩ : ∃ b, (a.info
      ("Companion for " ++ pair.primary ++ " changed from " ++
        pair.companion ++ " to " ++ c)).dropPair pair = b :=
    ⟨_, rfl⟩
  have hEases : a.Eases b := by
    rw [← hb]
    exact ⟨a.registry.loses_remove _, .of_layout rfl, rfl⟩
  have hDropped : b.arrangement.Sound := hEases.path.sound hSound
  have hSecondary : pair.companion ∈
      b.host.workspace.documentsIn .secondary := by
    rw [hEases.host.workspace.pages]
    exact hCompanion
  have hClosed : a.replacePair pair c =
      (b.parted pair.companion).1.settle
        (.closed pair.companion) := by
    rw [← close_of_secondary hDropped
      (hEases.host.attached.trans hAttached) hSecondary, ← hb]
    rfl
  have hOpen : b.host.workspace.isOpen pair.companion = true :=
    hDropped.orderly.isOpen_of_mem hSecondary
  have hWorkspace :
      (a.replacePair pair c).host.workspace =
        (b.parted pair.companion).1.host.workspace := by
    rw [hClosed, workspace_settle]
  rw [hWorkspace, (workspace_parted hDropped.filed _).pages,
    Workspace.documentsIn_remove hOpen _ _ hNe,
    hEases.host.workspace.pages]

theorem path_replacePair
    (hFiled : a.registry.Filed)
    (pair : DocumentPair)
    (c : String) :
    Path a.arrangement
      (a.replacePair pair c).arrangement := by
  have hEases : a.Eases ((a.info
      ("Companion for " ++ pair.primary ++ " changed from " ++
        pair.companion ++ " to " ++ c)).dropPair pair) :=
    ⟨a.registry.loses_remove _, .of_layout rfl, rfl⟩
  exact hEases.path.trans
    (path_close (hEases.registry.filed hFiled) _)

theorem path_showFor
    (hSound : a.arrangement.Sound)
    (hPlaced : a.host.attached = true →
      p ∈ a.host.workspace.documentsIn .primary)
    (c : String)
    (m : Attribution.Model) :
    Path a.arrangement (a.showFor p c m).1.arrangement := by
  obtain ⟨b, hb⟩ : ∃ b, a.reconcile.keepModel c m = b :=
    ⟨_, rfl⟩
  have hEases : a.Eases b := by
    rw [← hb]
    exact a.eases_reconcile.trans (.of_layout rfl rfl rfl)
  have hSorted : b.arrangement.Sound := hEases.path.sound hSound
  have hPages := hEases.host.workspace.pages
  have hPrimary : b.host.attached = true →
      p ∈ b.host.workspace.documentsIn .primary := by
    intro hAttached
    rw [hPages]
    exact hPlaced (hEases.host.attached ▸ hAttached)
  -- A reconciled companion is in its place.
  have hSecondary : ∀ pair ∈ b.registry.pairList,
      pair.companion ∈
        b.host.workspace.documentsIn .secondary := by
    intro pair hPair
    rw [hPages]
    rw [← hb] at hPair
    exact companion_present_of_reconcile a hSound.filed hPair
  refine hEases.path.trans ?_
  unfold showFor
  dsimp only
  rw [hb]
  split
  next =>
    refine path_showUnpaired hPrimary ?_ m
    rintro - ⟨pair, hPair, rfl⟩
    exact hSecondary pair hPair
  next pair hPair =>
    have hMem := PairRegistry.mem_pairList_of_pairForPrimary
      hPair
    split
    next => exact (eases_refreshAndRender b c m).path
    next hNe =>
      have hPath := path_replacePair hSorted.filed pair c
      have hKept : b.host.attached =
          (b.replacePair pair c).host.attached :=
        hPath.attached.symm
      refine hPath.trans (path_showUnpaired ?_ ?_ m)
      · intro hAttached
        rw [← hKept] at hAttached
        have hOther : p ≠ pair.companion := by
          rintro rfl
          exact hSorted.orderly.disjoint (hPrimary hAttached)
            (hSecondary pair hMem)
        exact (documentsIn_replacePair hSorted hAttached
          (hSecondary pair hMem) hOther .primary c).mpr
          (hPrimary hAttached)
      · rintro hAttached ⟨other, hOther, rfl⟩
        rw [← hKept] at hAttached
        have hOld : other ∈ b.registry.pairList :=
          (loses_replacePair b pair _).mem_pairList hOther
        exact (documentsIn_replacePair hSorted hAttached
          (hSecondary pair hMem) (Ne.symm hNe) .secondary
          _).mpr (hSecondary other hOld)

/- A request is for the page that is shown in front. -/
theorem path_showCompanion
    (hSound : a.arrangement.Sound)
    (uri : String)
    (m : Attribution.Model) :
    Path a.arrangement
      (a.showCompanion uri m none).1.arrangement := by
  unfold showCompanion
  dsimp only
  split
  · exact .refl _
  · split
    next => exact .refl _
    next hPrimary =>
      refine path_showFor hSound (fun _ => ?_) _ m
      unfold primaryFor at hPrimary ⊢
      cases hShown : a.host.workspace.shownIn .primary with
      | none =>
          change Host.activeIn a.host .primary = _ at hShown
          rw [hShown] at hPrimary
          exact absurd rfl hPrimary
      | some p =>
          have hMem := hSound.orderly.shown .primary p hShown
          change Host.activeIn a.host .primary = _ at hShown
          rw [hShown]
          exact hMem

end Pairing.Session

namespace Application

variable {a : Application}

----
-- The active document and texts
----

theorem eases_announceActive
    (a : Application)
    (activated : Option (String × Region)) :
    Session.Eases a (a.announceActive activated) := by
  unfold announceActive
  split
  · exact .refl a
  · split
    · exact Session.eases_noticeActivated a _
    · exact Session.eases_settle a _

theorem eases_withWorkspace
    {w : Workspace}
    (h : a.workspace.Shuffles w) :
    Session.Eases a (a.withWorkspace w) :=
  .of_shuffles rfl rfl (.of_workspace h)

theorem eases_activate
    {r : Workspace × Option (String × Region)}
    (h : a.workspace.Shuffles r.1) :
    Session.Eases a (a.activate r) :=
  (eases_withWorkspace h).trans (eases_announceActive _ r.2)

theorem eases_present
    (a : Application)
    (u : String)
    (preserveFocus : Bool) :
    Session.Eases a (a.present u preserveFocus) := by
  have hForward := a.workspace.shuffles_bringForward u
  unfold present
  dsimp only
  split
  · exact eases_withWorkspace hForward
  · exact eases_activate
      (hForward.trans (Workspace.shuffles_markActive _ u))

theorem eases_shuffle
    {f : Desktop → Desktop}
    (h : a.host.Shuffles (f a.host)) :
    Session.Eases a (a.onDesktop f) :=
  .of_shuffles rfl rfl h

theorem eases_onDesktop
    {f : Desktop → Desktop}
    (h : (f a.host).layout = a.host.layout) :
    Session.Eases a (a.onDesktop f) :=
  eases_shuffle (.of_layout h)

theorem eases_reveal
    (a : Application)
    (u : String)
    (wanted : Option Region)
    (preserveFocus : Bool) :
    Session.Eases a (a.reveal u wanted preserveFocus).1 := by
  unfold reveal
  split
  · exact .refl a
  · exact (eases_onDesktop (Desktop.layout_logAll _ _)).trans
      (eases_present _ u preserveFocus)

theorem eases_textChanged
    (a : Application)
    (u : String) :
    Session.Eases a (a.textChanged u) := by
  unfold textChanged
  dsimp only
  refine Session.Eases.trans ?_ (Session.eases_settle _ _)
  split
  · exact .refl a
  · split
    · exact Session.eases_companionEdited a u
    · unfold announceChange
      split
      · split
        · exact eases_onDesktop (Desktop.layout_onClient _ _)
        · exact .refl a
      · exact .refl a

theorem eases_type
    (a : Application)
    (u typed : String) :
    Session.Eases a (a.type u typed) :=
  (eases_withWorkspace
    (Workspace.shuffles_onEditor _ u _)).trans
    (eases_textChanged _ u)

theorem eases_reload
    (a : Application)
    (u : String) :
    Session.Eases a (a.reload u).1 := by
  unfold reload
  rcases a.host.shuffles_reread u with
    ⟨e, hRead⟩ | ⟨d, changed, hRead, hShuffles⟩
  · rw [hRead]
    exact .refl a
  · rw [hRead]
    have hFirst : Session.Eases a { a with host := d } :=
      .of_shuffles rfl rfl hShuffles
    dsimp only
    split
    · exact hFirst.trans (eases_textChanged _ u)
    · exact hFirst

----
-- Opening
----

theorem eases_opened
    (a : Application)
    (u : String)
    (region : Region) :
    Session.Eases a (a.opened u region) := by
  have hTold : ∀ b : Application,
      Session.Eases b (b.announceOpened u region) := by
    intro b
    unfold announceOpened
    split
    · exact .refl b
    · split
      · exact eases_onDesktop (Desktop.layout_onClient _ _)
      · exact .refl b
  unfold opened
  dsimp only
  refine Session.Eases.trans ?_ (eases_onDesktop rfl)
  split
  · exact (Session.eases_reconcile a).trans (hTold _)
  · exact .refl a

/- The text of a file, once it was read. -/
theorem eases_openText
    (a : Application)
    (u : String)
    (region : Region)
    (preserveFocus : Bool)
    (content : String) :
    ∃ e, Session.Eases
      (a.withWorkspace (a.workspace.add u region e))
      (a.openText u region preserveFocus content) :=
  ⟨_, (eases_present _ u preserveFocus).trans
    (eases_opened _ u region)⟩

/-
  What an opening comes to.  It shows what is open, fails to
  decode, fails to read, or adds a document where the guard
  wants it.
-/
inductive Opens
    (a : Application)
    (u : String)
    (region : Region) :
    Application → Outcome Bool → Prop where
  | shown
      {b : Application}
      (hOpen : a.workspace.isOpen u = true)
      (h : Session.Eases a b) :
      Opens a u region b (.ok true)
  | undecodable
      {b : Application}
      {cause : Utf8.DecodeError}
      (hClosed : a.workspace.isOpen u = false)
      (hRead : a.host.disk.readText (pathOfUri u) =
        .undecodable cause)
      (h : b.arrangement = a.arrangement) :
      Opens a u region b (.error (.undecodable cause))
  | unreadable
      {b : Application}
      {cause : DiskFault}
      (hClosed : a.workspace.isOpen u = false)
      (hRead : a.host.disk.readText (pathOfUri u) =
        .fault cause)
      (h : b.arrangement = a.arrangement) :
      Opens a u region b (.ok false)
  | added
      {b : Application}
      {content : String}
      (hClosed : a.workspace.isOpen u = false)
      (hRead : a.host.disk.readText (pathOfUri u) =
        .text content)
      (e : Workspace.Editor)
      (h : Session.Eases
        (a.withWorkspace
          (a.workspace.add u (a.target u region) e)) b) :
      Opens a u region b (.ok true)

theorem opens_openDocument
    (a : Application)
    (u : String)
    (region : Region)
    (preserveFocus : Bool) :
    a.Opens u region (a.openDocument u region preserveFocus).1
      (a.openDocument u region preserveFocus).2 := by
  obtain ⟨x, hx⟩ : ∃ x, a.onDesktop (·.logAll (redirectLog u
      region (a.target u region))) = x := ⟨_, rfl⟩
  have hSame : x.arrangement = a.arrangement := by
    rw [← hx]
    exact Session.arrangement_eq rfl rfl
      (Desktop.layout_logAll _ _)
  have hDisk : x.host.disk = a.host.disk := by
    rw [← hx]
    unfold redirectLog
    split <;> rfl
  have hWorkspace : x.workspace = a.workspace :=
    congrArg Arrangement.workspace hSame
  unfold openDocument
  dsimp only
  rw [hx, hWorkspace]
  cases hOpen : a.workspace.isOpen u with
  | true =>
      exact .shown hOpen ((Session.Eases.of_arrangement
        hSame).trans (eases_present x u preserveFocus))
  | false =>
      rw [if_neg Bool.false_ne_true]
      unfold openNew
      dsimp only
      rw [hDisk]
      cases hRead : a.host.disk.readText (pathOfUri u) with
      | undecodable cause =>
          exact .undecodable hOpen hRead hSame
      | fault cause =>
          refine .unreadable hOpen hRead
            (Eq.trans ?_ hSame)
          exact Session.arrangement_eq rfl rfl
            (Desktop.layout_showMessage (x.host.log _) _ _)
      | text content =>
          rcases x.eases_openText u (a.target u region)
            preserveFocus content with ⟨e, hOpened⟩
          refine .added hOpen hRead e (Session.Eases.trans
            (.of_arrangement ?_) hOpened)
          rw [hWorkspace]
          exact congrArg (fun s : Arrangement =>
            { s with workspace :=
              a.workspace.add u (a.target u region) e }) hSame

theorem Opens.path
    {u : String}
    {region : Region}
    {b : Application}
    {outcome : Outcome Bool}
    (h : a.Opens u region b outcome) :
    Path a.arrangement b.arrangement := by
  cases h with
  | shown hOpen hEases => exact hEases.path
  | undecodable hClosed hRead hSame => exact .of_eq hSame
  | unreadable hClosed hRead hSame => exact .of_eq hSame
  | added hClosed hRead e hEases =>
      exact (Path.of_move (.add hClosed _ e)).trans hEases.path

theorem path_openDocument
    (a : Application)
    (u : String)
    (region : Region)
    (preserveFocus : Bool) :
    Path a.arrangement
      (a.openDocument u region preserveFocus).1.arrangement :=
  (a.opens_openDocument u region preserveFocus).path

theorem path_openPaths
    (a : Application)
    (paths : List String) :
    Path a.arrangement (a.openPaths paths).1.arrangement :=
  openPaths_induction
    (P := (Path a.arrangement ·.arrangement)) (.refl _)
    (fun b u h => h.trans (b.path_openDocument u .primary false))
    paths

----
-- Closing and the backend
----

theorem path_closeAll
    (hSound : a.arrangement.Sound) :
    Path a.arrangement a.closeAll.arrangement := by
  unfold closeAll
  generalize Table.keys a.workspace.documents = uris
  induction uris generalizing a with
  | nil => exact .refl _
  | cons u uris ih =>
      have hClosed := Session.path_close hSound.filed u
      exact hClosed.trans (ih (hClosed.sound hSound))

theorem path_closeTab
    (hSound : a.arrangement.Sound)
    (region : Region)
    (index : Nat) :
    Path a.arrangement
      (a.closeTab region index).arrangement := by
  unfold closeTab
  split
  · exact .refl _
  · exact Session.path_close hSound.filed _

theorem path_handleShow
    (hSound : a.arrangement.Sound)
    (params : Json) :
    Path a.arrangement (a.handleShow params).1.arrangement := by
  unfold handleShow
  split
  · exact .refl _
  next r _ =>
    have hShown := Session.path_showCompanion
      (a := Session.log a (requestLog r)) hSound
      r.companionUri r.model
    dsimp only
    rcases hRun : Session.showCompanion
        (Session.log a (requestLog r)) r.companionUri r.model
        none with ⟨b, failure⟩
    rw [hRun] at hShown
    cases failure with
    | none => exact hShown
    | some e => exact hShown

theorem path_onClient
    (a : Application)
    (f : Client → Client) :
    Path a.arrangement
      (a.onDesktop (·.onClient f)).arrangement :=
  (eases_onDesktop (a.host.layout_onClient f)).path

theorem path_absorb
    (a : Application)
    (c : Client) :
    Path a.arrangement
      (a.onDesktop (·.absorb c)).arrangement :=
  (eases_onDesktop (a.host.layout_absorb c)).path

theorem path_handleMessage
    (hSound : a.arrangement.Sound)
    (fs : Table String Json) :
    Path a.arrangement
      (a.handleMessage fs).1.arrangement := by
  unfold handleMessage
  split
  · exact .refl _
  · split
    · split
      · exact (path_handleShow hSound _).trans
          (path_onClient _ _)
      · exact a.path_absorb _
    · exact a.path_absorb _

theorem path_handleAll
    (hSound : a.arrangement.Sound)
    (ms : List (Table String Json)) :
    Path a.arrangement (a.handleAll ms).1.arrangement := by
  induction ms generalizing a with
  | nil => exact .refl _
  | cons fs ms ih =>
      have hFirst := path_handleMessage hSound fs
      unfold handleAll
      rcases hHandled : a.handleMessage fs with ⟨b, failure⟩
      rw [hHandled] at hFirst
      cases failure with
      | none => exact hFirst.trans (ih (hFirst.sound hSound))
      | some e => exact hFirst

theorem path_clientEvent
    (hSound : a.arrangement.Sound)
    (event : Client.Event) :
    Path a.arrangement (a.clientEvent event).1.arrangement := by
  unfold clientEvent
  split
  · exact .refl _
  next c _ =>
    split
    · rw [answered_fst]
      exact path_handleMessage hSound _
    next bytes =>
      rw [answered_fst]
      have hRead := a.path_absorb (c.takeBytes bytes).1
      exact hRead.trans (path_handleAll (hRead.sound hSound) _)
    · exact a.path_absorb _

theorem path_shutdown
    (a : Application) :
    Path a.arrangement a.shutdown.arrangement :=
  (Session.eases_teardown a).path.trans (path_onClient _ _)

----
-- Commands
----

/-
  A command that runs no openings and leaves the guard.
-/
def Command.isDirect : Command → Bool
  | .pump => false
  | .setGuard _ => false
  | _ => true

theorem path_hover
    (a : Application)
    (u : String)
    (line : Int) :
    Path a.arrangement (a.hover u line).1.arrangement := by
  unfold hover
  split
  · exact .refl _
  · split
    · exact .refl _
    · exact .of_eq rfl

theorem path_layOutSurface
    (a : Application)
    (palette lineAlpha style : Json) :
    Path a.arrangement
      (a.layOutSurface palette lineAlpha
        style).1.arrangement := by
  unfold layOutSurface
  split
  · exact .refl _
  · exact .of_eq rfl

/- A switch is no part of an arrangement. -/
theorem arrangement_setEnabled
    (a : Application)
    (enabled : Bool) :
    (a.byHand fun d s => d.setHandSurface
      { s with enabled := enabled }).1.arrangement =
        a.arrangement := by
  unfold byHand Desktop.handSurface
  split
  next => rfl
  next s hs =>
    refine Session.arrangement_eq rfl rfl ?_
    change (a.host.setHandSurface _).layout = _
    unfold Desktop.setHandSurface
    split at hs
    next hSome =>
      rw [hSome]
      rfl
    next hNone =>
      rw [hNone]
      split at hs <;> cases hs
      rfl

/- Direct commands go their ways by moves. -/
theorem path_perform
    (hSound : a.arrangement.Sound)
    {c : Command}
    (hDirect : c.isDirect = true) :
    Path a.arrangement (a.perform c).1.arrangement := by
  let P : Application → Prop := (Path a.arrangement ·.arrangement)
  -- Where nothing is done at all, nothing moves.
  have hStay : P a := .refl _
  cases c with
  | pump => cases hDirect
  | setGuard guard => cases hDirect
  | writeFile path bytes => exact .of_eq rfl
  | removeFile path => exact .of_eq rfl
  | setDescriber describer => exact .of_eq rfl
  | requestReport uri region preserveFocus =>
      exact .of_move (.request uri region preserveFocus)
  | client event => exact path_clientEvent hSound event
  | openDocument uri region preserveFocus =>
      exact a.path_openDocument uri region preserveFocus
  | reveal uri region preserveFocus =>
      exact (a.eases_reveal uri region preserveFocus).path
  | reload uri => exact (a.eases_reload uri).path
  | close uri => exact Session.path_close hSound.filed uri
  | closeAll => exact path_closeAll hSound
  | focus uri =>
      exact keeps_onOpen (P := P) hStay fun _ =>
        (eases_activate (a.workspace.shuffles_focus uri)).path
  | type uri typed =>
      exact keeps_onOpen (P := P) hStay fun _ =>
        (a.eases_type uri typed).path
  | hover uri line tooltip =>
      refine keeps_onOpen (P := P) hStay fun _ => ?_
      split
      · exact a.path_hover uri line
      · exact hStay
  | switchTab region index =>
      exact (eases_activate
        (a.workspace.shuffles_switchTo region index)).path
  | closeTab region index =>
      exact path_closeTab hSound region index
  | layOutSurface palette lineAlpha style =>
      exact a.path_layOutSurface palette lineAlpha style
  | setEnabled enabled =>
      exact .of_eq (a.arrangement_setEnabled enabled)
  | paint uri slot spans =>
      exact keeps_byHand (P := P) hStay fun s =>
        (eases_shuffle (.paintOn s uri slot spans)).path
  | clearSelections uri =>
      exact keeps_byHand (P := P) hStay fun _ =>
        (eases_shuffle (.decorate (.clear uri))).path
  | reverseSelections uri =>
      exact keeps_needing (P := P) hStay
        (eases_withWorkspace
          (Workspace.shuffles_onEditor _ _ _)).path
  | showCompanion params =>
      exact keeps_needing (P := P) hStay
        (path_handleShow hSound params)
  | shutdown =>
      exact keeps_needing (P := P) hStay a.path_shutdown
  | openPaths paths =>
      exact keeps_needing (P := P) hStay
        (a.path_openPaths paths)
  | showLegend rows =>
      exact keeps_withLegend (P := P) hStay rows
        fun _ => .of_eq rfl
  | emitLegend uri rows =>
      exact keeps_withLegend (P := P) hStay rows
        fun _ => .of_eq rfl

----
-- The ends of openings
----

/- What a pair is joined to. -/
theorem eases_companionOpened
    {q : PendingOpen}
    {ok : Bool}
    (h : Session.Joins a q ok) :
    Session.Eases
      { a with
        registry := (a.registry.finishOpen q).1.register
          q.primary q.companion }
      (a.companionOpened q ok) := by
  rcases h with ⟨rfl, hAwaits, hOpen⟩
  have hFinish := PairRegistry.finishOpen_eq hAwaits
  unfold Session.companionOpened
  simp only [hFinish, hOpen, Bool.not_true, Bool.or_self,
    Bool.false_eq_true, if_false]
  split
  · exact .refl _
  · exact Session.eases_render _ _ _

/- What is not joined is closed again, or never came. -/
theorem path_companionOpened
    (hFiled : a.registry.Filed)
    {q : PendingOpen}
    {ok : Bool}
    (h : ¬ Session.Joins a q ok) :
    Path
      { a.arrangement with
        registry := (a.registry.finishOpen q).1 }
      (Session.arrangement (a.companionOpened q ok)) := by
  cases ok with
  | false => exact .of_eq rfl
  | true =>
      rcases Session.companionOpened_orphaned h with
        ⟨text, hOpened⟩
      rw [hOpened]
      exact Session.path_close
        (a := (Session.info { a with registry := _ }
          text).dropModel _)
        ((a.registry.loses_finishOpen q).filed hFiled) _

/- The end of an opening that is only reported. -/
theorem path_report
    (a : Application)
    (u : String)
    (region : Region)
    (preserveFocus : Bool) :
    Path { a.arrangement with tasks := a.host.tasks.tail }
      (a.turn (.complete (.report u region
        preserveFocus))).arrangement := by
  have hOpened := a.dropTask.path_openDocument u region
    preserveFocus
  unfold turn runTask
  dsimp only
  rcases hRun : a.dropTask.openDocument u region
      preserveFocus with ⟨b, outcome⟩
  rw [hRun] at hOpened
  cases outcome with
  | error e => exact hOpened
  | ok ok => exact hOpened.trans (.of_eq rfl)

/- An opening that fails leaves it at that. -/
theorem turn_companion_error
    {p : PendingOpen}
    {b : Application}
    {e : Failure}
    (h : a.dropTask.openDocument p.companion .secondary true =
      (b, .error e)) :
    a.turn (.complete (.companion p)) = b := by
  unfold turn runTask
  dsimp only
  rw [h]

/- Whoever is waited for waits in the primary region. -/
theorem primary_placed_of_awaits
    (hSound : a.arrangement.Sound)
    (hAttached : a.host.attached = true)
    {p : PendingOpen}
    (h : a.registry.Awaits p) :
    p.primary ∈ a.workspace.documentsIn .primary := by
  rcases Option.map_eq_some_iff.mp h with ⟨q, hq, -⟩
  have hWaiting := hSound.waiting hAttached q
    (PairRegistry.mem_pendingList_of_pendingFor hq)
  rwa [hSound.filed.pending _ (Table.mem_of_get? hq)]
    at hWaiting

theorem sound_arrangement_companionOpened
    (hSound : a.arrangement.Sound)
    (p : PendingOpen)
    (ok : Bool) :
    (Session.arrangement (a.companionOpened p ok)).Sound := by
  have hFinished := hSound.of_loses
    (a.registry.loses_finishOpen p)
  by_cases hJoins : Session.Joins a p ok
  · refine (eases_companionOpened hJoins).path.sound ?_
    exact hFinished.register (fun hAttached =>
      primary_placed_of_awaits hSound hAttached hJoins.2.1) _
  · exact (path_companionOpened hSound.filed hJoins).sound
      hFinished

theorem sound_arrangement_dropTask
    (hSound : a.arrangement.Sound) :
    a.dropTask.arrangement.Sound :=
  ⟨hSound.orderly, hSound.filed, hSound.seated, hSound.waiting⟩

end Application

end StyleCompanion
