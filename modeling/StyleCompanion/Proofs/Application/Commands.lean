import StyleCompanion.Proofs.Application.Soundness

/-
  What the user, the disk and the backend do to a scene.

  Every command that neither paints by hand nor shuts the
  application down keeps a scene sound.  The pump is left out
  here, since it carries out openings one after the other, and
  each of them counts by itself.

  Main declarations:
    * `Application.dims_activate`
    * `Application.sound_openDocument`
    * `Application.sound_clientEvent`
    * `Application.keeps_onOpen`
    * `Application.Command.isPlain`
    * `Application.sound_perform`
-/

namespace StyleCompanion

open Pairing
open Scene (Dims Touches)

namespace Application

variable {a : Application}

----
-- The active document
----

theorem dims_announceActive
    (hFiled : a.registry.Filed)
    (activated : Option (String × Region)) :
    Dims none a.scene (a.announceActive activated).scene := by
  unfold announceActive
  split
  · exact .refl _
  · split
    · exact Session.dims_noticeActivated hFiled _
    · exact .of_eq (Session.scene_settle _ _)

/- Another document becomes active; the stage stays. -/
theorem dims_activate
    (hFiled : a.registry.Filed)
    {r : Workspace × Option (String × Region)}
    (hStage : r.1.stage = a.workspace.stage) :
    Dims none a.scene (a.activate r).scene :=
  Dims.trans (.of_eq (a.scene_withWorkspace hStage))
    (dims_announceActive (a := a.withWorkspace r.1) hFiled r.2)

theorem dims_present
    (hFiled : a.registry.Filed)
    (u : String)
    (preserveFocus : Bool) :
    Dims none a.scene (a.present u preserveFocus).scene := by
  have hStage := a.workspace.stage_bringForward u
  unfold present
  dsimp only
  split
  · exact .of_eq (a.scene_withWorkspace hStage)
  · exact dims_activate hFiled
      ((Workspace.stage_markActive _ u).trans hStage)

----
-- Opening
----

/- A new document shows nothing, and others keep their place. -/
theorem sound_add
    (hSound : a.scene.Sound)
    (u : String)
    (region : Region)
    (content : String)
    (font : Workspace.Font) :
    (a.withWorkspace (a.workspace.add u region
      (.new content font))).scene.Sound := by
  refine ⟨hSound.attached, hSound.filed, ?_⟩
  intro v hv
  rcases hv with ⟨d, hd, hSelections⟩
  change Table.get? (a.workspace.add u region _).documents v
    = some d at hd
  rw [Workspace.get?_add] at hd
  split at hd
  next =>
    cases hd
    exact absurd rfl hSelections
  next hNe =>
    have hHeld := hSound.secure v ⟨d, hd, hSelections⟩
    refine ⟨hHeld.rendered, ?_, hHeld.paired, ?_⟩
    · intro e he
      change Table.get? (a.workspace.add u region _).documents
        v = some e at he
      rw [Workspace.get?_add, if_neg hNe] at he
      exact hHeld.overlaid e he
    · exact (a.workspace.mem_pages_add (Ne.symm hNe)
        region _).mpr hHeld.placed

theorem scene_announceOpened
    (a : Application)
    (u : String)
    (region : Region) :
    (a.announceOpened u region).scene = a.scene := by
  unfold announceOpened
  split
  · rfl
  · split
    · exact a.scene_onClient _
    · rfl

/- A pairing that follows the workspace reconciles. -/
theorem scene_opened
    (a : Application)
    (u : String)
    (region : Region) :
    (a.opened u region).scene =
      if a.host.attached then (Session.reconcile a).scene
      else a.scene := by
  have hNote : (a.opened u region).scene =
      (if a.host.attached then
        announceOpened a.documentOpened u region
      else a).scene :=
    scene_onDesktop _ rfl
  rw [hNote]
  split
  · exact scene_announceOpened _ u region
  · rfl

theorem dims_opened
    (hFiled : a.registry.Filed)
    (u : String)
    (region : Region) :
    Dims none a.scene (a.opened u region).scene := by
  rw [scene_opened]
  split
  · exact Session.dims_reconcile hFiled
  · exact .refl _

theorem sound_openText
    (hSound : a.scene.Sound)
    (u : String)
    (region : Region)
    (preserveFocus : Bool)
    (content : String) :
    (a.openText u region preserveFocus content).scene.Sound := by
  have hAdded := sound_add hSound u region content
    (editorFont a.host)
  have hShown :=
    (dims_present hAdded.filed u preserveFocus).sound hAdded
  exact (dims_opened hShown.filed u region).sound hShown

theorem sound_openNew
    (hSound : a.scene.Sound)
    (u : String)
    (region : Region)
    (preserveFocus : Bool) :
    (a.openNew u region preserveFocus).1.scene.Sound := by
  unfold openNew
  dsimp only
  split
  · exact hSound
  · rw [scene_onDesktop _ (by
      exact Desktop.stage_of_bare (Desktop.bare_showMessage _ _ _))]
    exact hSound
  · exact sound_openText hSound u region preserveFocus _

theorem sound_openDocument
    (hSound : a.scene.Sound)
    (u : String)
    (region : Region)
    (preserveFocus : Bool) :
    (a.openDocument u region preserveFocus).1.scene.Sound := by
  have hLogged :
      (a.onDesktop (·.logAll (redirectLog u region
        (a.target u region)))).scene.Sound := by
    rw [scene_onDesktop _ (by simp)]
    exact hSound
  unfold openDocument
  dsimp only
  split
  · exact (dims_present hLogged.filed u preserveFocus).sound
      hLogged
  · exact sound_openNew hLogged u _ preserveFocus

theorem sound_openPaths
    (hSound : a.scene.Sound)
    (paths : List String) :
    (a.openPaths paths).1.scene.Sound :=
  openPaths_induction (P := (·.scene.Sound)) hSound
    (fun _ u h => sound_openDocument h u .primary false) paths

----
-- Texts, closings and the backend
----

theorem sound_retext
    (hSound : a.scene.Sound)
    (u : String)
    {f : Workspace.Editor → Workspace.Editor}
    (hf : ∀ e, (f e).selections = e.selections) :
    ((a.withWorkspace (a.workspace.onEditor u f)).textChanged
      u).scene.Sound := by
  have hTouched := (Session.touches_onEditor a u f).trans
    (touches_textChanged
      (a.withWorkspace (a.workspace.onEditor u f)) u)
  refine hTouched.sound hSound fun hDecorated => ?_
  exact absurd hDecorated (a.not_decorated_retext
    hSound.attached hSound.secure u hf)

theorem sound_reload
    (hSound : a.scene.Sound)
    (u : String) :
    (a.reload u).1.scene.Sound := by
  unfold reload
  rcases Session.reread_cases a.host u with
    ⟨e, hRead⟩ | ⟨d, hRead, hStage⟩ | ⟨text, hRead⟩
  · rw [hRead]
    exact hSound
  · rw [hRead]
    have hScene :
        ({ a with host := d } : Application).scene = a.scene :=
      Session.scene_eq rfl rfl hStage
    change ({ a with host := d } : Application).scene.Sound
    rw [hScene]
    exact hSound
  · rw [hRead]
    exact sound_retext hSound u (f := (·.setText text))
      fun _ => rfl

theorem sound_close
    (hSound : a.scene.Sound)
    (u : String) :
    (Session.close a u).scene.Sound :=
  (Session.dims_close hSound.attached hSound.filed u).1.sound
    hSound

theorem sound_closeAll
    (hSound : a.scene.Sound) :
    a.closeAll.scene.Sound := by
  unfold closeAll
  generalize Table.keys a.workspace.documents = uris
  induction uris generalizing a with
  | nil => exact hSound
  | cons u uris ih => exact ih (sound_close hSound u)

theorem sound_handleShow
    (hSound : a.scene.Sound)
    (params : Json) :
    (a.handleShow params).1.scene.Sound := by
  unfold handleShow
  split
  · exact hSound
  next r _ =>
    have hShown := Session.sound_showCompanion
      (a := Session.log a (requestLog r)) hSound
      r.companionUri r.model none
    dsimp only
    rcases hRun : Session.showCompanion
        (Session.log a (requestLog r)) r.companionUri r.model
        none with ⟨b, failure⟩
    rw [hRun] at hShown
    cases failure with
    | none => exact hShown
    | some e => exact hShown

theorem sound_handleMessage
    (hSound : a.scene.Sound)
    (fs : Table String Json) :
    (a.handleMessage fs).1.scene.Sound := by
  have hClient : ∀ (c : Client)
      (f : Client → Client × Option Failure),
      (a.onClient c f).1.scene.Sound := by
    intro c f
    unfold onClient
    rw [scene_absorb]
    exact hSound
  unfold handleMessage
  split
  · exact hSound
  · split
    · split
      · unfold answerCall
        rw [scene_onClient]
        exact sound_handleShow hSound _
      · exact hClient _ _
    · exact hClient _ _

theorem sound_handleAll
    (hSound : a.scene.Sound)
    (ms : List (Table String Json)) :
    (a.handleAll ms).1.scene.Sound := by
  induction ms generalizing a with
  | nil => exact hSound
  | cons fs ms ih =>
      have hFirst := sound_handleMessage hSound fs
      unfold handleAll
      rcases hHandled : a.handleMessage fs with ⟨b, failure⟩
      rw [hHandled] at hFirst
      cases failure with
      | none => exact ih hFirst
      | some e => exact hFirst

theorem answered_fst
    (r : Application × Option Failure) :
    (answered r).1 = r.1 := by
  unfold answered
  split <;> rfl

theorem sound_clientEvent
    (hSound : a.scene.Sound)
    (event : Client.Event) :
    (a.clientEvent event).1.scene.Sound := by
  unfold clientEvent
  split
  · exact hSound
  · split
    · rw [answered_fst]
      exact sound_handleMessage hSound _
    · rw [answered_fst]
      unfold readOutput
      apply sound_handleAll
      rw [scene_absorb]
      exact hSound
    · dsimp only
      rw [scene_absorb]
      exact hSound

----
-- Commands
----

/-
  A command of daily use.  It paints nothing by hand, does not
  shut the application down and carries out no openings.
-/
def Command.isPlain : Command → Bool
  | .pump => false
  | .paint _ _ _ => false
  | .shutdown => false
  | _ => true

theorem sound_onDesktop
    (hSound : a.scene.Sound)
    {f : Desktop → Desktop}
    (h : (f a.host).stage = a.host.stage) :
    (a.onDesktop f).scene.Sound := by
  rw [a.scene_onDesktop h]
  exact hSound

theorem sound_reveal
    (hSound : a.scene.Sound)
    (u : String)
    (wanted : Option Region)
    (preserveFocus : Bool) :
    (a.reveal u wanted preserveFocus).1.scene.Sound := by
  have hLogged := sound_onDesktop hSound
    (f := fun d => d.logAll (d.placeLog u wanted)) (by simp)
  unfold reveal
  split
  · exact hSound
  · exact (dims_present hLogged.filed u preserveFocus).sound
      hLogged

/- The order of selections decides nothing. -/
theorem sound_reverseSelections
    (hSound : a.scene.Sound)
    (u : String) :
    (a.onSelections u List.reverse).scene.Sound := by
  refine (Session.touches_onEditor a u _).sound hSound ?_
  intro hDecorated
  rcases hDecorated with ⟨d, hd, hSelections⟩
  rcases Session.get?_edited hd with ⟨x, hx, rfl⟩
  have hHeld := hSound.secure u
    ⟨x, hx, fun h => hSelections (by simp [h])⟩
  refine ⟨hHeld.rendered, ?_, hHeld.paired, ?_⟩
  · intro e he
    rcases Session.get?_edited he with ⟨y, hy, rfl⟩
    exact hHeld.overlaid y hy
  · exact (Session.touches_onEditor a u _).pages ▸ hHeld.placed

section Wrappers

variable {P : Application → Prop}

/- A command on an open document, or none. -/
theorem keeps_onOpen
    (h : P a)
    {u : String}
    {f : Application → Application × Outcome Answer}
    (hOpen : a.workspace.isOpen u = true → P (f a).1) :
    P (a.onOpen u f).1 := by
  unfold onOpen
  split
  next hIs => exact hOpen hIs
  next => exact h

/- A command for a part that is there, or none. -/
theorem keeps_needing
    (h : P a)
    {present : Bool}
    {f : Application → Application × Outcome Answer}
    (hPresent : P (f a).1) :
    P (a.needing present f).1 := by
  unfold needing
  split
  · exact hPresent
  · exact h

/- A command with the surface for painting, or none. -/
theorem keeps_byHand
    (h : P a)
    {f : Desktop → Workspace.Surface → Desktop}
    (hSurface : ∀ s, P (a.onDesktop fun d => f d s)) :
    P (a.byHand f).1 := by
  unfold byHand
  split
  · exact h
  · exact hSurface _

/- A command with the rows of a legend, or none. -/
theorem keeps_withLegend
    (h : P a)
    (rows : List Desktop.LegendItem)
    {f : Desktop → Desktop}
    (hRows : ∀ read,
      P (a.onDesktop fun d => f (d.showLegend read))) :
    P (a.withLegend rows f).1 := by
  apply keeps_needing h
  split
  · exact h
  · exact hRows _

end Wrappers

theorem sound_hover
    (hSound : a.scene.Sound)
    (u : String)
    (line : Int) :
    (a.hover u line).1.scene.Sound := by
  unfold hover
  split
  · exact hSound
  · split <;> exact hSound

theorem sound_closeTab
    (hSound : a.scene.Sound)
    (region : Region)
    (index : Nat) :
    (a.closeTab region index).scene.Sound := by
  unfold closeTab
  split
  · exact hSound
  · exact sound_close hSound _

theorem sound_layOutSurface
    (hSound : a.scene.Sound)
    (palette lineAlpha style : Json) :
    (a.layOutSurface palette lineAlpha style).1.scene.Sound := by
  unfold layOutSurface
  split <;> exact hSound

theorem sound_clearSelections
    (hSound : a.scene.Sound)
    (u : String) :
    (a.onDesktop (·.decorate (.clear u))).scene.Sound := by
  apply (Session.touches_onEditor a u _).sound hSound
  intro hDecorated
  exact absurd hDecorated (Session.not_decorated_cleared a u)

/- Commands of daily use keep a scene sound. -/
theorem sound_perform
    (hSound : a.scene.Sound)
    {c : Command}
    (hPlain : c.isPlain = true) :
    (a.perform c).1.scene.Sound := by
  cases c with
  | pump => cases hPlain
  | paint uri slot spans => cases hPlain
  | shutdown => cases hPlain
  | writeFile path bytes => exact hSound
  | removeFile path => exact hSound
  | setGuard guard => exact hSound
  | setDescriber describer => exact hSound
  | requestReport uri region preserveFocus => exact hSound
  | client event => exact sound_clientEvent hSound event
  | openDocument uri region preserveFocus =>
      exact sound_openDocument hSound uri region preserveFocus
  | reveal uri region preserveFocus =>
      exact sound_reveal hSound uri region preserveFocus
  | reload uri => exact sound_reload hSound uri
  | close uri => exact sound_close hSound uri
  | closeAll => exact sound_closeAll hSound
  | focus uri =>
      exact keeps_onOpen (P := (·.scene.Sound)) hSound fun _ =>
        (dims_activate hSound.filed
          (a.workspace.stage_focus uri)).sound hSound
  | type uri typed =>
      exact keeps_onOpen (P := (·.scene.Sound)) hSound fun _ =>
        sound_retext hSound uri (f := (·.insert typed))
          fun _ => rfl
  | hover uri line tooltip =>
      refine keeps_onOpen (P := (·.scene.Sound)) hSound
        fun _ => ?_
      split
      · exact sound_hover hSound uri line
      · exact hSound
  | switchTab region index =>
      exact (dims_activate hSound.filed
        (a.workspace.stage_switchTo region index)).sound hSound
  | closeTab region index =>
      exact sound_closeTab hSound region index
  | layOutSurface palette lineAlpha style =>
      exact sound_layOutSurface hSound palette lineAlpha style
  | setEnabled enabled =>
      refine keeps_byHand (P := (·.scene.Sound)) hSound
        fun s => ?_
      apply sound_onDesktop hSound
      unfold Desktop.setHandSurface
      split <;> rfl
  | clearSelections uri =>
      exact keeps_byHand (P := (·.scene.Sound)) hSound fun _ =>
        sound_clearSelections hSound uri
  | reverseSelections uri =>
      exact keeps_needing (P := (·.scene.Sound)) hSound
        (sound_reverseSelections hSound uri)
  | showCompanion params =>
      exact keeps_needing (P := (·.scene.Sound)) hSound
        (sound_handleShow hSound params)
  | openPaths paths =>
      exact keeps_needing (P := (·.scene.Sound)) hSound
        (sound_openPaths hSound paths)
  | showLegend rows =>
      exact keeps_withLegend (P := (·.scene.Sound)) hSound rows
        fun _ => sound_onDesktop hSound rfl
  | emitLegend uri rows =>
      exact keeps_withLegend (P := (·.scene.Sound)) hSound rows
        fun _ => sound_onDesktop hSound rfl

end Application

end StyleCompanion
