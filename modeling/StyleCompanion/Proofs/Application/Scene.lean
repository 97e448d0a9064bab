import StyleCompanion.Application.Command
import StyleCompanion.Proofs.Pairing.Changes

/-
  What decides about decorations.

  Of an application only a few parts matter for what its
  documents show: the documents, the pages of the secondary
  region, the pairs and the renders of the engine.  They make
  up a scene.  Most operations leave the scene as it is.

  Main declarations:
    * `Scene`
    * `Pairing.Session.scene`
    * `Pairing.Session.scene_eq`
    * `Application.scene_onDesktop`
    * `Application.scene_withWorkspace`
-/

namespace StyleCompanion

open Pairing
open Workspace (Document Editor Tabs)

/- What decides about the decorations of documents. -/
structure Scene where
  documents : Table String Document
  pages : List String
  attached : Bool
  registry : PairRegistry
  engine : Overlay.Engine

----
-- Workspaces
----

namespace Workspace

/- The documents and the pages of the secondary region. -/
def stage
    (w : Workspace) : Table String Document × List String :=
  (w.documents, w.secondary.pages)

variable (w : Workspace)

theorem isOpen_eq_false_iff
    {u : String} :
    w.isOpen u = false ↔
      Table.get? w.documents u = none := by
  simp [isOpen, Table.contains]

/- Tabs with the same pages show in no stage. -/
theorem stage_setTabs
    {region : Region}
    {t : Tabs}
    (h : t.pages = (w.tabs region).pages) :
    (w.setTabs region t).stage = w.stage := by
  cases region with
  | primary => rfl
  | secondary =>
      unfold setTabs stage
      rw [h]
      rfl

@[simp] theorem stage_bringForward
    (uri : String) :
    (w.bringForward uri).stage = w.stage := by
  unfold bringForward
  split
  · rfl
  · apply stage_setTabs
    unfold Tabs.bringForward
    split <;> rfl

@[simp] theorem stage_markActive
    (uri : String) :
    (w.markActive uri).1.stage = w.stage := by
  unfold markActive
  split
  · rfl
  · split <;> rfl

@[simp] theorem stage_focus
    (uri : String) :
    (w.focus uri).1.stage = w.stage := by
  unfold focus
  split
  · rfl
  · exact stage_markActive _ uri

@[simp] theorem stage_pageChanged
    (region : Region) :
    (w.pageChanged region).1.stage = w.stage := by
  unfold pageChanged
  split
  · rfl
  · split
    · exact w.stage_markActive _
    · rfl

@[simp] theorem stage_switchTo
    (region : Region)
    (index : Nat) :
    (w.switchTo region index).1.stage = w.stage := by
  have hTabs :
      ((w.tabs region).switchTo index).1.pages =
        (w.tabs region).pages := by
    unfold Tabs.switchTo
    split
    · rfl
    · split <;> rfl
  have hSet := w.stage_setTabs hTabs
  unfold switchTo
  dsimp only
  split
  · exact (stage_pageChanged _ region).trans hSet
  · exact hSet

theorem stage_dropKeyboard
    (u : String) :
    (w.dropKeyboard u).stage = w.stage := by
  unfold dropKeyboard
  split <;> rfl

theorem stage_dropActive
    (u : String) :
    (w.dropActive u).stage = w.stage := by
  unfold dropActive
  split <;> rfl

/- A document that is removed leaves its region. -/
theorem stage_remove
    {u : String}
    {region : Region}
    (h : w.regionOf u = some region) :
    (w.remove u).1.stage =
      (({ w with documents := Table.erase w.documents u } :
        Workspace).setTabs region
          ((w.tabs region).remove u).1).stage := by
  unfold remove
  rw [h]
  dsimp only
  rw [stage_dropActive]
  split
  · rw [stage_pageChanged, stage_dropKeyboard]
  · exact stage_dropKeyboard _ u

theorem get?_remove
    {u : String}
    (h : w.isOpen u = true)
    (v : String) :
    Table.get? (w.remove u).1.documents v =
      if u = v then none else Table.get? w.documents v := by
  rcases Option.isSome_iff_exists.mp h with ⟨d, hd⟩
  have hRegion : w.regionOf u = some d.region := by
    unfold regionOf
    rw [hd]
    rfl
  have hDocuments :=
    congrArg Prod.fst (w.stage_remove hRegion)
  change (w.remove u).1.documents = _ at hDocuments
  rw [hDocuments, ← Table.get?_erase]
  cases d.region <;> rfl

/- The pages of other documents stay. -/
theorem mem_pages_remove
    {u v : String}
    (hNe : v ≠ u)
    (h : v ∈ w.secondary.pages) :
    v ∈ (w.remove u).1.secondary.pages := by
  cases hRegion : w.regionOf u with
  | none =>
      unfold remove
      rw [hRegion]
      exact h
  | some region =>
      have hPages :=
        congrArg Prod.snd (w.stage_remove hRegion)
      change (w.remove u).1.secondary.pages = _ at hPages
      rw [hPages]
      cases region with
      | primary => exact h
      | secondary =>
          change v ∈ (w.secondary.remove u).1.pages
          unfold Tabs.remove
          split
          · exact (List.mem_erase_of_ne hNe).mpr h
          · exact h

theorem get?_add
    (u v : String)
    (region : Region)
    (e : Editor) :
    Table.get? (w.add u region e).documents v =
      if u = v then some ⟨region, e⟩
      else Table.get? w.documents v :=
  Table.get?_insert _ _ _ _

/- A document is added at no other's place. -/
theorem mem_pages_add
    {u v : String}
    (hNe : v ≠ u)
    (region : Region)
    (e : Editor) :
    v ∈ (w.add u region e).secondary.pages ↔
      v ∈ w.secondary.pages := by
  cases region with
  | primary => rfl
  | secondary =>
      change v ∈ w.secondary.pages ++ [u] ↔ _
      simp [hNe]

/- Only the editor of one document changes. -/
theorem get?_onEditor
    (u v : String)
    (f : Editor → Editor) :
    Table.get? (w.onEditor u f).documents v =
      if u = v then
        (Table.get? w.documents u).map fun d =>
          { d with editor := f d.editor }
      else Table.get? w.documents v := by
  cases hFound : Table.get? w.documents u with
  | none =>
      have hSame : w.onEditor u f = w := by
        unfold onEditor
        rw [hFound]
      rw [hSame]
      split
      next hEq =>
        subst hEq
        exact hFound
      next => rfl
  | some d =>
      have hChanged : (w.onEditor u f).documents =
          Table.insert w.documents u
            { d with editor := f d.editor } := by
        unfold onEditor
        rw [hFound]
      rw [hChanged]
      exact Table.get?_insert _ _ _ _

theorem pages_onEditor
    (u : String)
    (f : Editor → Editor) :
    (w.onEditor u f).secondary.pages = w.secondary.pages := by
  unfold onEditor
  split <;> rfl

end Workspace

----
-- Desktops
----

namespace Desktop

/- A desktop without its client, its legend and its journal. -/
def bare
    (d : Desktop) : Desktop :=
  { d with client := none, legend := none, journal := [] }

variable (d : Desktop)

theorem bare_foldl
    {α : Type}
    {f : Desktop → α → Desktop}
    (h : ∀ d x, (f d x).bare = d.bare)
    (xs : List α) :
    (xs.foldl f d).bare = d.bare := by
  induction xs generalizing d with
  | nil => rfl
  | cons x xs ih => exact (ih _).trans (h d x)

theorem bare_logAll
    (rs : List LogRecord) :
    (d.logAll rs).bare = d.bare :=
  d.bare_foldl (f := log) (fun _ _ => rfl) rs

theorem bare_showMessage
    (text : String)
    (duration : Nat) :
    (d.showMessage text duration).bare = d.bare := by
  unfold showMessage
  split <;> rfl

theorem bare_relay
    (e : ClientEffect) :
    (d.relay e).bare = d.bare := by
  unfold relay
  split
  · rfl
  · split
    · exact d.bare_showMessage _ passing
    · rfl
  · rfl

theorem bare_absorb
    (c : Client) :
    (d.absorb c).bare = d.bare :=
  bare_foldl _ bare_relay c.journal

theorem bare_onClient
    (f : Client → Client) :
    (d.onClient f).bare = d.bare := by
  unfold onClient
  split
  · rfl
  · exact d.bare_absorb _

theorem bare_settle
    (engine : Overlay.Engine)
    (e : HostEvent) :
    (d.settle engine e).bare = d.bare := by
  unfold settle
  split
  · split <;> rfl
  · rfl
  · change (d.announceClosed _).bare = d.bare
    unfold announceClosed
    split
    · exact d.bare_onClient _
    · rfl

/- The stage of the workspace, and who follows it. -/
def stage
    (d : Desktop) :
    (Table String Document × List String) × Bool :=
  (d.workspace.stage, d.attached)

variable {d}

theorem stage_of_bare
    {e : Desktop}
    (h : e.bare = d.bare) :
    e.stage = d.stage :=
  (congrArg stage h :)

variable (d)

@[simp] theorem stage_logAll
    (rs : List LogRecord) :
    (d.logAll rs).stage = d.stage :=
  stage_of_bare (d.bare_logAll rs)

@[simp] theorem stage_reveal
    (uri : String)
    (wanted : Option Region) :
    (d.reveal uri wanted).stage = d.stage := by
  unfold reveal
  rw [stage_logAll]
  unfold stage
  rw [Workspace.stage_bringForward]

end Desktop

----
-- Applications
----

namespace Pairing.Session

/- The scene of an application. -/
def scene
    (a : Session Desktop) : Scene :=
  { documents := a.host.workspace.documents
    pages := a.host.workspace.secondary.pages
    attached := a.host.attached
    registry := a.registry
    engine := a.engine }

/- The desktop shows in the scene by its stage only. -/
theorem scene_eq
    {a b : Session Desktop}
    (hRegistry : b.registry = a.registry)
    (hEngine : b.engine = a.engine)
    (hStage : b.host.stage = a.host.stage) :
    b.scene = a.scene := by
  simp only [Desktop.stage, Workspace.stage, Prod.mk.injEq]
    at hStage
  unfold scene
  rw [hRegistry, hEngine, hStage.1.1, hStage.1.2, hStage.2]

variable (a : Session Desktop)

@[simp] theorem scene_keepModel
    (companion : String)
    (m : Attribution.Model) :
    (a.keepModel companion m).scene = a.scene := rfl

@[simp] theorem scene_settle
    (e : HostEvent) :
    (a.settle e).scene = a.scene :=
  scene_eq rfl rfl
    (Desktop.stage_of_bare (a.host.bare_settle a.engine e))

end Pairing.Session

namespace Application

variable (a : Application)

theorem scene_onDesktop
    {f : Desktop → Desktop}
    (h : (f a.host).stage = a.host.stage) :
    (a.onDesktop f).scene = a.scene :=
  Session.scene_eq rfl rfl h

theorem scene_withWorkspace
    {w : Workspace}
    (h : w.stage = a.workspace.stage) :
    (a.withWorkspace w).scene = a.scene :=
  Session.scene_eq rfl rfl (congrArg (·, a.host.attached) h)

/- Paths are opened one by one, until one fails. -/
theorem openPaths_induction
    {P : Application → Prop}
    {a : Application}
    (hStart : P a)
    (hOpen : ∀ b u, P b →
      P (openDocument b u .primary false).1)
    (paths : List String) :
    P (a.openPaths paths).1 := by
  induction paths generalizing a with
  | nil => exact hStart
  | cons path rest ih =>
      unfold openPaths
      split
      · exact ih hStart
      · have hOpened := hOpen a
          (uriOfFile a.host.disk.current path) hStart
        dsimp only
        split
        next hRun =>
          rw [hRun] at hOpened
          exact ih hOpened
        next hRun =>
          rw [hRun] at hOpened
          exact hOpened

theorem scene_onClient
    (f : Client → Client) :
    (a.onDesktop (·.onClient f)).scene = a.scene :=
  a.scene_onDesktop (Desktop.stage_of_bare (a.host.bare_onClient f))

theorem scene_absorb
    (c : Client) :
    (a.onDesktop (·.absorb c)).scene = a.scene :=
  a.scene_onDesktop (Desktop.stage_of_bare (a.host.bare_absorb c))

end Application

end StyleCompanion
