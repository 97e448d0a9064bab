import Mathlib.Data.Fintype.EquivFin
import StyleCompanion.Proofs.Application.Commands

/-
  Decorations that commands of daily use make stale.

  An application is steady if its decorations are fresh and
  stay so, whatever the user does.  That asks for more than a
  fresh scene.  A decorated document without a pair is not
  cleared when the user types into it.  One that lies outside
  the secondary region loses its pair and its render as soon
  as any document is opened.

  Main declarations:
    * `Application.Steady`
    * `Application.not_fresh_typed`
    * `Application.not_fresh_glance`
    * `Application.steady_iff_secure`
-/

namespace StyleCompanion

open Pairing

namespace Pairing.Session

variable {a : Session Desktop}

----
-- Renders that are forgotten
----

theorem hasRender_dropPair
    {u : String}
    {pair : DocumentPair}
    (h : a.engine.hasRender u = false ∨ pair.companion = u) :
    (a.dropPair pair).engine.hasRender u = false := by
  change (Table.get? (Table.erase a.engine.views
    pair.companion) u).isSome = false
  rw [Table.get?_erase]
  split
  · rfl
  next hNe => exact h.resolve_right hNe

/-
  The render of a companion that has vanished is forgotten, at
  the latest when its pair has its turn.
-/
theorem hasRender_unpairAll
    {present : List String}
    {pairs : List DocumentPair}
    {pair : DocumentPair}
    (hOut : pair.companion ∉ present)
    (h : a.engine.hasRender pair.companion = false ∨
      pair ∈ pairs) :
    (pairs.foldl (unpairVanished present) a).engine.hasRender
      pair.companion = false := by
  induction pairs generalizing a with
  | nil => exact h.resolve_right List.not_mem_nil
  | cons first pairs ih =>
      apply ih
      unfold unpairVanished
      split
      next hIn =>
        rcases h with hGone | hMem
        · exact Or.inl hGone
        · rcases List.mem_cons.mp hMem with hFirst | hRest
          · exact absurd (hFirst ▸ hIn) hOut
          · exact Or.inr hRest
      next =>
        rcases h with hGone | hMem
        · exact Or.inl (hasRender_dropPair (Or.inl hGone))
        · rcases List.mem_cons.mp hMem with hFirst | hRest
          · exact Or.inl (hasRender_dropPair
              (Or.inr (congrArg _ hFirst.symm)))
          · exact Or.inr hRest

/- A companion outside the secondary region is forgotten. -/
theorem hasRender_reconcile
    {u : String}
    (hPaired : a.registry.HasCompanion u)
    (hOut : u ∉ a.scene.pages) :
    a.reconcile.engine.hasRender u = false := by
  rcases hPaired with ⟨pair, hPair, rfl⟩
  exact hasRender_unpairAll hOut (Or.inr hPair)

/- Decorations out of their place outlive their render. -/
theorem not_fresh_reconcile
    {u : String}
    (hDecorated : a.scene.Decorated u)
    (hPaired : a.registry.HasCompanion u)
    (hOut : u ∉ a.scene.pages) :
    ¬ a.reconcile.scene.Fresh := by
  rcases hDecorated with ⟨d, hd, hSelections⟩
  have hDocuments :
      a.reconcile.scene.documents = a.scene.documents :=
    congrArg (·.1.1) a.stage_reconcile
  intro hFresh
  have hRendered := (hFresh u
    ⟨d, (congrArg (Table.get? · u) hDocuments).trans hd,
      hSelections⟩).1
  exact Bool.false_ne_true
    ((hasRender_reconcile hPaired hOut).symm.trans hRendered)

end Pairing.Session

namespace Application

variable {a : Application}

----
-- Typing into a document without a pair
----

/- A text that is nobody's companion changes unnoticed. -/
theorem scene_textChanged
    (hAttached : a.scene.attached = true)
    {u : String}
    (hFree : ¬ a.registry.HasCompanion u) :
    (a.textChanged u).scene = a.scene := by
  have hFollowed : a.host.attached = true := hAttached
  have hNone : a.registry.pairForCompanion u = none := by
    apply PairRegistry.pairForCompanion_eq_none_iff.mpr
    intro pair hPair hEq
    exact hFree ⟨pair, hPair, hEq⟩
  unfold textChanged
  dsimp only
  rw [Session.scene_settle, hFollowed, hNone]
  exact a.scene_announceChange u

/- Decorations without a pair outlive a change of the text. -/
theorem not_fresh_typed
    (hAttached : a.scene.attached = true)
    {u : String}
    (hDecorated : a.scene.Decorated u)
    (hFree : ¬ a.registry.HasCompanion u)
    (typed : String) :
    ¬ (a.perform (.type u typed)).1.scene.Fresh := by
  rcases hDecorated with ⟨d, hd, hSelections⟩
  have hOpen : a.workspace.isOpen u = true := by
    change (Table.get? a.scene.documents u).isSome = true
    rw [hd]
    rfl
  have hTyped : (a.perform (.type u typed)).1 =
      a.type u typed :=
    congrArg Prod.fst (if_pos hOpen)
  have hScene : (a.type u typed).scene =
      (a.withWorkspace (a.workspace.onEditor u
        (·.insert typed))).scene :=
    scene_textChanged
      (a := a.withWorkspace (a.workspace.onEditor u
        (·.insert typed)))
      hAttached hFree
  have hAfter : Table.get? (a.withWorkspace
      (a.workspace.onEditor u
        (·.insert typed))).scene.documents u =
      some { d with editor := d.editor.insert typed } := by
    refine (a.workspace.get?_onEditor u u _).trans ?_
    rw [if_pos rfl]
    exact congrArg (Option.map _) hd
  rw [hTyped, hScene]
  intro hFresh
  have hStale := (hFresh u ⟨_, hAfter, hSelections⟩).2 _ hAfter
  cases hStale

----
-- Opening beside a companion that is out of place
----

/- Some name belongs to no open document. -/
theorem exists_closed
    (a : Application) :
    ∃ u, Table.get? a.workspace.documents u = none := by
  rcases Infinite.exists_notMem_finset
      (Table.keys a.workspace.documents).toFinset with
    ⟨u, hu⟩
  refine ⟨u, Table.get?_eq_none_iff.mpr ?_⟩
  intro hMem
  exact hu (List.mem_toFinset.mpr hMem)

theorem not_fresh_openText
    (hAttached : a.scene.attached = true)
    {u : String}
    (hDecorated : a.scene.Decorated u)
    (hPaired : a.registry.HasCompanion u)
    (hOut : u ∉ a.scene.pages)
    {v : String}
    (hNe : u ≠ v)
    (region : Region)
    (content : String) :
    ¬ (a.openText v region true content).scene.Fresh := by
  have hFollowed : a.host.attached = true := hAttached
  let e := Workspace.Editor.new content (editorFont a.host)
  let b : Application :=
    (a.withWorkspace (a.workspace.add v region e)).present v
      true
  have hScene : b.scene =
      (a.withWorkspace (a.workspace.add v region e)).scene :=
    scene_withWorkspace _ (Workspace.stage_bringForward _ v)
  have hOpened : (a.openText v region true content).scene =
      (Session.reconcile b).scene :=
    (scene_opened b v region).trans (if_pos hFollowed)
  rw [hOpened]
  refine Session.not_fresh_reconcile (a := b) (u := u)
    ?_ hPaired ?_
  · rw [hScene]
    rcases hDecorated with ⟨d, hd, hSelections⟩
    refine ⟨d, ?_, hSelections⟩
    refine (a.workspace.get?_add v u region e).trans ?_
    rw [if_neg (Ne.symm hNe)]
    exact hd
  · rw [hScene]
    exact fun h =>
      hOut ((a.workspace.mem_pages_add hNe region e).mp h)

/- A closed document that can be read is opened. -/
theorem openDocument_of_readText
    {v : String}
    (hClosed : Table.get? a.workspace.documents v = none)
    {content : String}
    (hRead : a.host.disk.readText (pathOfUri v) =
      .text content)
    (region : Region)
    (preserveFocus : Bool) :
    (a.openDocument v region preserveFocus).1 =
      (a.onDesktop (·.logAll (redirectLog v region
        (a.target v region)))).openText v
          (a.target v region) preserveFocus content := by
  let b := a.onDesktop (·.logAll (redirectLog v region
    (a.target v region)))
  have hSame : b.workspace = a.workspace ∧
      b.host.disk = a.host.disk := by
    unfold b redirectLog
    split <;> exact ⟨rfl, rfl⟩
  have hNotOpen : b.workspace.isOpen v = false := by
    rw [hSame.1]
    exact (Workspace.isOpen_eq_false_iff _).mpr hClosed
  have hContent : b.host.disk.readText (pathOfUri v) =
      .text content := by
    rw [hSame.2]
    exact hRead
  unfold openDocument openNew
  dsimp only
  rw [if_neg (by rw [hNotOpen]; exact Bool.false_ne_true),
    hContent]

/- A new file, and its opening behind the active document. -/
def glance
    (u : String) : List Command :=
  [.writeFile (pathOfUri u) [],
    .openDocument u .primary true]

/- Decorations out of their place outlive the render. -/
theorem not_fresh_glance
    (hAttached : a.scene.attached = true)
    {u : String}
    (hDecorated : a.scene.Decorated u)
    (hPaired : a.registry.HasCompanion u)
    (hOut : u ∉ a.scene.pages)
    {v : String}
    (hClosed : Table.get? a.workspace.documents v = none) :
    ¬ (a.run (glance v)).scene.Fresh := by
  have hNe : u ≠ v := by
    rintro rfl
    exact Scene.not_decorated hClosed hDecorated
  let b := a.onDesktop fun d =>
    { d with disk := d.disk.write (pathOfUri v) [] }
  have hRead : b.host.disk.readText (pathOfUri v) =
      .text "" := by
    change Disk.readText (Disk.write a.host.disk _ []) _ = _
    unfold Disk.readText Disk.write
    rw [Table.get?_insert_self]
    rfl
  change ¬ (b.openDocument v .primary true).1.scene.Fresh
  rw [openDocument_of_readText (a := b) hClosed hRead]
  let c := b.onDesktop (·.logAll (redirectLog v .primary
    (b.target v .primary)))
  have hScene : c.scene = a.scene :=
    scene_onDesktop _ (by simp)
  refine not_fresh_openText (a := c) (u := u) ?_ ?_ hPaired
    ?_ hNe _ _
  · exact hScene ▸ hAttached
  · exact hScene ▸ hDecorated
  · exact hScene ▸ hOut

----
-- Steady applications
----

/- Decorations are fresh whatever the user does next. -/
def Steady
    (a : Application) : Prop :=
  ∀ cs : List Command, (∀ c ∈ cs, c.isPlain = true) →
    (a.run cs).scene.Fresh

theorem sound_run
    (hSound : a.scene.Sound)
    {cs : List Command}
    (hPlain : ∀ c ∈ cs, c.isPlain = true) :
    (a.run cs).scene.Sound := by
  induction cs generalizing a with
  | nil => exact hSound
  | cons c cs ih =>
      rw [List.forall_mem_cons] at hPlain
      exact ih (sound_perform hSound hPlain.1) hPlain.2

theorem steady_of_sound
    (hSound : a.scene.Sound) :
    a.Steady := by
  intro cs hPlain
  exact (sound_run hSound hPlain).secure.fresh

/-
  Decorations stay fresh if and only if each is held by a pair
  and lies in its place.
-/
theorem steady_iff_secure
    (hAttached : a.scene.attached = true)
    (hFiled : a.registry.Filed) :
    a.Steady ↔ a.scene.Secure := by
  constructor
  · intro hSteady u hDecorated
    have hFresh := hSteady [] (by simp) u hDecorated
    have hPaired : a.registry.HasCompanion u := by
      by_contra hFree
      exact not_fresh_typed hAttached hDecorated hFree "x"
        (hSteady [.type u "x"] (by simp [Command.isPlain]))
    refine ⟨hFresh.1, hFresh.2, hPaired, ?_⟩
    by_contra hOut
    rcases a.exists_closed with ⟨v, hClosed⟩
    exact not_fresh_glance hAttached hDecorated hPaired hOut
      hClosed
      (hSteady (glance v) (by simp [glance, Command.isPlain]))
  · intro hSecure
    exact steady_of_sound ⟨hAttached, hFiled, hSecure⟩

end Application

end StyleCompanion
