import StyleCompanion.Proofs.Application.Dimming
import StyleCompanion.Proofs.Pairing.Effects

/-
  Operations on one view.

  Painting, clearing and editing touch one document only.  A
  render leaves its view held as far as the engine and the
  text are concerned; whether it is paired and in its place is
  for others to say.  A change of the text of a document that
  was held takes its decorations off.

  Main declarations:
    * `Scene.Touches`
    * `Pairing.Session.touches_render`
    * `Pairing.Session.holds_render`
    * `Pairing.Session.holds_refreshAndRender`
    * `Application.not_decorated_retext`
-/

namespace StyleCompanion

open Pairing
open Workspace (Document Editor)

----
-- Touching one document
----

namespace Scene

/- Nothing changes but what one document shows. -/
structure Touches
    (u : String)
    (s t : Scene) : Prop where
  attached : t.attached = s.attached
  registry : t.registry = s.registry
  pages : t.pages = s.pages
  opened :
    ∀ v, (Table.get? t.documents v).isSome =
      (Table.get? s.documents v).isSome
  documents :
    ∀ v, v ≠ u →
      Table.get? t.documents v = Table.get? s.documents v
  rendered :
    ∀ v, v ≠ u → t.engine.hasRender v = s.engine.hasRender v

namespace Touches

variable {u : String} {s t r : Scene}

theorem refl
    (s : Scene) :
    Touches u s s :=
  ⟨rfl, rfl, rfl, fun _ => rfl, fun _ _ => rfl,
    fun _ _ => rfl⟩

theorem of_eq
    (h : t = s) :
    Touches u s t := by
  rw [h]
  exact .refl s

theorem trans
    (h : Touches u s t)
    (k : Touches u t r) :
    Touches u s r where
  attached := k.attached.trans h.attached
  registry := k.registry.trans h.registry
  pages := k.pages.trans h.pages
  opened v := (k.opened v).trans (h.opened v)
  documents v hv := (k.documents v hv).trans (h.documents v hv)
  rendered v hv := (k.rendered v hv).trans (h.rendered v hv)

/- Other documents are decorated and held as they were. -/
theorem holds_of_ne
    (h : Touches u s t)
    {v : String}
    (hv : v ≠ u)
    (hSecure : s.Secure)
    (hDecorated : t.Decorated v) :
    t.Holds v := by
  have hSame := h.documents v hv
  have hHeld : s.Holds v := by
    apply hSecure
    rcases hDecorated with ⟨d, hd, hSelections⟩
    exact ⟨d, hSame.symm.trans hd, hSelections⟩
  refine ⟨?_, ?_, ?_, ?_⟩
  · rw [h.rendered v hv]
    exact hHeld.rendered
  · intro d hd
    exact hHeld.overlaid d (hSame.symm.trans hd)
  · rw [h.registry]
    exact hHeld.paired
  · rw [h.pages]
    exact hHeld.placed

theorem secure
    (h : Touches u s t)
    (hSecure : s.Secure)
    (hOwn : t.Decorated u → t.Holds u) :
    t.Secure := by
  intro v hv
  by_cases hEq : v = u
  · subst hEq
    exact hOwn hv
  · exact h.holds_of_ne hEq hSecure hv

end Touches

end Scene

open Scene (Touches)

namespace Pairing.Session

variable (a : Session Desktop)

/- Work on an editor touches its document. -/
theorem touches_onEditor
    (u : String)
    (f : Editor → Editor) :
    Touches u a.scene
      (Application.withWorkspace a
        (a.host.workspace.onEditor u f)).scene := by
  have hGet := fun v => a.host.workspace.get?_onEditor u v f
  refine ⟨rfl, rfl, ?_, ?_, ?_, fun _ _ => rfl⟩
  · exact a.host.workspace.pages_onEditor u f
  · intro v
    refine (congrArg Option.isSome (hGet v)).trans ?_
    split
    next hEq =>
      subst hEq
      exact Option.isSome_map
    next => rfl
  · intro v hv
    exact (hGet v).trans (if_neg (Ne.symm hv))

/- A document whose editor was worked on was open before. -/
theorem get?_edited
    {a : Session Desktop}
    {u : String}
    {f : Editor → Editor}
    {d : Document}
    (h : Table.get? (Application.withWorkspace a
      (a.host.workspace.onEditor u f)).scene.documents u =
        some d) :
    ∃ x, Table.get? a.scene.documents u = some x ∧
      { x with editor := f x.editor } = d := by
  change Table.get? (a.host.workspace.onEditor u f).documents
    u = some d at h
  rw [Workspace.get?_onEditor, if_pos rfl] at h
  exact Option.map_eq_some_iff.mp h

/- An editor that was cleared shows nothing. -/
theorem not_decorated_cleared
    (u : String) :
    ¬ (Application.withWorkspace a
      (a.host.workspace.onEditor u
        (·.clearSelections))).scene.Decorated u := by
  intro h
  rcases h with ⟨d, hd, hSelections⟩
  rcases get?_edited hd with ⟨x, -, rfl⟩
  exact hSelections rfl

----
-- Effects of the engine
----

/- The effect is on one view, or only told. -/
def Concerns
    (u : String) : Overlay.Effect → Prop
  | .log _ => True
  | .clear view => view = u
  | .paint view _ _ => view = u
  | .rendered view _ => view = u

/- A paint adds selections to its view, or does nothing. -/
theorem paint_cases
    (s : Workspace.Surface)
    (w : Workspace)
    (u slot : String)
    (spans : List Overlay.LineSpan) :
    (s.paint w u slot spans).1 = w ∨
      ∃ ss, (s.paint w u slot spans).1 =
        w.onEditor u (·.addSelections ss) := by
  unfold Workspace.Surface.paint
  split
  · exact Or.inl rfl
  · split
    · exact Or.inl rfl
    · split
      · exact Or.inl rfl
      · exact Or.inr ⟨_, rfl⟩

theorem touches_paintOn
    (s : Workspace.Surface)
    (u slot : String)
    (spans : List Overlay.LineSpan) :
    Touches u a.scene
      ({ a with host := a.host.paintOn s u slot spans } :
        Session Desktop).scene := by
  have hLog :
      ({ a with host := a.host.paintOn s u slot spans } :
        Session Desktop).scene =
      (Application.withWorkspace a
        (s.paint a.host.workspace u slot spans).1).scene :=
    scene_eq rfl rfl (Desktop.stage_logAll _ _)
  rw [hLog]
  rcases paint_cases s a.host.workspace u slot spans with
    hSame | ⟨ss, hPainted⟩
  · rw [hSame]
    exact .refl _
  · rw [hPainted]
    exact a.touches_onEditor u _

theorem touches_decorateOne
    {u : String}
    {e : Overlay.Effect}
    (h : Concerns u e) :
    Touches u a.scene
      ({ a with host := Desktop.decorate a.host e } :
        Session Desktop).scene := by
  cases e with
  | log r => exact .refl _
  | clear view =>
      cases h
      exact a.touches_onEditor _ _
  | rendered view rows =>
      cases h
      exact a.touches_onEditor _ _
  | paint view slot spans =>
      cases h
      exact a.touches_paintOn _ _ _ _

theorem touches_decorate
    {u : String}
    {effects : List Overlay.Effect}
    (h : ∀ e ∈ effects, Concerns u e) :
    Touches u a.scene (a.decorate effects).scene := by
  induction effects generalizing a with
  | nil => exact .refl _
  | cons e effects ih =>
      rw [List.forall_mem_cons] at h
      exact (a.touches_decorateOne h.1).trans (ih _ h.2)

/- All that a render does concerns its view. -/
theorem concerns_render
    (engine : Overlay.Engine)
    (u : String)
    (m : Attribution.Model)
    (count : Option Int) :
    ∀ e ∈ (engine.render u m count).2.1, Concerns u e := by
  cases count with
  | none =>
      intro e he
      cases List.mem_singleton.mp he
      trivial
  | some n =>
      intro e he
      simp only [Overlay.Engine.render,
        Overlay.Engine.renderLines, List.mem_append,
        List.mem_cons, List.mem_map, List.not_mem_nil,
        or_false] at he
      rcases he with (⟨r, -, rfl⟩ | rfl | ⟨p, -, rfl⟩) | rfl
      · trivial
      · rfl
      · rfl
      · rfl

theorem touches_render
    (u : String)
    (m : Attribution.Model) :
    Touches u a.scene (a.render u m).scene := by
  have hEffects := concerns_render a.engine u m
    (Host.lineCount a.host u)
  have hEngine : Touches u a.scene
      ({ a with engine := (a.engine.render u m
        (Host.lineCount a.host u)).1 } :
        Session Desktop).scene := by
    refine ⟨rfl, rfl, rfl, fun _ => rfl, fun _ _ => rfl, ?_⟩
    intro v hv
    exact congrArg Option.isSome
      (a.engine.get?_views_render m _ hv)
  exact hEngine.trans (touches_decorate _ hEffects)

theorem lineCount_of_open
    {u : String}
    (h : (Table.get? a.scene.documents u).isSome = true) :
    ∃ n, Host.lineCount a.host u = some n := by
  rcases Option.isSome_iff_exists.mp h with ⟨d, hd⟩
  refine ⟨(d.editor.lineCount : Int), ?_⟩
  change ((Table.get? a.scene.documents u).map _).map _ = _
  rw [hd]
  rfl

/- The last effect of a render marks the text. -/
theorem render_eq
    {u : String}
    {n : Int}
    (h : Host.lineCount a.host u = some n)
    (m : Attribution.Model) :
    let v := Overlay.Engine.fresh m a.engine.paletteSize
    ∃ d : Desktop,
      (a.render u m).host =
          d.decorate (.rendered u v.legend) ∧
        (a.render u m).engine =
          { a.engine with
            views := Table.insert a.engine.views u v } := by
  intro v
  have hEffects : ∃ front,
      (a.engine.render u m (some n)).2.1 =
        front ++ [.rendered u v.legend] := ⟨_, rfl⟩
  rcases hEffects with ⟨front, hFront⟩
  unfold render
  rw [h]
  refine ⟨front.foldl Desktop.decorate a.host, ?_, rfl⟩
  change ((a.engine.render u m (some n)).2.1).foldl
    Desktop.decorate a.host = _
  rw [hFront, List.foldl_append]
  rfl

/- An open view has a render of its text as it stands. -/
theorem holds_render
    {u : String}
    {m : Attribution.Model}
    {d : Document}
    (h : Table.get? (a.render u m).scene.documents u = some d) :
    (a.render u m).scene.engine.hasRender u = true ∧
      d.editor.overlaid = true := by
  have hOpen := (a.touches_render u m).opened u
  rw [h] at hOpen
  rcases a.lineCount_of_open hOpen.symm with ⟨n, hCount⟩
  rcases a.render_eq hCount m with ⟨e, hHost, hEngine⟩
  constructor
  · change (a.render u m).engine.hasRender u = true
    rw [hEngine, Overlay.Engine.hasRender, Table.contains,
      Table.get?_insert_self]
    rfl
  · change Table.get? (a.render u m).host.workspace.documents
      u = some d at h
    rw [hHost] at h
    rcases get?_edited (a := { a with host := e })
        (f := (·.markOverlaid)) h with ⟨x, -, rfl⟩
    rfl

theorem touches_clearView
    (u : String) :
    Touches u a.scene (a.clearView u).scene := by
  have hEngine : Touches u a.scene
      ({ a with engine := a.engine.forget u } :
        Session Desktop).scene := by
    refine ⟨rfl, rfl, rfl, fun _ => rfl, fun _ _ => rfl, ?_⟩
    intro v hv
    exact congrArg Option.isSome
      ((Table.get?_erase a.engine.views u v).trans
        (if_neg (Ne.symm hv)))
  refine hEngine.trans (touches_decorate _ ?_)
  intro e he
  cases hCount : Host.lineCount a.host u with
  | none =>
      rw [hCount] at he
      cases he
  | some n =>
      rw [hCount] at he
      cases List.mem_singleton.mp he
      rfl

/- A view that was cleared shows nothing. -/
theorem not_decorated_clearView
    (u : String) :
    ¬ (a.clearView u).scene.Decorated u := by
  intro hDecorated
  rcases hDecorated with ⟨d, hd, hSelections⟩
  have hOpen := (a.touches_clearView u).opened u
  rw [hd] at hOpen
  rcases a.lineCount_of_open hOpen.symm with ⟨n, hCount⟩
  unfold clearView at hd
  rw [hCount] at hd
  exact a.not_decorated_cleared u ⟨d, hd, hSelections⟩

----
-- Edits
----

theorem touches_companionEdited
    (u : String) :
    Touches u a.scene (a.companionEdited u).scene := by
  unfold companionEdited
  split
  · exact .refl _
  · exact touches_clearView ((a.debug _).dropModel u) u

/- A held view is cleared when its text has changed. -/
theorem not_decorated_companionEdited
    {u : String}
    (h : a.scene.Decorated u →
      a.scene.engine.hasRender u = true) :
    ¬ (a.companionEdited u).scene.Decorated u := by
  unfold companionEdited
  split
  next hNone =>
    intro hDecorated
    rw [Bool.not_eq_true'] at hNone
    exact absurd (h hDecorated) (Bool.eq_false_iff.mp hNone)
  next => exact not_decorated_clearView _ u

/- What reading a document again comes to. -/
theorem reread_cases
    (d : Desktop)
    (u : String) :
    (∃ e, d.reread u = .failed d e) ∨
      (∃ d', d.reread u = .done d' false ∧
        d'.stage = d.stage) ∨
      ∃ text, d.reread u =
        .done
          { d with workspace :=
            d.workspace.onEditor u (·.setText text) }
          true := by
  unfold Desktop.reread
  split
  · exact Or.inr (Or.inl ⟨_, rfl, rfl⟩)
  · dsimp only
    split
    · exact Or.inl ⟨_, rfl⟩
    · exact Or.inr (Or.inl ⟨_, rfl, rfl⟩)
    · split
      · exact Or.inr (Or.inl ⟨_, rfl, rfl⟩)
      · exact Or.inr (Or.inr ⟨_, rfl⟩)

/-
  A companion that is read again and rendered is touched, and
  ends up with a render of its text, unless it could not be
  read.
-/
theorem refreshAndRender_cases
    (u : String)
    (m : Attribution.Model) :
    (a.refreshAndRender u m).1.scene = a.scene ∨
      ∃ b : Session Desktop,
        Touches u a.scene b.scene ∧
          (a.refreshAndRender u m).1 = b.render u m := by
  rcases reread_cases a.host u with
    ⟨e, hRead⟩ | ⟨d, hRead, hStage⟩ | ⟨text, hRead⟩
  · refine Or.inl ?_
    unfold refreshAndRender
    change Host.refresh a.host u = _ at hRead
    rw [hRead]
  · refine Or.inr
      ⟨keepModel { a with host := d } u m, ?_, ?_⟩
    · exact .of_eq (scene_eq rfl rfl hStage)
    · unfold refreshAndRender
      change Host.refresh a.host u = _ at hRead
      rw [hRead]
      rfl
  · let changed : Session Desktop :=
      Application.withWorkspace a
        (a.host.workspace.onEditor u (·.setText text))
    refine Or.inr
      ⟨((changed.companionEdited u).settle
        (.edited u)).keepModel u m, ?_, ?_⟩
    · refine (a.touches_onEditor u (·.setText text)).trans ?_
      rw [scene_keepModel, scene_settle]
      exact changed.touches_companionEdited u
    · unfold refreshAndRender
      change Host.refresh a.host u = _ at hRead
      rw [hRead]
      rfl

theorem touches_refreshAndRender
    (u : String)
    (m : Attribution.Model) :
    Touches u a.scene (a.refreshAndRender u m).1.scene := by
  rcases a.refreshAndRender_cases u m with
    hSame | ⟨b, hTouched, hRendered⟩
  · exact .of_eq hSame
  · rw [hRendered]
    exact hTouched.trans (b.touches_render u m)

/- A paired companion in its place may be rendered. -/
theorem holds_refreshAndRender
    {u : String}
    (hSecure : a.scene.Secure)
    (hPaired : a.scene.registry.HasCompanion u)
    (hPlaced : (Table.get? a.scene.documents u).isSome = true →
      u ∈ a.scene.pages)
    (m : Attribution.Model)
    (hDecorated :
      (a.refreshAndRender u m).1.scene.Decorated u) :
    (a.refreshAndRender u m).1.scene.Holds u := by
  have hTouched := a.touches_refreshAndRender u m
  rcases a.refreshAndRender_cases u m with
    hSame | ⟨b, -, hRendered⟩
  · rw [hSame] at hDecorated ⊢
    exact hSecure u hDecorated
  · rcases hDecorated with ⟨d, hd, -⟩
    have hOpen := hTouched.opened u
    rw [hd] at hOpen
    refine ⟨?_, ?_, ?_, ?_⟩
    · rw [hRendered] at hd ⊢
      exact (b.holds_render hd).1
    · intro e he
      rw [hRendered] at he
      exact (b.holds_render he).2
    · rw [hTouched.registry]
      exact hPaired
    · rw [hTouched.pages]
      exact hPlaced hOpen.symm

end Pairing.Session

namespace Application

variable (a : Application)

@[simp] theorem scene_announceChange
    (u : String) :
    (a.announceChange u).scene = a.scene := by
  unfold announceChange
  split
  · split
    · exact a.scene_onClient _
    · rfl
  · rfl

/-
  A change of a text goes to the pairing if the document is a
  companion.  A document that was held is then cleared.
-/
theorem touches_textChanged
    (u : String) :
    Touches u a.scene (a.textChanged u).scene := by
  unfold textChanged
  dsimp only
  rw [Session.scene_settle]
  split
  · exact .refl _
  · split
    · exact Session.touches_companionEdited a u
    · exact .of_eq (a.scene_announceChange u)

theorem not_decorated_textChanged
    (hAttached : a.scene.attached = true)
    {u : String}
    (hHeld : a.scene.Decorated u →
      a.scene.engine.hasRender u = true ∧
        a.scene.registry.HasCompanion u) :
    ¬ (a.textChanged u).scene.Decorated u := by
  have hFollowed : a.host.attached = true := hAttached
  unfold textChanged
  dsimp only
  rw [Session.scene_settle, if_neg (by simp [hFollowed])]
  split
  next hPaired =>
    exact Session.not_decorated_companionEdited a
      fun h => (hHeld h).1
  next hFree =>
    rw [scene_announceChange]
    intro hDecorated
    rcases (hHeld hDecorated).2 with ⟨pair, hPair, hEq⟩
    have hNone :
        a.registry.pairForCompanion u = none := by
      simpa using hFree
    exact PairRegistry.pairForCompanion_eq_none_iff.mp hNone
      pair hPair hEq

/- A text may change, since decorations go with it. -/
theorem not_decorated_retext
    (hAttached : a.scene.attached = true)
    (hSecure : a.scene.Secure)
    (u : String)
    {f : Editor → Editor}
    (hf : ∀ e, (f e).selections = e.selections) :
    ¬ ((a.withWorkspace
      (a.workspace.onEditor u f)).textChanged
        u).scene.Decorated u := by
  have hEdit := Session.touches_onEditor a u f
  apply not_decorated_textChanged
  · exact hEdit.attached.trans hAttached
  · intro hEdited
    have hWas : a.scene.Decorated u := by
      rcases hEdited with ⟨d, hd, hSelections⟩
      rcases Session.get?_edited hd with ⟨x, hx, rfl⟩
      rw [hf] at hSelections
      exact ⟨x, hx, hSelections⟩
    exact ⟨(hSecure u hWas).rendered, (hSecure u hWas).paired⟩

end Application

end StyleCompanion
