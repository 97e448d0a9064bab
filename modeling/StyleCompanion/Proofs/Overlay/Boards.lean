import StyleCompanion.Overlay.Board
import StyleCompanion.Proofs.Overlay.Engines

/-
  The overlay over whole runs of a board.

  Views come, go and change their length between operations of
  the overlay.  After any run the colours of every view that
  is held are those of its model under the present palette,
  and its legend is complete.  A change of the palette that is
  refused, or is no change, does nothing at all.

  Main declarations:
    * `Board.step_setPaletteSize_eq`
    * `Board.paletteSize_step`
    * `Board.modelFor_setPaletteSize`
    * `Board.consistent_step`
    * `Board.consistent_run`
    * `Board.runs_stay_consistent`
-/

namespace StyleCompanion

namespace Overlay

open Attribution

namespace Board

variable {b : Board}

----
-- Changes of the palette
----

theorem after_self
    (b : Board) :
    b.after b.engine [] = b := by
  rw [after, List.append_nil]

/-
  A size that is refused, or is the present one, leaves the
  engine and its views alone.
-/
theorem step_setPaletteSize_eq
    {x : Json}
    (h :
      (∃ failure,
        (b.step (.setPaletteSize x)).2 = .error failure) ∨
      (b.step (.setPaletteSize x)).1.engine.paletteSize =
        b.engine.paletteSize) :
    (b.step (.setPaletteSize x)).1 = b := by
  unfold step at h ⊢
  dsimp only at h ⊢
  cases hSize : readPaletteSize x with
  | error failure => rfl
  | ok size =>
      rw [hSize] at h
      have hSame : size = b.engine.paletteSize := by
        rcases h with ⟨failure, hFailed⟩ | hSame
        · cases hFailed
        · exact (Engine.paletteSize_setPaletteSize ..).symm.trans
            hSame
      dsimp only
      rw [Engine.setPaletteSize, if_pos hSame]
      exact b.after_self

/- A size that can be read is the size from then on. -/
theorem paletteSize_step
    {x : Json}
    {size : Nat}
    (h : readPaletteSize x = .ok size) :
    (b.step (.setPaletteSize x)).1.engine.paletteSize = size := by
  unfold step
  dsimp only
  rw [h]
  exact Engine.paletteSize_setPaletteSize b.engine b.count size

/-
  Under a new size the views that are still there keep their
  models, and the others are no longer held.
-/
theorem modelFor_setPaletteSize
    (h : b.engine.Consistent)
    {x : Json}
    (hSize :
      (b.step (.setPaletteSize x)).1.engine.paletteSize ≠
        b.engine.paletteSize)
    (view : String) :
    (b.step (.setPaletteSize x)).1.engine.modelFor view =
      (b.count view).bind fun _ => b.engine.modelFor view := by
  unfold step at hSize ⊢
  dsimp only at hSize ⊢
  cases hRead : readPaletteSize x with
  | error failure =>
      rw [hRead] at hSize
      exact absurd rfl hSize
  | ok size =>
      rw [hRead] at hSize
      have hOther : size ≠ b.engine.paletteSize := by
        rw [← Engine.paletteSize_setPaletteSize b.engine b.count
          size]
        exact hSize
      change Option.map _ (Table.get?
        (b.engine.setPaletteSize b.count size).1.views view) = _
      rw [Engine.get?_views_setPaletteSize h.keys b.count hOther,
        Engine.modelFor]
      cases Table.get? b.engine.views view <;>
        cases b.count view <;> rfl

----
-- Runs
----

/- One event keeps the engine consistent. -/
theorem consistent_step
    (h : b.engine.Consistent)
    {event : Event}
    (hBuilt : ∀ view m, event = .render view m → m.Built) :
    (b.step event).1.engine.Consistent := by
  cases event with
  | setCount view count => exact h
  | render view m =>
      exact h.render view (hBuilt view m rfl) (b.count view)
  | clear view => exact h.forget view
  | forget view => exact h.forget view
  | setPaletteSize x =>
      unfold step
      dsimp only
      cases readPaletteSize x with
      | error failure => exact h
      | ok size => exact h.setPaletteSize b.count size

theorem consistent_run
    (h : b.engine.Consistent)
    {events : List Event}
    (hBuilt :
      ∀ view m, Event.render view m ∈ events → m.Built) :
    (b.run events).engine.Consistent := by
  induction events generalizing b with
  | nil => exact h
  | cons event events ih =>
      refine ih (consistent_step h ?_) ?_
      · rintro view m rfl
        exact hBuilt view m List.mem_cons_self
      · intro view m hMem
        exact hBuilt view m (List.mem_cons_of_mem _ hMem)

/-
  After any run every view that is held has the colours of its
  model under the present palette and a complete legend.  A
  size that is refused or is the present one changes nothing;
  any other is taken over, and the views that are there keep
  their models.
-/
theorem runs_stay_consistent
    (size : Nat)
    (events : List Event)
    (hBuilt :
      ∀ view m, Event.render view m ∈ events → m.Built) :
    let b := (Board.new size).run events
    (∀ view m, b.engine.modelFor view = some m →
      b.engine.assignmentFor view =
          some (.assign m b.engine.paletteSize) ∧
        ListsOwners m b.engine.paletteSize
          (b.engine.legend view)) ∧
    ∀ x, let c := b.step (.setPaletteSize x)
      ((∃ failure, c.2 = .error failure) ∨
          c.1.engine.paletteSize = b.engine.paletteSize →
        c.1 = b) ∧
      (∀ n, readPaletteSize x = .ok n →
        c.1.engine.paletteSize = n) ∧
      (c.1.engine.paletteSize ≠ b.engine.paletteSize →
        ∀ view, c.1.engine.modelFor view =
          (b.count view).bind fun _ =>
            b.engine.modelFor view) := by
  intro b
  have hConsistent : b.engine.Consistent :=
    consistent_run (Engine.consistent_new size) hBuilt
  refine ⟨fun view m hModel => ?_, fun x => ⟨?_, ?_, ?_⟩⟩
  · rcases Option.map_eq_some_iff.mp hModel with ⟨w, hw, rfl⟩
    rcases hConsistent.held view w hw with ⟨hw', hFresh⟩
    constructor
    · rw [Engine.assignmentFor, hw, Option.map_some]
      exact congrArg (fun v : View => some v.assignment) hFresh
    · rw [Engine.legend, hw]
      dsimp only
      rw [hFresh]
      exact listsOwners_legend hw' _
  · exact step_setPaletteSize_eq
  · exact fun n => paletteSize_step
  · exact modelFor_setPaletteSize hConsistent

/- A model of one line with one owner. -/
def oneLine : Model :=
  let lines : List LineRecord := [⟨0, some 1⟩]
  ⟨⟨[⟨1, "", ""⟩]⟩, [], lines,
    Model.indexOwners lines, Model.indexDeclarations []⟩

/- Two views are rendered, and then one of them vanishes. -/
def vanishing : List Event :=
  [.setCount "a.css" (some 1), .render "a.css" oneLine,
    .setCount "b.css" (some 1), .render "b.css" oneLine,
    .setCount "b.css" none]

/- The vanished view is held until the palette changes. -/
theorem vanished_view_stays_consistent :
    (∀ view m, Event.render view m ∈ vanishing → m.Built) ∧
    let b := (Board.new 4).run vanishing
    b.engine.assignmentFor "b.css" =
        some (.assign oneLine 4) ∧
      ListsOwners oneLine 4 (b.engine.legend "b.css") ∧
      (b.step (.setPaletteSize (.int 0))).1 = b ∧
      let c := (b.step (.setPaletteSize (.int 2))).1
      c.engine.modelFor "a.css" = some oneLine ∧
        c.engine.modelFor "b.css" = none := by
  have hBuilt :
      ∀ view m, Event.render view m ∈ vanishing → m.Built := by
    intro view m hMem
    have hModel : m = oneLine := by
      simp only [vanishing, List.mem_cons, Event.render.injEq,
        reduceCtorEq, false_or, or_false, List.not_mem_nil]
        at hMem
      rcases hMem with hMem | hMem
      · exact hMem.2
      · exact hMem.2
    rw [hModel]
    exact ⟨oneLine.sources, [], oneLine.lines, rfl⟩
  rcases runs_stay_consistent 4 vanishing hBuilt with
    ⟨hHeld, hPalette⟩
  rcases hHeld "b.css" oneLine (by decide) with
    ⟨hColors, hLegend⟩
  rcases hPalette (.int 2) with ⟨-, hSize, hModels⟩
  have hKept := hModels (by rw [hSize 2 rfl]; decide)
  exact ⟨hBuilt, hColors, hLegend,
    (hPalette (.int 0)).1 (.inl ⟨_, rfl⟩),
    hKept "a.css", hKept "b.css"⟩

end Board

end Overlay

end StyleCompanion
