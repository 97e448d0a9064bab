import StyleCompanion.Proofs.Pairing.Closing

/-
  What is left alone.

  A primary and a companion are untouched by an operation if
  their pair, their opening, their model, their view and their
  places are the same afterwards, and nothing was painted on
  the companion.  Every small operation of a session leaves
  those alone that it is not about.

  Main declarations:
    * `Desk.PaintsElsewhere`
    * `Session.Untouched`
    * `Session.untouched_dropPair`
    * `Session.untouched_refreshAndRender`
-/

namespace StyleCompanion

namespace Overlay

/- The view that an effect is about, if there is one. -/
def Effect.view? : Effect → Option String
  | .log _ => none
  | .clear view => some view
  | .paint view _ _ => some view
  | .rendered view _ => some view

/- A render asks for nothing on another view. -/
theorem Engine.view?_of_mem_render
    {e : Engine}
    {view v : String}
    {m : Attribution.Model}
    {count : Option Int}
    {effect : Effect}
    (hv : v ≠ view)
    (h : effect ∈ (e.render view m count).2.1) :
    effect.view? ≠ some v := by
  have hOther : some view ≠ some v :=
    fun hEq => hv (Option.some.inj hEq).symm
  have hNone : none ≠ some v := (Option.some_ne_none v).symm
  cases count with
  | none =>
      rw [List.mem_singleton.mp h]
      exact hNone
  | some n =>
      rcases List.mem_append.mp h with hPaint | hLegend
      · rcases List.mem_append.mp hPaint with hLog | hPaint
        · rcases List.mem_map.mp hLog with ⟨record, -, rfl⟩
          exact hNone
        · rcases List.mem_cons.mp hPaint with rfl | hPaint
          · exact hOther
          · rcases List.mem_map.mp hPaint with ⟨p, -, rfl⟩
            exact hOther
      · rw [List.mem_singleton.mp hLegend]
        exact hOther

end Overlay

namespace Pairing

open Attribution

----
-- What is painted elsewhere
----

namespace Desk

/- All that was painted in between is on other views. -/
def PaintsElsewhere
    (view : String)
    (d e : Desk) : Prop :=
  ∃ effects,
    e.painted = d.painted ++ effects ∧
      ∀ effect ∈ effects, effect.view? ≠ some view

variable {view : String} {d e f : Desk}

theorem paintsElsewhere_of_eq
    (h : e.painted = d.painted) :
    PaintsElsewhere view d e := by
  refine ⟨[], ?_, ?_⟩
  · rw [h, List.append_nil]
  · intro effect hEffect
    cases hEffect

theorem PaintsElsewhere.trans
    (h : PaintsElsewhere view d e)
    (k : PaintsElsewhere view e f) :
    PaintsElsewhere view d f := by
  rcases h with ⟨first, hFirst, hElsewhere⟩
  rcases k with ⟨second, hSecond, hStill⟩
  refine ⟨first ++ second, ?_, ?_⟩
  · rw [hSecond, hFirst, List.append_assoc]
  · intro effect hEffect
    rcases List.mem_append.mp hEffect with hOld | hNew
    · exact hElsewhere effect hOld
    · exact hStill effect hNew

theorem paintsElsewhere_decorate
    {effects : List Overlay.Effect}
    (h : ∀ effect ∈ effects, effect.view? ≠ some view)
    (d : Desk) :
    PaintsElsewhere view d
      (effects.foldl Host.decorate d) := by
  induction effects generalizing d with
  | nil => exact paintsElsewhere_of_eq rfl
  | cons effect effects ih =>
      rw [List.forall_mem_cons] at h
      have hStep :
          PaintsElsewhere view d (Host.decorate d effect) := by
        cases effect with
        | log _ => exact paintsElsewhere_of_eq rfl
        | rendered _ _ => exact paintsElsewhere_of_eq rfl
        | clear _ =>
            exact ⟨_, rfl, List.forall_mem_singleton.mpr h.1⟩
        | paint _ _ _ =>
            exact ⟨_, rfl, List.forall_mem_singleton.mpr h.1⟩
      exact hStep.trans (ih h.2 _)

/- Moving documents paints nothing. -/
theorem painted_onShelf
    (d : Desk)
    (region : Region)
    (change : Shelf → Shelf) :
    (d.onShelf region change).painted = d.painted := by
  cases region <;> rfl

theorem painted_takeOut
    (d : Desk)
    (uri : String) :
    (d.takeOut uri).painted = d.painted := by
  unfold takeOut
  split
  · rfl
  · exact painted_onShelf d _ _

theorem painted_close
    (d : Desk)
    (uri : String) :
    (d.close uri).host.painted = d.painted := by
  have hOut := painted_takeOut (d.note (.close uri)) uri
  unfold close
  dsimp only
  split
  · exact hOut
  · exact hOut

theorem painted_refresh
    {d e : Desk}
    {uri : String}
    {edited : Bool}
    (h : d.refresh uri = .done e edited) :
    e.painted = d.painted := by
  unfold refresh at h
  dsimp only at h
  split at h
  · cases h
    rfl
  · cases h
    rfl

end Desk

namespace Session

----
-- What is left alone
----

/-
  A primary and a companion are left alone: the pair and the
  opening of the one, the model, the view and the places of
  the other, on which nothing was painted.
-/
structure Untouched
    (q d : String)
    (s t : Session Desk) : Prop where
  pair :
    t.registry.pairForPrimary q = s.registry.pairForPrimary q
  pending :
    t.registry.pendingFor q = s.registry.pendingFor q
  model : Table.get? t.models d = Table.get? s.models d
  view :
    Table.get? t.engine.views d = Table.get? s.engine.views d
  primary :
    t.host.primary.documents.count d =
      s.host.primary.documents.count d
  secondary :
    t.host.secondary.documents.count d =
      s.host.secondary.documents.count d
  painted : Desk.PaintsElsewhere d s.host t.host

namespace Untouched

variable {q d c : String} {s t u : Session Desk}

theorem trans
    (h : s.Untouched q d t)
    (k : t.Untouched q d u) :
    s.Untouched q d u where
  pair := k.pair.trans h.pair
  pending := k.pending.trans h.pending
  model := k.model.trans h.model
  view := k.view.trans h.view
  primary := k.primary.trans h.primary
  secondary := k.secondary.trans h.secondary
  painted := h.painted.trans k.painted

/- What concerns another document, and no pair. -/
theorem of_sameBut
    (hSame : SameBut c s t)
    (hc : d ≠ c)
    (hRegistry :
      t.registry.pairForPrimary q =
          s.registry.pairForPrimary q ∧
        t.registry.pendingFor q = s.registry.pendingFor q)
    (hPainted : Desk.PaintsElsewhere d s.host t.host) :
    s.Untouched q d t where
  pair := hRegistry.1
  pending := hRegistry.2
  model := hSame.models d hc
  view := hSame.views d hc
  primary := hSame.host.primary d hc
  secondary := hSame.host.secondary d hc
  painted := hPainted

/- A desk that differs in another document. -/
theorem of_desk
    {desk : Desk}
    (hSame : Desk.SameBut c s.host desk)
    (hc : d ≠ c)
    (hPainted : desk.painted = s.host.painted) :
    s.Untouched q d { s with host := desk } :=
  of_sameBut (SameBut.ofHost hSame) hc ⟨rfl, rfl⟩
    (Desk.paintsElsewhere_of_eq hPainted)

/- A companion that is present stays so. -/
theorem present
    (h : s.Untouched q d t)
    (hPresent : d ∈ s.host.secondary.documents) :
    d ∈ t.host.secondary.documents := by
  rw [← List.count_pos_iff] at hPresent ⊢
  rw [h.secondary]
  exact hPresent

end Untouched

variable {q d c : String} (s : Session Desk)

theorem untouched_refl :
    s.Untouched q d s :=
  ⟨rfl, rfl, rfl, rfl, rfl, rfl,
    Desk.paintsElsewhere_of_eq rfl⟩

theorem untouched_log
    (r : LogRecord) :
    s.Untouched q d (s.log r) :=
  ⟨rfl, rfl, rfl, rfl, rfl, rfl,
    Desk.paintsElsewhere_of_eq rfl⟩

theorem untouched_keepModel
    (hc : d ≠ c)
    (m : Model) :
    s.Untouched q d (s.keepModel c m) :=
  .of_sameBut (s.sameBut_keepModel c m) hc ⟨rfl, rfl⟩
    (Desk.paintsElsewhere_of_eq rfl)

theorem untouched_dropModel
    (hc : d ≠ c) :
    s.Untouched q d (s.dropModel c) :=
  .of_sameBut (s.sameBut_dropModel c) hc ⟨rfl, rfl⟩
    (Desk.paintsElsewhere_of_eq rfl)

/- The pair of another primary ends. -/
theorem untouched_dropPair
    {pair : DocumentPair}
    (hPrimary : pair.primary ≠ q)
    (hCompanion : d ≠ pair.companion) :
    s.Untouched q d (s.dropPair pair) := by
  apply Untouched.of_sameBut (s.sameBut_dropPair pair) hCompanion
  · refine ⟨?_, rfl⟩
    exact (Table.get?_erase _ pair.primary q).trans
      (if_neg hPrimary)
  · exact Desk.paintsElsewhere_of_eq rfl

/- The pair of another primary is registered. -/
theorem untouched_register
    {p : String}
    (hPrimary : p ≠ q)
    (c : String) :
    s.Untouched q d (s.register p c) where
  pair :=
    (Table.get?_insert _ p q _).trans (if_neg hPrimary)
  pending := rfl
  model := rfl
  view := rfl
  primary := rfl
  secondary := rfl
  painted := Desk.paintsElsewhere_of_eq rfl

/- The opening of another primary is given up. -/
theorem untouched_withoutPending
    {p : String}
    (hPrimary : p ≠ q) :
    s.Untouched q d (s.withoutPending p) where
  pair := rfl
  pending :=
    (Table.get?_erase _ p q).trans (if_neg hPrimary)
  model := rfl
  view := rfl
  primary := rfl
  secondary := rfl
  painted := Desk.paintsElsewhere_of_eq rfl

theorem untouched_render
    (hc : d ≠ c)
    (m : Model) :
    s.Untouched q d (s.render c m) := by
  apply Untouched.of_sameBut (s.sameBut_render c m) hc
  · exact ⟨rfl, rfl⟩
  · apply Desk.paintsElsewhere_decorate
    intro effect hEffect
    exact Overlay.Engine.view?_of_mem_render hc hEffect

theorem untouched_clearView
    (hc : d ≠ c) :
    s.Untouched q d (s.clearView c) := by
  apply Untouched.of_sameBut (s.sameBut_clearView c) hc
  · exact ⟨rfl, rfl⟩
  · apply Desk.paintsElsewhere_decorate
    intro effect hEffect
    unfold Overlay.Engine.clear at hEffect
    dsimp only at hEffect
    split at hEffect
    · cases hEffect
    · rw [List.mem_singleton.mp hEffect]
      intro hEq
      exact hc (Option.some.inj hEq).symm

theorem untouched_companionEdited
    (hc : d ≠ c) :
    s.Untouched q d (s.companionEdited c) := by
  unfold companionEdited
  split
  · exact s.untouched_refl
  · exact ((s.untouched_log _).trans
      (untouched_dropModel _ hc)).trans
        (untouched_clearView _ hc)

/- Another companion is read again and rendered. -/
theorem untouched_refreshAndRender
    (hc : d ≠ c)
    (m : Model) :
    s.Untouched q d (s.refreshAndRender c m).1 := by
  rcases s.host.refresh_eq c with
    ⟨desk, edited, hRefresh, hSame, -, -⟩
  have hRead : s.Untouched q d { s with host := desk } :=
    .of_desk hSame hc (Desk.painted_refresh hRefresh)
  rw [refreshAndRender_done s c hRefresh]
  refine Untouched.trans ?_ (untouched_render _ hc m)
  refine Untouched.trans ?_ (untouched_keepModel _ hc m)
  split
  · exact hRead.trans (untouched_companionEdited _ hc)
  · exact hRead

theorem untouched_shut
    (hc : d ≠ c) :
    s.Untouched q d (s.shut c) :=
  .of_desk (s.host.sameBut_close c) hc (s.host.painted_close c)

/- Bringing a document forward moves none. -/
theorem untouched_reveal
    (uri : String)
    (region : Region) :
    s.Untouched q d
      { s with host := Host.reveal s.host uri region } := by
  have hShelf :
      ∀ (desk : Desk) (r : Region),
        (desk.onShelf r fun shelf =>
            { shelf with
              active := some uri }).primary.documents =
            desk.primary.documents ∧
          (desk.onShelf r fun shelf =>
            { shelf with
              active := some uri }).secondary.documents =
            desk.secondary.documents := by
    intro desk r
    cases r <;> exact ⟨rfl, rfl⟩
  change s.Untouched q d
    { s with host := s.host.reveal uri region }
  unfold Desk.reveal
  dsimp only
  split
  next =>
    exact ⟨rfl, rfl, rfl, rfl, rfl, rfl,
      Desk.paintsElsewhere_of_eq rfl⟩
  next r _ =>
    rcases hShelf (s.host.note (.reveal uri region)) r with
      ⟨hPrimary, hSecondary⟩
    exact ⟨rfl, rfl, rfl, rfl,
      congrArg (List.count d) hPrimary,
      congrArg (List.count d) hSecondary,
      Desk.paintsElsewhere_of_eq
        (Desk.painted_onShelf _ r _)⟩

end Session

end Pairing

end StyleCompanion
