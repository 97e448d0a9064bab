import StyleCompanion.Proofs.Overlay.Colors

/-
  The views that an engine holds.

  A render concerns its own view, and a change of the palette
  renders every view that is held.  The engine is consistent
  if the colours of every view are those of its model under
  the present palette.  All its operations keep this, also
  when views have gone or changed their length meanwhile.

  Main declarations:
    * `Engine.get?_views_render_eq`
    * `Engine.get?_views_renderAll`
    * `Engine.Consistent`
    * `Engine.Consistent.render`
    * `Engine.Consistent.setPaletteSize`
    * `ListsOwners`
    * `listsOwners_legend`
-/

namespace StyleCompanion

namespace Overlay

open Attribution

namespace Engine

----
-- What a render changes
----

/- What a view holds after it was rendered. -/
def fresh
    (m : Model)
    (size : Nat) : View :=
  ⟨m, .assign m size⟩

theorem get?_views_render_eq
    (e : Engine)
    (view : String)
    (m : Model)
    (count : Option Int)
    (v : String) :
    Table.get? (e.render view m count).1.views v =
      if view = v then
        count.map fun _ => fresh m e.paletteSize
      else Table.get? e.views v := by
  cases count with
  | none => exact Table.get?_erase e.views view v
  | some n => exact Table.get?_insert e.views view v _

/- A render concerns its own view. -/
theorem get?_views_render
    (e : Engine)
    (m : Model)
    (count : Option Int)
    {view v : String}
    (hv : v ≠ view) :
    Table.get? (e.render view m count).1.views v =
      Table.get? e.views v := by
  rw [get?_views_render_eq, if_neg (Ne.symm hv)]

/- A view that exists holds the model it was rendered with. -/
theorem modelFor_render
    (e : Engine)
    (view : String)
    (m : Model)
    (count : Option Int) :
    (e.render view m count).1.modelFor view =
      count.map fun _ => m := by
  rw [modelFor, get?_views_render_eq, if_pos rfl, Option.map_map]
  rfl

@[simp] theorem paletteSize_render
    (e : Engine)
    (view : String)
    (m : Model)
    (count : Option Int) :
    (e.render view m count).1.paletteSize = e.paletteSize := by
  cases count <;> rfl

theorem nodup_keys_render
    {e : Engine}
    (hKeys : (Table.keys e.views).Nodup)
    (view : String)
    (m : Model)
    (count : Option Int) :
    (Table.keys (e.render view m count).1.views).Nodup := by
  cases count with
  | none =>
      exact hKeys.sublist ((Table.erase_sublist _ _).map _)
  | some n => exact Table.nodup_keys_insert hKeys view _

/- A render adds no view but its own. -/
theorem mem_keys_render
    {e : Engine}
    {view v : String}
    {m : Model}
    {count : Option Int}
    (h : v ∈ Table.keys (e.render view m count).1.views) :
    v = view ∨ v ∈ Table.keys e.views := by
  cases count with
  | none => exact Or.inr (Table.mem_keys_erase.mp h).1
  | some n => exact Table.mem_keys_insert.mp h

----
-- What a change of the palette changes
----

theorem mem_keys_renderAll
    {e : Engine}
    {counts : String → Option Int}
    {views : List (String × View)}
    {v : String}
    (h : v ∈ Table.keys (e.renderAll counts views).1.views) :
    v ∈ Table.keys views ∨ v ∈ Table.keys e.views := by
  induction views generalizing e with
  | nil => exact Or.inr h
  | cons entry rest ih =>
      rcases entry with ⟨view, w⟩
      rw [Table.keys_cons, List.mem_cons, or_assoc, or_comm,
        or_assoc]
      rcases ih h with hRest | hFirst
      · exact Or.inl hRest
      · exact Or.inr (mem_keys_render hFirst).symm

/- Another palette adds no view. -/
theorem mem_keys_setPaletteSize
    {e : Engine}
    {counts : String → Option Int}
    {size : Nat}
    {v : String}
    (h :
      v ∈ Table.keys (e.setPaletteSize counts size).1.views) :
    v ∈ Table.keys e.views := by
  unfold setPaletteSize at h
  split at h
  · exact h
  · rcases mem_keys_renderAll h with hView | hView
    · exact hView
    · exact hView

@[simp] theorem paletteSize_renderAll
    (e : Engine)
    (counts : String → Option Int)
    (views : List (String × View)) :
    (e.renderAll counts views).1.paletteSize = e.paletteSize := by
  induction views generalizing e with
  | nil => rfl
  | cons entry rest ih =>
      exact (ih _).trans (paletteSize_render _ _ _ _)

theorem nodup_keys_renderAll
    {e : Engine}
    (hKeys : (Table.keys e.views).Nodup)
    (counts : String → Option Int)
    (views : List (String × View)) :
    (Table.keys (e.renderAll counts views).1.views).Nodup := by
  induction views generalizing e with
  | nil => exact hKeys
  | cons entry rest ih =>
      exact ih (nodup_keys_render hKeys _ _ _)

/-
  Each of the views is rendered anew if it is still there, and
  the others are left as they are.
-/
theorem get?_views_renderAll
    (e : Engine)
    (counts : String → Option Int)
    {views : Table String View}
    (hKeys : (Table.keys views).Nodup)
    (v : String) :
    Table.get? (e.renderAll counts views).1.views v =
      match Table.get? views v with
      | none => Table.get? e.views v
      | some w =>
          (counts v).map fun _ => fresh w.model e.paletteSize := by
  induction views generalizing e with
  | nil => rfl
  | cons entry rest ih =>
      rcases entry with ⟨view, w⟩
      rw [Table.keys_cons, List.nodup_cons] at hKeys
      have hRest := ih
        (e.render view w.model (counts view)).1 hKeys.2
      rw [get?_views_render_eq, paletteSize_render] at hRest
      refine hRest.trans ?_
      rw [Table.get?]
      by_cases hView : view = v
      · subst hView
        rw [Table.get?_eq_none_iff.mpr hKeys.1, if_pos rfl,
          if_pos rfl]
      · rw [if_neg hView, if_neg hView]

/- A different size renders all views of an engine anew. -/
theorem get?_views_setPaletteSize
    {e : Engine}
    (hKeys : (Table.keys e.views).Nodup)
    (counts : String → Option Int)
    {size : Nat}
    (hSize : size ≠ e.paletteSize)
    (v : String) :
    Table.get? (e.setPaletteSize counts size).1.views v =
      (Table.get? e.views v).bind fun w =>
        (counts v).map fun _ => fresh w.model size := by
  rw [setPaletteSize, if_neg hSize,
    get?_views_renderAll _ counts hKeys]
  cases Table.get? e.views v with
  | none => rfl
  | some w => rfl

theorem paletteSize_setPaletteSize
    (e : Engine)
    (counts : String → Option Int)
    (size : Nat) :
    (e.setPaletteSize counts size).1.paletteSize = size := by
  unfold setPaletteSize
  split
  next hSame => exact hSame.symm
  next => exact paletteSize_renderAll _ _ _

----
-- Consistency
----

/-
  Every view is held once, with a model that was built and its
  colours under the present palette.
-/
structure Consistent
    (e : Engine) : Prop where
  keys : (Table.keys e.views).Nodup
  held : ∀ v w, Table.get? e.views v = some w →
    w.model.Built ∧ w = fresh w.model e.paletteSize

theorem consistent_new
    (size : Nat) :
    (new size).Consistent :=
  ⟨List.nodup_nil, fun _ _ h => (nomatch h)⟩

namespace Consistent

variable {e : Engine}

theorem forget
    (h : e.Consistent)
    (view : String) :
    (e.forget view).Consistent := by
  refine ⟨h.keys.sublist ((Table.erase_sublist _ _).map _), ?_⟩
  intro v w hv
  have hOld : Table.get? (Table.erase e.views view) v = some w :=
    hv
  rw [Table.get?_erase] at hOld
  split at hOld
  next => cases hOld
  next => exact h.held v w hOld

theorem render
    (h : e.Consistent)
    (view : String)
    {m : Model}
    (hBuilt : m.Built)
    (count : Option Int) :
    (e.render view m count).1.Consistent := by
  refine ⟨nodup_keys_render h.keys view m count, ?_⟩
  intro v w hv
  rw [get?_views_render_eq] at hv
  rw [paletteSize_render]
  split at hv
  next =>
    rcases Option.map_eq_some_iff.mp hv with ⟨n, -, rfl⟩
    exact ⟨hBuilt, rfl⟩
  next => exact h.held v w hv

theorem setPaletteSize
    (h : e.Consistent)
    (counts : String → Option Int)
    (size : Nat) :
    (e.setPaletteSize counts size).1.Consistent := by
  by_cases hSize : size = e.paletteSize
  · rw [Engine.setPaletteSize, if_pos hSize]
    exact h
  · refine ⟨?_, fun v w hv => ?_⟩
    · rw [Engine.setPaletteSize, if_neg hSize]
      exact nodup_keys_renderAll
        (e := { e with paletteSize := size }) h.keys _ _
    · rw [get?_views_setPaletteSize h.keys counts hSize,
        Option.bind_eq_some_iff] at hv
      rcases hv with ⟨x, hx, hMap⟩
      rcases Option.map_eq_some_iff.mp hMap with ⟨n, -, rfl⟩
      rw [paletteSize_setPaletteSize]
      exact ⟨(h.held v x hx).1, rfl⟩

end Consistent

end Engine

----
-- Legends
----

/-
  A legend has one row for each owner of a line, in the order
  in which they first come, with its slot and its source.
-/
def ListsOwners
    (m : Model)
    (size : Nat)
    (rows : List LegendRow) : Prop :=
  ∃ owners,
    FirstSeen (m.lines.filterMap (·.ownerId)) owners ∧
      List.Forall₂
        (fun owner row =>
          (ColorAssignment.assign m size).slotFor owner =
              some row.1 ∧
            m.source? (some owner) = some row.2)
        owners rows

theorem forall₂_filterMap
    {α β : Type}
    {f : α → Option β}
    {R : α → β → Prop}
    {xs : List α}
    (h : ∀ x ∈ xs, ∃ y, f x = some y ∧ R x y) :
    List.Forall₂ R xs (xs.filterMap f) := by
  induction xs with
  | nil => exact .nil
  | cons x xs ih =>
      rw [List.forall_mem_cons] at h
      rcases h.1 with ⟨y, hy, hRel⟩
      rw [List.filterMap_cons_some hy]
      exact .cons hRel (ih h.2)

/- The legend of a view that was rendered lists its owners. -/
theorem listsOwners_legend
    {m : Model}
    (hBuilt : m.Built)
    (size : Nat) :
    ListsOwners m size (Engine.fresh m size).legend := by
  refine ⟨m.ownerIds, firstSeen_spec _, ?_⟩
  have hOwners : m.ownerIds =
      (ColorAssignment.assign m size).slots.map (·.1) :=
    (ColorAssignment.keys_slotsOf m.ownerIds size).symm
  rw [hOwners, List.forall₂_map_left_iff]
  refine forall₂_filterMap ?_
  intro p hp
  have hOwner : p.1 ∈ m.ownerIds := by
    rw [hOwners]
    exact List.mem_map_of_mem hp
  rcases hBuilt.exists_source hOwner with ⟨s, hs⟩
  refine ⟨(p.2, s), ?_, ?_, hs⟩
  · change (m.source? (some p.1)).map _ = _
    rw [hs]
    rfl
  · refine Table.get?_of_mem ?_ hp
    rw [Table.keys, ← hOwners]
    exact (firstSeen_spec _).nodup

end Overlay

end StyleCompanion
