import Mathlib.Data.List.Perm.Basic
import StyleCompanion.Proofs.Application.Scene

/-
  The two stores of a workspace agree.

  Open documents are kept twice: in the table of documents and
  on the tabs of the regions.  A workspace is orderly if each
  page of a region is an open document of that region and the
  other way round, if no page comes twice, and if the current
  and the active documents are there.

  Most operations only shuffle a workspace.  They choose other
  current and active documents or work on editors, and leave
  all documents where they are.

  Main declarations:
    * `Workspace.Orderly`
    * `Workspace.Orderly.perm_keys`
    * `Workspace.Shuffles`
    * `Workspace.Shuffles.orderly`
    * `Workspace.Orderly.add`
    * `Workspace.Orderly.remove`
-/

namespace StyleCompanion

open Pairing
open Workspace (Document Editor Tabs)

----
-- Tables
----

/- A value that is replaced leaves the keys as they are. -/
theorem Table.keys_insert_of_mem
    {α β : Type}
    [DecidableEq α]
    {t : Table α β}
    {k : α}
    (h : k ∈ keys t)
    (v : β) :
    keys (insert t k v) = keys t := by
  induction t with
  | nil => cases h
  | cons e rest ih =>
      rcases e with ⟨l, w⟩
      unfold insert
      split
      next hEq => rw [keys_cons, keys_cons, hEq]
      next hNe =>
        have hRest : k ∈ keys rest :=
          (List.mem_cons.mp h).resolve_left (Ne.symm hNe)
        rw [keys_cons, keys_cons, ih hRest]

namespace Workspace

----
-- Tabs
----

namespace Tabs

/- The page that follows is another one. -/
theorem successor_mem_erase
    {pages : List String}
    {u v : String}
    (hNodup : pages.Nodup)
    (hMem : u ∈ pages)
    (h : successor pages u = some v) :
    v ∈ pages.erase u := by
  have hIndex : pages[pages.idxOf u]? = some u :=
    List.getElem?_idxOf hMem
  -- The neighbour stands at another index, so it is not `u`.
  have hOther : ∀ j, j ≠ pages.idxOf u → pages[j]? = some v →
      v ∈ pages.erase u := by
    intro j hj hFound
    refine hNodup.mem_erase_iff.mpr
      ⟨?_, List.mem_of_getElem? hFound⟩
    rintro rfl
    have hLt : j < pages.length :=
      (List.getElem?_eq_some_iff.mp hFound).1
    exact hj ((List.getElem?_inj hLt hNodup).mp
      (hFound.trans hIndex.symm))
  unfold successor at h
  dsimp only at h
  split at h
  next next hNext =>
    cases h
    exact hOther _ (by omega) hNext
  next =>
    split at h
    next => cases h
    next hPos => exact hOther _ (by omega) h

/- What is left of the tabs when a page goes. -/
theorem pages_remove
    (t : Tabs)
    (u : String) :
    (t.remove u).1.pages = t.pages.erase u := by
  unfold remove
  split
  · rfl
  next hOut => exact (List.erase_of_not_mem hOut).symm

theorem current_remove
    {t : Tabs}
    {u v : String}
    (hNodup : t.pages.Nodup)
    (hCurrent : ∀ x, t.current = some x → x ∈ t.pages)
    (h : (t.remove u).1.current = some v) :
    v ∈ (t.remove u).1.pages := by
  rw [pages_remove]
  unfold remove at h
  split at h
  next hMem =>
    dsimp only at h
    split at h
    next => exact successor_mem_erase hNodup hMem h
    next hNe =>
      have hOther : v ≠ u := by
        rintro rfl
        exact hNe h
      exact (List.mem_erase_of_ne hOther).mpr (hCurrent v h)
  next hOut =>
    rw [List.erase_of_not_mem hOut]
    exact hCurrent v h

end Tabs

----
-- Orderly workspaces
----

variable {w v : Workspace} {u : String}

theorem isOpen_eq_isSome_regionOf
    (w : Workspace)
    (u : String) :
    w.isOpen u = (w.regionOf u).isSome := by
  unfold isOpen regionOf Table.contains
  rw [Option.isSome_map]

theorem isOpen_of_regionOf
    {region : Region}
    (h : w.regionOf u = some region) :
    w.isOpen u = true := by
  rw [isOpen_eq_isSome_regionOf, h]
  rfl

theorem exists_regionOf
    (h : w.isOpen u = true) :
    ∃ region, w.regionOf u = some region := by
  rw [isOpen_eq_isSome_regionOf] at h
  exact Option.isSome_iff_exists.mp h

theorem mem_keys_iff_isOpen :
    u ∈ Table.keys w.documents ↔ w.isOpen u = true :=
  Table.contains_iff.symm

@[simp] theorem tabs_setTabs
    (w : Workspace)
    (region other : Region)
    (t : Tabs) :
    (w.setTabs region t).tabs other =
      if region = other then t else w.tabs other := by
  cases region <;> cases other <;> rfl

@[simp] theorem documents_setTabs
    (w : Workspace)
    (region : Region)
    (t : Tabs) :
    (w.setTabs region t).documents = w.documents := by
  cases region <;> rfl

@[simp] theorem active_setTabs
    (w : Workspace)
    (region : Region)
    (t : Tabs) :
    (w.setTabs region t).active = w.active := by
  cases region <;> rfl

/-
  The pages of the regions are the open documents, each where
  its record says, and a current page is one of them.
-/
structure Sorted
    (w : Workspace) : Prop where
  keys : (Table.keys w.documents).Nodup
  nodup : ∀ region, (w.documentsIn region).Nodup
  placed : ∀ region u,
    u ∈ w.documentsIn region ↔ w.regionOf u = some region
  shown : ∀ region u,
    w.shownIn region = some u → u ∈ w.documentsIn region

/- Besides, the active document is open. -/
structure Orderly
    (w : Workspace) : Prop extends Sorted w where
  active : ∀ u, w.active = some u → w.isOpen u = true

theorem orderly_empty : Orderly .empty := by
  refine ⟨⟨List.nodup_nil, ?_, ?_, ?_⟩, ?_⟩
  · intro region
    cases region <;> exact List.nodup_nil
  · intro region u
    have hNone : empty.regionOf u ≠ some region := by
      intro h
      cases h
    cases region <;> exact iff_of_false List.not_mem_nil hNone
  · intro region u h
    cases region <;> cases h
  · intro u h
    cases h

/- No page is on the tabs of both regions. -/
theorem Sorted.isOpen_of_mem
    (h : w.Sorted)
    {region : Region}
    (hMem : u ∈ w.documentsIn region) :
    w.isOpen u = true :=
  isOpen_of_regionOf ((h.placed region u).mp hMem)

theorem Sorted.disjoint
    (h : w.Sorted) :
    (w.documentsIn .primary).Disjoint
      (w.documentsIn .secondary) := by
  intro u hPrimary hSecondary
  have hFirst := (h.placed .primary u).mp hPrimary
  have hSecond := (h.placed .secondary u).mp hSecondary
  rw [hFirst] at hSecond
  cases hSecond

theorem Sorted.nodup_pages
    (h : w.Sorted) :
    (w.documentsIn .primary ++
      w.documentsIn .secondary).Nodup :=
  List.Nodup.append (h.nodup .primary) (h.nodup .secondary)
    h.disjoint

/- The pages of both regions are the documents. -/
theorem Sorted.perm_keys
    (h : w.Sorted) :
    (w.documentsIn .primary ++ w.documentsIn .secondary).Perm
      (Table.keys w.documents) := by
  refine (List.perm_ext_iff_of_nodup h.nodup_pages h.keys).mpr
    fun u => ?_
  rw [List.mem_append, h.placed, h.placed,
    mem_keys_iff_isOpen, isOpen_eq_isSome_regionOf]
  cases w.regionOf u with
  | none => simp
  | some region => cases region <;> simp

----
-- Shuffling
----

/-
  All documents stay where they are.  A current page may be
  another page of its region, and the active document another
  open document.
-/
structure Shuffles
    (w v : Workspace) : Prop where
  keys : Table.keys v.documents = Table.keys w.documents
  regionOf : ∀ u, v.regionOf u = w.regionOf u
  pages : ∀ region, v.documentsIn region = w.documentsIn region
  shown : ∀ region u, v.shownIn region = some u →
    w.shownIn region = some u ∨ u ∈ w.documentsIn region
  active : ∀ u, v.active = some u →
    w.active = some u ∨ w.isOpen u = true

namespace Shuffles

theorem refl
    (w : Workspace) :
    w.Shuffles w :=
  ⟨rfl, fun _ => rfl, fun _ => rfl, fun _ _ => Or.inl,
    fun _ => Or.inl⟩

theorem isOpen
    (h : w.Shuffles v)
    (u : String) :
    v.isOpen u = w.isOpen u := by
  rw [isOpen_eq_isSome_regionOf, isOpen_eq_isSome_regionOf,
    h.regionOf]

theorem trans
    {x : Workspace}
    (h : w.Shuffles v)
    (k : v.Shuffles x) :
    w.Shuffles x where
  keys := k.keys.trans h.keys
  regionOf u := (k.regionOf u).trans (h.regionOf u)
  pages region := (k.pages region).trans (h.pages region)
  shown region u hu := by
    rcases k.shown region u hu with hOld | hPage
    · exact h.shown region u hOld
    · exact Or.inr (h.pages region ▸ hPage)
  active u hu := by
    rcases k.active u hu with hOld | hOpen
    · exact h.active u hOld
    · exact Or.inr (h.isOpen u ▸ hOpen)

theorem sorted
    (h : w.Shuffles v)
    (hSorted : w.Sorted) :
    v.Sorted where
  keys := h.keys ▸ hSorted.keys
  nodup region := by
    rw [h.pages]
    exact hSorted.nodup region
  placed region u := by
    rw [h.pages, h.regionOf]
    exact hSorted.placed region u
  shown region u hu := by
    rw [h.pages]
    rcases h.shown region u hu with hOld | hPage
    · exact hSorted.shown region u hOld
    · exact hPage

theorem orderly
    (h : w.Shuffles v)
    (hOrderly : w.Orderly) :
    v.Orderly where
  toSorted := h.sorted hOrderly.toSorted
  active u hu := by
    rw [h.isOpen]
    rcases h.active u hu with hOld | hOpen
    · exact hOrderly.active u hOld
    · exact hOpen

end Shuffles

/- Tabs with the same pages and another current page. -/
theorem shuffles_setTabs
    (w : Workspace)
    {region : Region}
    {t : Tabs}
    (hPages : t.pages = w.documentsIn region)
    (hShown : ∀ u, t.current = some u →
      w.shownIn region = some u ∨ u ∈ w.documentsIn region) :
    w.Shuffles (w.setTabs region t) where
  keys := by rw [documents_setTabs]
  regionOf u := by
    unfold regionOf
    rw [documents_setTabs]
  pages other := by
    unfold documentsIn at hPages ⊢
    rw [tabs_setTabs]
    split
    next hEq => rw [hPages, hEq]
    next => rfl
  shown other u hu := by
    unfold shownIn at hu
    rw [tabs_setTabs] at hu
    split at hu
    next hEq => exact hEq ▸ hShown u hu
    next => exact Or.inl hu
  active u hu := by
    rw [active_setTabs] at hu
    exact Or.inl hu

theorem shuffles_bringForward
    (w : Workspace)
    (u : String) :
    w.Shuffles (w.bringForward u) := by
  unfold bringForward
  split
  · exact .refl w
  · apply shuffles_setTabs
    · unfold Tabs.bringForward
      split <;> rfl
    · unfold Tabs.bringForward
      intro x hx
      split at hx
      next hMem =>
        cases hx
        exact Or.inr hMem
      next => exact Or.inl hx

theorem shuffles_markActive
    (w : Workspace)
    (u : String) :
    w.Shuffles (w.markActive u).1 := by
  unfold markActive
  split
  · exact .refl w
  next region hRegion =>
    split
    · exact .refl w
    · refine { Shuffles.refl w with active := ?_ }
      intro x hx
      cases hx
      exact Or.inr (isOpen_of_regionOf hRegion)

/- The keyboard is no concern of the order. -/
theorem shuffles_keyboard
    (w : Workspace)
    (keyboard : Option String) :
    w.Shuffles { w with keyboard := keyboard } :=
  { Shuffles.refl w with }

theorem shuffles_focus
    (w : Workspace)
    (u : String) :
    w.Shuffles (w.focus u).1 := by
  unfold focus
  split
  · exact .refl w
  · exact (w.shuffles_keyboard _).trans
      (shuffles_markActive _ u)

theorem shuffles_pageChanged
    (w : Workspace)
    (region : Region) :
    w.Shuffles (w.pageChanged region).1 := by
  unfold pageChanged
  split
  · exact .refl w
  · split
    · exact w.shuffles_markActive _
    · exact .refl w

theorem shuffles_switchTo
    (w : Workspace)
    (region : Region)
    (index : Nat) :
    w.Shuffles (w.switchTo region index).1 := by
  have hTabs : w.Shuffles
      (w.setTabs region ((w.tabs region).switchTo index).1) := by
    apply shuffles_setTabs
    · unfold Tabs.switchTo
      split
      · rfl
      · split <;> rfl
    · intro x hx
      unfold Tabs.switchTo at hx
      split at hx
      next => exact Or.inl hx
      next page hPage =>
        split at hx
        next => exact Or.inl hx
        next =>
          cases hx
          exact Or.inr (List.mem_of_getElem? hPage)
  unfold switchTo
  dsimp only
  split
  · exact hTabs.trans (shuffles_pageChanged _ region)
  · exact hTabs

/- Work on an editor moves no document. -/
theorem shuffles_onEditor
    (w : Workspace)
    (u : String)
    (f : Editor → Editor) :
    w.Shuffles (w.onEditor u f) := by
  have hRegion : ∀ x,
      (w.onEditor u f).regionOf x = w.regionOf x := by
    intro x
    unfold regionOf
    rw [get?_onEditor]
    split
    next hEq =>
      subst hEq
      rw [Option.map_map]
      rfl
    next => rfl
  unfold onEditor at hRegion ⊢
  cases hFound : Table.get? w.documents u with
  | none => exact .refl w
  | some d =>
      rw [hFound] at hRegion
      refine { Shuffles.refl w with
        keys := ?_, regionOf := hRegion }
      apply Table.keys_insert_of_mem
      exact Table.contains_iff.mp
        (Option.isSome_iff_exists.mpr ⟨d, hFound⟩)

----
-- Adding and removing
----

theorem regionOf_add
    (w : Workspace)
    (u x : String)
    (region : Region)
    (e : Editor) :
    (w.add u region e).regionOf x =
      if u = x then some region else w.regionOf x := by
  unfold regionOf
  rw [get?_add]
  split <;> rfl

theorem documentsIn_add
    (w : Workspace)
    (u : String)
    (region other : Region)
    (e : Editor) :
    (w.add u region e).documentsIn other =
      if region = other then w.documentsIn other ++ [u]
      else w.documentsIn other := by
  cases region <;> cases other <;> rfl

/- A document that was not open lies in its region. -/
theorem Orderly.add
    (h : w.Orderly)
    (hClosed : w.isOpen u = false)
    (region : Region)
    (e : Editor) :
    (w.add u region e).Orderly := by
  have hNone : w.regionOf u = none := by
    rw [isOpen_eq_isSome_regionOf] at hClosed
    exact Option.isNone_iff_eq_none.mp
      (Option.isSome_eq_false_iff.mp hClosed)
  have hOut : ∀ other, u ∉ w.documentsIn other := by
    intro other hMem
    rw [h.placed, hNone] at hMem
    cases hMem
  refine ⟨⟨?_, ?_, ?_, ?_⟩, ?_⟩
  · exact Table.nodup_keys_insert h.keys u _
  · intro other
    rw [documentsIn_add]
    split
    · exact List.nodup_append_comm.mp
        (List.nodup_cons.mpr ⟨hOut other, h.nodup other⟩)
    · exact h.nodup other
  · intro other x
    rw [documentsIn_add, regionOf_add]
    by_cases hEq : u = x
    · subst hEq
      by_cases hRegion : region = other
      · simp [hRegion]
      · simp [hRegion, hOut other]
    · by_cases hRegion : region = other
      · simp [hRegion, hEq, Ne.symm hEq, h.placed]
      · simp [hRegion, hEq, h.placed]
  · intro other x hx
    rw [documentsIn_add]
    by_cases hRegion : region = other
    · subst hRegion
      rw [if_pos rfl]
      have hShown : (w.add u region e).shownIn region =
          if (w.documentsIn region).isEmpty then some u
          else w.shownIn region := by
        cases region <;> rfl
      rw [hShown] at hx
      split at hx
      next =>
        cases hx
        exact List.mem_append_right _ List.mem_cons_self
      next =>
        exact List.mem_append_left _ (h.shown region x hx)
    · have hShown : (w.add u region e).shownIn other =
          w.shownIn other := by
        cases region <;> cases other <;>
          first | rfl | exact absurd rfl hRegion
      rw [hShown] at hx
      rw [if_neg hRegion]
      exact h.shown other x hx
  · intro x hx
    have hActive : (w.add u region e).active = w.active := by
      cases region <;> rfl
    rw [hActive] at hx
    rw [isOpen_eq_isSome_regionOf, regionOf_add]
    split
    · rfl
    · rw [← isOpen_eq_isSome_regionOf]
      exact h.active x hx

theorem regionOf_remove
    (h : w.isOpen u = true)
    (x : String) :
    (w.remove u).1.regionOf x =
      if u = x then none else w.regionOf x := by
  unfold regionOf
  rw [w.get?_remove h]
  split <;> rfl

/-
  The record and the page of a document are taken out before
  any other page is shown.
-/
def takeOut
    (w : Workspace)
    (u : String)
    (region : Region) : Workspace :=
  ({ w with documents := Table.erase w.documents u } :
    Workspace).setTabs region ((w.tabs region).remove u).1

theorem documentsIn_takeOut
    (w : Workspace)
    (u : String)
    (region other : Region) :
    (w.takeOut u region).documentsIn other =
      if region = other then (w.documentsIn other).erase u
      else w.documentsIn other := by
  unfold takeOut documentsIn
  rw [tabs_setTabs]
  split
  next hEq => rw [Tabs.pages_remove, hEq]
  next => cases other <;> rfl

theorem regionOf_takeOut
    (w : Workspace)
    (u x : String)
    (region : Region) :
    (w.takeOut u region).regionOf x =
      if u = x then none else w.regionOf x := by
  unfold takeOut regionOf
  rw [documents_setTabs, Table.get?_erase]
  split <;> rfl

theorem Sorted.takeOut
    (h : w.Sorted)
    {region : Region}
    (hRegion : w.regionOf u = some region) :
    (w.takeOut u region).Sorted := by
  refine ⟨?_, ?_, ?_, ?_⟩
  · unfold Workspace.takeOut
    rw [documents_setTabs]
    exact h.keys.sublist ((Table.erase_sublist _ u).map _)
  · intro other
    rw [documentsIn_takeOut]
    split
    · exact (h.nodup other).erase u
    · exact h.nodup other
  · intro other x
    rw [documentsIn_takeOut, regionOf_takeOut]
    by_cases hEq : u = x
    · subst hEq
      by_cases hOther : region = other
      · simp [hOther, (h.nodup other).mem_erase_iff]
      · simp [hOther, h.placed, hRegion]
    · by_cases hOther : region = other
      · simp [hOther, hEq, (h.nodup other).mem_erase_iff,
          Ne.symm hEq, h.placed]
      · simp [hOther, hEq, h.placed]
  · intro other x hx
    unfold Workspace.takeOut shownIn documentsIn at *
    rw [tabs_setTabs] at hx ⊢
    split at hx
    next hEq =>
      subst hEq
      rw [if_pos rfl]
      exact Tabs.current_remove (h.nodup region)
        (h.shown region) hx
    next hNe =>
      rw [if_neg hNe]
      cases other with
      | primary => exact h.shown .primary x hx
      | secondary => exact h.shown .secondary x hx

/- What is shown next, and whether that is announced. -/
def showNext
    (w : Workspace)
    (u : String)
    (region : Region) :
    Workspace × Option (String × Region) :=
  let rest := (w.takeOut u region).dropKeyboard u
  if ((w.tabs region).remove u).2 then rest.pageChanged region
  else (rest, none)

theorem remove_eq
    {region : Region}
    (h : w.regionOf u = some region) :
    w.remove u =
      ((w.showNext u region).1.dropActive u,
        (w.showNext u region).2) := by
  unfold remove
  rw [h]
  rfl

/-
  If the document has the keyboard itself, nothing becomes
  active when it goes.
-/
theorem remove_snd_of_keyboard
    (h : w.keyboard = some u) :
    (w.remove u).2 = none := by
  cases hRegion : w.regionOf u with
  | none =>
      unfold remove
      rw [hRegion]
  | some region =>
      have hKept : (w.takeOut u region).keyboard = some u := by
        unfold takeOut
        cases region <;> exact h
      rw [remove_eq hRegion]
      unfold showNext dropKeyboard
      dsimp only
      rw [if_pos hKept]
      split
      · unfold pageChanged
        split
        · rfl
        · split
          next hOther => cases hOther
          next => rfl
      · rfl

theorem shuffles_showNext
    (w : Workspace)
    (u : String)
    (region : Region) :
    (w.takeOut u region).Shuffles (w.showNext u region).1 := by
  have hKeyboard : (w.takeOut u region).Shuffles
      ((w.takeOut u region).dropKeyboard u) := by
    unfold dropKeyboard
    split
    · exact shuffles_keyboard _ _
    · exact .refl _
  unfold showNext
  dsimp only
  split
  · exact hKeyboard.trans (shuffles_pageChanged _ region)
  · exact hKeyboard

theorem shuffles_dropActive
    (w : Workspace)
    (u : String) :
    w.Shuffles (w.dropActive u) := by
  unfold dropActive
  split
  · refine { Shuffles.refl w with active := ?_ }
    intro x hx
    cases hx
  · exact .refl w

/- The document is gone, and all others are in order. -/
theorem Orderly.remove
    (h : w.Orderly)
    (u : String) :
    (w.remove u).1.Orderly := by
  cases hRegion : w.regionOf u with
  | none =>
      unfold Workspace.remove
      rw [hRegion]
      exact h
  | some region =>
      have hNext := w.shuffles_showNext u region
      have hSorted := hNext.sorted (h.takeOut hRegion)
      rw [remove_eq hRegion]
      refine ⟨(shuffles_dropActive _ u).sorted hSorted, ?_⟩
      intro x hx
      rw [(shuffles_dropActive _ u).isOpen]
      -- The active document is not the one that is removed.
      have hKept : (w.showNext u region).1.active = some x ∧
          x ≠ u := by
        unfold dropActive at hx
        split at hx
        next => cases hx
        next hNe =>
          refine ⟨hx, ?_⟩
          rintro rfl
          exact hNe hx
      rw [hNext.isOpen]
      rcases hNext.active x hKept.1 with hOld | hOpen
      · have hActive : w.active = some x := by
          unfold takeOut at hOld
          rw [active_setTabs] at hOld
          exact hOld
        rw [isOpen_eq_isSome_regionOf, regionOf_takeOut,
          if_neg (Ne.symm hKept.2),
          ← isOpen_eq_isSome_regionOf]
        exact h.active x hActive
      · exact hOpen

theorem Orderly.notMem_remove
    (hOrderly : w.Orderly)
    (h : w.isOpen u = true)
    (region : Region) :
    u ∉ (w.remove u).1.documentsIn region := by
  rw [(hOrderly.remove u).placed, regionOf_remove h,
    if_pos rfl]
  intro hNone
  cases hNone

theorem Sorted.keys_remove
    (hSorted : w.Sorted)
    (h : w.isOpen u = true) :
    Table.keys (w.remove u).1.documents =
      (Table.keys w.documents).erase u := by
  rcases exists_regionOf h with ⟨region, hRegion⟩
  have hErased : Table.keys (Table.erase w.documents u) =
      (Table.keys w.documents).filter (· != u) := by
    unfold Table.keys Table.erase
    rw [List.filter_map]
    refine congrArg _ (List.filter_congr fun e _ => ?_)
    by_cases hEq : e.1 = u <;> simp [hEq]
  rw [remove_eq hRegion, (shuffles_dropActive _ u).keys,
    (w.shuffles_showNext u region).keys,
    hSorted.keys.erase_eq_filter]
  unfold Workspace.takeOut
  rw [documents_setTabs]
  exact hErased

theorem documentsIn_remove
    (h : w.isOpen u = true)
    (other : Region) :
    ∀ x, x ≠ u →
      (x ∈ (w.remove u).1.documentsIn other ↔
        x ∈ w.documentsIn other) := by
  intro x hx
  rcases exists_regionOf h with ⟨region, hRegion⟩
  rw [remove_eq hRegion, (shuffles_dropActive _ u).pages,
    (w.shuffles_showNext u region).pages, documentsIn_takeOut]
  split
  · exact List.mem_erase_of_ne hx
  · rfl

end Workspace

end StyleCompanion
