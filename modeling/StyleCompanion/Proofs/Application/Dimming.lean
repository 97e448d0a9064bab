import StyleCompanion.Proofs.Application.Scene

/-
  Decorations that are kept, and operations that only take
  some away.

  A decorated document is held if the engine has its render,
  its text is the one that was rendered, it is the companion
  of a pair and it lies in the secondary region.  A scene is
  secure if all its decorated documents are held.

  A reconciliation, a change of the focus and a closing dim a
  scene: no document gains decorations, and what stays
  decorated stays held.  A pair that is dropped on the way
  lets go of its companion, which is then closed; that is why
  dimming may name one document that was let go.

  Main declarations:
    * `Scene.Decorated`
    * `Scene.Fresh`
    * `Scene.Secure`
    * `Scene.Dims`
    * `Pairing.Session.dims_reconcile`
    * `Pairing.Session.dims_close`
-/

namespace StyleCompanion

open Pairing
open Workspace (Document Tabs)

namespace Scene

----
-- Decorations
----

/- An open document carries selections. -/
def Decorated
    (s : Scene)
    (u : String) : Prop :=
  ∃ d, Table.get? s.documents u = some d ∧
    d.editor.selections ≠ []

/- The text of a document is the one that was rendered. -/
def Overlaid
    (s : Scene)
    (u : String) : Prop :=
  ∀ d, Table.get? s.documents u = some d →
    d.editor.overlaid = true

/-
  No decoration is stale: every decorated document has a
  render, and its text has not changed since.
-/
def Fresh
    (s : Scene) : Prop :=
  ∀ u, s.Decorated u →
    s.engine.hasRender u = true ∧ s.Overlaid u

/- All that keeps the decorations of a document. -/
structure Holds
    (s : Scene)
    (u : String) : Prop where
  rendered : s.engine.hasRender u = true
  overlaid : s.Overlaid u
  paired : s.registry.HasCompanion u
  placed : u ∈ s.pages

/- Every decorated document is held. -/
def Secure
    (s : Scene) : Prop :=
  ∀ u, s.Decorated u → s.Holds u

theorem Secure.fresh
    {s : Scene}
    (h : s.Secure) :
    s.Fresh := by
  intro u hu
  exact ⟨(h u hu).rendered, (h u hu).overlaid⟩

/- A closed document shows nothing. -/
theorem not_decorated
    {s : Scene}
    {u : String}
    (hGone : Table.get? s.documents u = none) :
    ¬ s.Decorated u := by
  intro h
  rcases h with ⟨d, hd, -⟩
  rw [hGone] at hd
  cases hd

----
-- Dimming
----

/-
  No document is opened or gains decorations.  What stays
  decorated stays held, but for one document that may have
  been let go.
-/
structure Dims
    (lost : Option String)
    (s t : Scene) : Prop where
  attached : t.attached = s.attached
  registry : s.registry.Loses t.registry
  opened :
    ∀ u, (Table.get? t.documents u).isSome = true →
      (Table.get? s.documents u).isSome = true
  pages :
    ∀ u ∈ s.pages,
      (Table.get? t.documents u).isSome = true → u ∈ t.pages
  decorated : ∀ u, t.Decorated u → s.Decorated u
  holds :
    ∀ u, t.Decorated u → lost ≠ some u →
      s.Holds u → t.Holds u

namespace Dims

variable {s t r : Scene} {lost : Option String} {c : String}

theorem refl
    (s : Scene) :
    Dims lost s s where
  attached := rfl
  registry := .refl _
  opened _ h := h
  pages _ h _ := h
  decorated _ h := h
  holds _ _ _ h := h

theorem of_eq
    (h : t = s) :
    Dims lost s t := by
  rw [h]
  exact .refl s

theorem trans
    (h : Dims lost s t)
    (k : Dims lost t r) :
    Dims lost s r where
  attached := k.attached.trans h.attached
  registry := h.registry.trans k.registry
  opened u hu := h.opened u (k.opened u hu)
  pages u hPage hu :=
    k.pages u (h.pages u hPage (k.opened u hu)) hu
  decorated u hu := h.decorated u (k.decorated u hu)
  holds u hu hLost hHeld :=
    k.holds u hu hLost
      (h.holds u (k.decorated u hu) hLost hHeld)

/- Letting go of a document is one way to dim a scene. -/
theorem weaken
    (h : Dims none s t) :
    Dims lost s t :=
  { h with
    holds := fun u hu _ hHeld =>
      h.holds u hu (Option.some_ne_none u).symm hHeld }

/- Nothing was let go that was held and stays decorated. -/
theorem regain
    (h : Dims (some c) s t)
    (hc : t.Decorated c → ¬ s.Holds c) :
    Dims none s t := by
  refine { h with holds := ?_ }
  intro u hu _ hHeld
  by_cases hEq : c = u
  · subst hEq
    exact absurd hHeld (hc hu)
  · exact h.holds u hu (fun h => hEq (Option.some.inj h)) hHeld

theorem get?_eq_none
    (h : Dims lost s t)
    {u : String}
    (hGone : Table.get? s.documents u = none) :
    Table.get? t.documents u = none := by
  cases hOpen : Table.get? t.documents u with
  | none => rfl
  | some d =>
      have hWas := h.opened u (by rw [hOpen]; rfl)
      rw [hGone] at hWas
      cases hWas

theorem secure
    (h : Dims none s t)
    (hSecure : s.Secure) :
    t.Secure := by
  intro u hu
  exact h.holds u hu (Option.some_ne_none u).symm
    (hSecure u (h.decorated u hu))

end Dims

end Scene

open Scene (Dims)

----
-- Reconciliation
----

namespace Pairing.Session

variable {a : Session Desktop}

/- A pair that is dropped lets go of its companion. -/
theorem dims_dropPair
    {pair : DocumentPair}
    (hFiled : a.registry.Filed)
    (hOnly :
      ∀ other ∈ a.registry.pairList,
        other.primary = pair.primary → other = pair) :
    Dims (some pair.companion) a.scene
      (a.dropPair pair).scene where
  attached := rfl
  registry := a.loses_dropPair pair
  opened _ h := h
  pages _ h _ := h
  decorated _ h := h
  holds := by
    intro u _ hLost hHeld
    have hNe : pair.companion ≠ u :=
      fun h => hLost (congrArg some h)
    refine ⟨?_, hHeld.overlaid, ?_, hHeld.placed⟩
    · have hRendered := hHeld.rendered
      unfold Overlay.Engine.hasRender Table.contains
        at hRendered ⊢
      change (Table.get? (Table.erase _ _) u).isSome = true
      rw [Table.get?_erase, if_neg hNe]
      exact hRendered
    · exact hFiled.hasCompanion_remove hOnly hNe.symm
        hHeld.paired

/- A vanished companion was not held. -/
theorem dims_unpairVanished
    {pair : DocumentPair}
    (hFiled : a.registry.Filed)
    (hOnly :
      ∀ other ∈ a.registry.pairList,
        other.primary = pair.primary → other = pair) :
    Dims none a.scene
      (a.unpairVanished a.scene.pages pair).scene := by
  unfold unpairVanished
  split
  next => exact .refl _
  next hGone =>
    have hDrop := dims_dropPair (a := a.info
      ("Companion " ++ pair.companion ++
        " vanished; unpairing " ++ pair.primary)) hFiled hOnly
    exact hDrop.regain fun _ hHeld => hGone hHeld.placed

theorem stage_unpairVanished
    (a : Session Desktop)
    (present : List String)
    (pair : DocumentPair) :
    (a.unpairVanished present pair).host.stage =
      a.host.stage := by
  unfold unpairVanished
  split <;> rfl

/- A reconciliation touches no document. -/
theorem stage_reconcile
    (a : Session Desktop) :
    a.reconcile.host.stage = a.host.stage :=
  a.reconcile_induction (P := (·.host.stage = a.host.stage))
    rfl fun _ _ _ h => h

theorem pages_eq_of_stage
    {b : Session Desktop}
    (h : b.host.stage = a.host.stage) :
    b.scene.pages = a.scene.pages :=
  congrArg (·.1.2) h

theorem dims_reconcile
    (hFiled : a.registry.Filed) :
    Dims none a.scene a.reconcile.scene := by
  -- The pairs in the list are those of the first session.
  have hFold :
      ∀ (pairs : List DocumentPair) (b : Session Desktop),
        b.registry.Filed → b.scene.pages = a.scene.pages →
          (∀ pair ∈ pairs, ∀ other ∈ b.registry.pairList,
            other.primary = pair.primary → other = pair) →
          Dims none b.scene
            (pairs.foldl (unpairVanished a.scene.pages)
              b).scene := by
    intro pairs
    induction pairs with
    | nil =>
        intro b _ _ _
        exact .refl _
    | cons pair pairs ih =>
        intro b hKept hPages hOnly
        rw [List.forall_mem_cons] at hOnly
        have hStep := dims_unpairVanished hKept hOnly.1
        rw [hPages] at hStep
        refine hStep.trans (ih _ ?_ ?_ ?_)
        · exact hStep.registry.filed hKept
        · exact (pages_eq_of_stage
            (stage_unpairVanished b _ pair)).trans hPages
        · intro next hNext other hOther
          exact hOnly.2 next hNext other
            (hStep.registry.mem_pairList hOther)
  apply hFold _ _ hFiled rfl
  intro pair hPair other hOther hEq
  exact hFiled.eq_of_primary hOther hPair hEq

----
-- Focus
----

theorem scene_reveal
    (a : Session Desktop)
    (u : String)
    (region : Region) :
    ({ a with host := Host.reveal a.host u region } :
      Session Desktop).scene = a.scene :=
  scene_eq rfl rfl (a.host.stage_reveal u (some region))

theorem dims_activeViewChanged
    (hFiled : a.registry.Filed)
    (u : String) :
    Dims none a.scene (a.activeViewChanged u).scene := by
  have hReconcile := dims_reconcile hFiled
  unfold activeViewChanged
  dsimp only
  split
  next pair _ =>
    unfold primaryFocused
    split
    · exact hReconcile
    · exact hReconcile.trans (.of_eq (scene_reveal _ _ _))
  next =>
    split
    next pair _ =>
      unfold companionFocused
      split
      · exact hReconcile
      · exact hReconcile.trans (.of_eq (scene_reveal _ _ _))
    next => exact hReconcile

theorem dims_noticeActivated
    (hFiled : a.registry.Filed)
    (activated : Option (String × Region)) :
    Dims none a.scene (a.noticeActivated activated).scene := by
  cases activated with
  | none => exact .refl _
  | some place =>
      exact (dims_activeViewChanged hFiled place.1).trans
        (.of_eq (scene_settle _ _))

----
-- Closing
----

/- Openings that are given up concern no decoration. -/
theorem dims_cancelOpen
    (a : Session Desktop)
    (u : String) :
    Dims none a.scene
      ({ a with registry := (a.registry.cancelOpen u).1 } :
        Session Desktop).scene where
  attached := rfl
  registry := a.registry.loses_cancelOpen u
  opened _ h := h
  pages _ h _ := h
  decorated _ h := h
  holds _ _ _ h := ⟨h.rendered, h.overlaid, h.paired, h.placed⟩

/- The companion of a closed primary is let go. -/
theorem dims_releasePrimary
    (hFiled : a.registry.Filed)
    (u : String) :
    Dims (a.releasePrimary u).2 a.scene
      (a.releasePrimary u).1.scene := by
  have hCancel := a.dims_cancelOpen u
  have hCancelled := hCancel.registry.filed hFiled
  unfold releasePrimary
  dsimp only
  split
  next => split <;> exact hCancel
  next pair hPair =>
    have hFound : a.registry.pairForPrimary u = some pair := by
      split at hPair <;> exact hPair
    have hOnly :
        ∀ other ∈ a.registry.pairList,
          other.primary = pair.primary → other = pair := by
      intro other hOther hEq
      exact hFiled.eq_of_primary hOther
        (PairRegistry.mem_pairList_of_pairForPrimary hFound) hEq
    refine hCancel.weaken.trans ?_
    split
    · exact dims_dropPair (a := debug { a with
        registry := (a.registry.cancelOpen u).1 } _)
        hCancelled hOnly
    · exact dims_dropPair (a := { a with
        registry := (a.registry.cancelOpen u).1 })
        hCancelled hOnly

/- A companion that was closed is not missed. -/
theorem dims_companionClosed
    (hFiled : a.registry.Filed)
    {u : String}
    (hGone : Table.get? a.scene.documents u = none) :
    Dims none a.scene (a.companionClosed u).scene := by
  unfold companionClosed
  split
  next => exact .refl _
  next pair hPair =>
    have hMem :=
      PairRegistry.mem_pairList_of_pairForCompanion hPair
    have hCompanion :=
      PairRegistry.companion_of_pairForCompanion hPair
    have hDrop : Dims (some pair.companion) a.scene
        (a.dropPair pair).scene :=
      dims_dropPair hFiled fun other hOther hEq =>
        hFiled.eq_of_primary hOther hMem hEq
    refine hDrop.regain fun hDecorated => ?_
    rw [hCompanion] at hDecorated
    exact absurd hDecorated (Scene.not_decorated hGone)

theorem dims_releaseClosed
    (hFiled : a.registry.Filed)
    {u : String}
    (hGone : Table.get? a.scene.documents u = none) :
    Dims (a.releaseClosed u).2 a.scene
      (a.releaseClosed u).1.scene := by
  unfold releaseClosed
  split
  · exact dims_releasePrimary hFiled u
  · split
    · exact dims_companionClosed hFiled hGone
    · exact .refl _

/- An application from which a document was removed. -/
def without
    (a : Session Desktop)
    (u : String) : Session Desktop :=
  { a with
    host := { a.host with
      workspace := (a.host.workspace.remove u).1 } }

theorem get?_without
    {u : String}
    (hOpen : a.host.workspace.isOpen u = true) :
    Table.get? (a.without u).scene.documents u = none :=
  (a.host.workspace.get?_remove hOpen u).trans (if_pos rfl)

/- The document is gone, and others stay where they are. -/
theorem dims_without
    {u : String}
    (hOpen : a.host.workspace.isOpen u = true) :
    Dims none a.scene (a.without u).scene := by
  have hGet := a.host.workspace.get?_remove hOpen
  -- What is still found is another document, as it was.
  have hFound : ∀ v d,
      Table.get? (a.host.workspace.remove u).1.documents v =
        some d →
      v ≠ u ∧ Table.get? a.scene.documents v = some d := by
    intro v d hd
    rw [hGet] at hd
    split at hd
    · cases hd
    · exact ⟨Ne.symm ‹_›, hd⟩
  refine ⟨rfl, .refl _, ?_, ?_, ?_, ?_⟩
  · intro v hv
    rcases Option.isSome_iff_exists.mp hv with ⟨d, hd⟩
    rw [(hFound v d hd).2]
    rfl
  · intro v hPage hv
    rcases Option.isSome_iff_exists.mp hv with ⟨d, hd⟩
    exact a.host.workspace.mem_pages_remove
      (hFound v d hd).1 hPage
  · intro v hv
    rcases hv with ⟨d, hd, hSelections⟩
    exact ⟨d, (hFound v d hd).2, hSelections⟩
  · intro v hv _ hHeld
    rcases hv with ⟨d, hd, -⟩
    refine ⟨hHeld.rendered, ?_, hHeld.paired, ?_⟩
    · intro e he
      exact hHeld.overlaid e (hFound v e he).2
    · exact a.host.workspace.mem_pages_remove
        (hFound v d hd).1 hHeld.placed

/- A document that is not open is not closed. -/
theorem closeWithin_eq_self
    {u : String}
    (hOpen : a.host.workspace.isOpen u = false)
    (fuel : Nat) :
    closeWithin fuel a u = a := by
  cases fuel with
  | zero => rfl
  | succ n =>
      have hClose : Host.close a.host u =
          ⟨a.host, none, false⟩ := by
        change Desktop.close a.host u = _
        simp [Desktop.close, hOpen]
      unfold closeWithin
      rw [hClose]
      rfl

/-
  One closing of an attached application: the document is
  gone, another may have become active, and the pairing has
  let go.  Gives the companion to be closed after it.
-/
def parted
    (a : Session Desktop)
    (u : String) : Session Desktop × Option String :=
  ((a.without u).noticeActivated
    (a.host.workspace.remove u).2).releaseClosed u

/-
  An attached desktop leaves a closing to the pairing.  What
  the pairing does next depends on whom it lets go.
-/
theorem closeWithin_eq_parted
    {u : String}
    (hAttached : a.host.attached = true)
    (hOpen : a.host.workspace.isOpen u = true)
    (n : Nat) :
    closeWithin (n + 1) a u =
      settle
        (match (a.parted u).2 with
          | none => (a.parted u).1
          | some c => closeWithin n (a.parted u).1 c)
        (.closed u) := by
  have hClose : Host.close a.host u =
      ⟨(a.without u).host,
        (a.host.workspace.remove u).2, true⟩ := by
    change Desktop.close a.host u = _
    unfold Desktop.close
    rw [if_neg (by simp [hOpen])]
    exact if_pos hAttached
  rw [closeWithin, hClose]
  rfl

/-
  A closing dims the scene, and the document is closed.  The
  fuel is enough since each step of the chain uses up a pair.
-/
theorem dims_closeWithin
    {fuel : Nat}
    (hAttached : a.scene.attached = true)
    (hFiled : a.registry.Filed)
    (hFuel : a.registry.size < fuel)
    (u : String) :
    Dims none a.scene (closeWithin fuel a u).scene ∧
      Table.get? (closeWithin fuel a u).scene.documents u =
        none := by
  induction fuel generalizing a u with
  | zero => exact absurd hFuel (Nat.not_lt_zero _)
  | succ n ih =>
      cases hOpen : a.host.workspace.isOpen u with
      | false =>
          rw [closeWithin_eq_self hOpen]
          exact ⟨.refl _,
            (Workspace.isOpen_eq_false_iff _).mp hOpen⟩
      | true =>
          rw [closeWithin_eq_parted hAttached hOpen,
            scene_settle, parted]
          have hNotice := dims_noticeActivated
            (a := a.without u) hFiled
            (a.host.workspace.remove u).2
          have hNoticed := (dims_without hOpen).trans hNotice
          have hAbsent :=
            hNotice.get?_eq_none (get?_without hOpen)
          generalize (a.without u).noticeActivated
            (a.host.workspace.remove u).2 = noticed
            at hNoticed hAbsent ⊢
          have hKept := hNoticed.registry.filed hFiled
          have hReleased := dims_releaseClosed hKept hAbsent
          cases hNext : (noticed.releaseClosed u).2 with
          | none =>
              rw [hNext] at hReleased
              exact ⟨hNoticed.trans hReleased,
                hReleased.get?_eq_none hAbsent⟩
          | some c =>
              rw [hNext] at hReleased
              have hSize :
                  (noticed.releaseClosed u).1.registry.size <
                    n :=
                Nat.lt_of_lt_of_le
                  (noticed.size_releaseClosed hKept hNext)
                  (Nat.le_trans hNoticed.registry.size_le
                    (Nat.le_of_lt_succ hFuel))
              have hAttached' :=
                (hReleased.attached.trans
                  hNoticed.attached).trans hAttached
              rcases ih hAttached'
                  (hReleased.registry.filed hKept) hSize c with
                ⟨hChain, hClosed⟩
              have hAll := hReleased.trans hChain.weaken
              refine ⟨hNoticed.trans (hAll.regain ?_),
                hAll.get?_eq_none hAbsent⟩
              intro hDecorated
              exact absurd hDecorated
                (Scene.not_decorated hClosed)

/- A document is closed with all that hangs on it. -/
theorem dims_close
    (hAttached : a.scene.attached = true)
    (hFiled : a.registry.Filed)
    (u : String) :
    Dims none a.scene (a.close u).scene ∧
      Table.get? (a.close u).scene.documents u = none :=
  dims_closeWithin hAttached hFiled (Nat.lt_succ_self _) u

end Pairing.Session

end StyleCompanion
