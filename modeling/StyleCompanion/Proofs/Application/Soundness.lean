import StyleCompanion.Proofs.Application.Painting

/-
  Requests and completions, and what they make of a scene.

  A scene is sound if the pairing follows the workspace, its
  registry is filed and all decorated documents are held.
  Requests keep it so, since they reconcile first and render
  companions of pairs only.  The completion of an opening
  joins a pair without a look at what is there.  It spoils the
  scene if its companion is decorated outside the secondary
  region, or if it ousts the only pair of another companion
  that is decorated.

  Main declarations:
    * `Scene.Sound`
    * `Pairing.Session.sound_showCompanion`
    * `Pairing.Session.Strays`
    * `Pairing.Session.Ousts`
    * `Pairing.Session.secure_companionOpened_iff`
-/

namespace StyleCompanion

open Pairing
open Scene (Dims Touches)

namespace Scene

/- Nothing is amiss with the decorations. -/
structure Sound
    (s : Scene) : Prop where
  attached : s.attached = true
  filed : s.registry.Filed
  secure : s.Secure

variable {s t : Scene}

theorem Dims.sound
    (h : Dims none s t)
    (hSound : s.Sound) :
    t.Sound where
  attached := h.attached.trans hSound.attached
  filed := h.registry.filed hSound.filed
  secure := h.secure hSound.secure

theorem Touches.sound
    {u : String}
    (h : Touches u s t)
    (hSound : s.Sound)
    (hOwn : t.Decorated u → t.Holds u) :
    t.Sound where
  attached := h.attached.trans hSound.attached
  filed := by
    rw [h.registry]
    exact hSound.filed
  secure := h.secure hSound.secure hOwn

/- A change of the registry that keeps companions paired. -/
theorem Sound.withRegistry
    (h : s.Sound)
    {r : PairRegistry}
    (hFiled : r.Filed)
    (hPaired : ∀ u, s.registry.HasCompanion u →
      r.HasCompanion u) :
    Sound { s with registry := r } where
  attached := h.attached
  filed := hFiled
  secure := by
    intro u hu
    have hHeld := h.secure u hu
    exact ⟨hHeld.rendered, hHeld.overlaid,
      hPaired u hHeld.paired, hHeld.placed⟩

end Scene

namespace Pairing.Session

variable {a : Session Desktop}

----
-- Requests
----

/- Every companion that is open is in its place. -/
def Berthed
    (a : Session Desktop) : Prop :=
  ∀ pair ∈ a.registry.pairList,
    (Table.get? a.scene.documents
      pair.companion).isSome = true →
        pair.companion ∈ a.scene.pages

theorem berthed_reconcile
    (hFiled : a.registry.Filed) :
    a.reconcile.Berthed := by
  intro pair hPair _
  rw [pages_eq_of_stage a.stage_reconcile]
  exact a.companion_present_of_reconcile hFiled hPair

theorem berthed_of_dims
    {b : Session Desktop}
    (h : Dims none a.scene b.scene)
    (hBerthed : a.Berthed) :
    b.Berthed := by
  intro pair hPair hOpen
  exact h.pages _
    (hBerthed pair (h.registry.mem_pairList hPair)
      (h.opened _ hOpen)) hOpen

/- A primary that is parted from its companion closes it. -/
theorem dims_replacePair
    (hSound : a.scene.Sound)
    {p : String}
    {pair : DocumentPair}
    (hPair : a.registry.pairForPrimary p = some pair)
    (c : String) :
    Dims none a.scene (a.replacePair pair c).scene := by
  have hMem :=
    PairRegistry.mem_pairList_of_pairForPrimary hPair
  let parted : Session Desktop :=
    (a.info
      ("Companion for " ++ pair.primary ++ " changed from " ++
        pair.companion ++ " to " ++ c)).dropPair pair
  have hDrop : Dims (some pair.companion) a.scene
      parted.scene :=
    dims_dropPair hSound.filed fun other hOther hEq =>
      hSound.filed.eq_of_primary hOther hMem hEq
  rcases dims_close (a := parted)
      (hDrop.attached.trans hSound.attached)
      (hDrop.registry.filed hSound.filed)
      pair.companion with
    ⟨hClose, hGone⟩
  refine (hDrop.trans hClose.weaken).regain ?_
  intro hDecorated
  exact absurd hDecorated (Scene.not_decorated hGone)

/- A companion is taken over by a primary without a pair. -/
theorem hasCompanion_takeOver
    {r : PairRegistry}
    (hFiled : r.Filed)
    {p : String}
    {shared : DocumentPair}
    (hFree : r.pairForPrimary p = none)
    (hShared : shared ∈ r.pairList)
    {u : String}
    (h : r.HasCompanion u) :
    ((r.remove shared.primary).register p
      shared.companion).HasCompanion u := by
  have hRemoved :=
    (r.loses_remove shared.primary).filed hFiled
  by_cases hu : u = shared.companion
  · exact ⟨⟨p, shared.companion⟩,
      hRemoved.mem_register.mpr (Or.inl rfl), hu.symm⟩
  · have hKept := hFiled.hasCompanion_remove
      (fun other hOther hEq =>
        hFiled.eq_of_primary hOther hShared hEq) hu h
    rcases hKept with ⟨pair, hPair, hEq⟩
    refine ⟨pair, hRemoved.mem_register.mpr
      (Or.inr ⟨hPair, ?_⟩), hEq⟩
    intro hPrimary
    have hFound :=
      hFiled.pairForPrimary (hFiled.mem_remove.mp hPair).1
    rw [hPrimary, hFree] at hFound
    cases hFound

theorem scene_takeOver
    (a : Session Desktop)
    (p : String)
    (shared : DocumentPair) :
    (a.takeOver p shared).scene =
      { a.scene with
        registry := (a.registry.remove
          shared.primary).register p shared.companion } :=
  scene_eq
    (a := { a with
      registry := (a.registry.remove shared.primary).register
        p shared.companion })
    rfl rfl (Desktop.stage_reveal _ _ _)

theorem sound_takeOver
    (hSound : a.scene.Sound)
    {p : String}
    {shared : DocumentPair}
    (hFree : a.registry.pairForPrimary p = none)
    (hShared : shared ∈ a.registry.pairList) :
    (a.takeOver p shared).scene.Sound := by
  rw [scene_takeOver]
  apply hSound.withRegistry
  · exact ((a.registry.loses_remove _).filed
      hSound.filed).register _ _
  · intro u hu
    exact hasCompanion_takeOver hSound.filed hFree hShared hu

/- A refresh keeps a scene sound if its companion is held. -/
theorem sound_refreshAndRender
    (hSound : a.scene.Sound)
    {u : String}
    (hPaired : a.scene.registry.HasCompanion u)
    (hPlaced : (Table.get? a.scene.documents u).isSome = true →
      u ∈ a.scene.pages)
    (m : Attribution.Model) :
    (a.refreshAndRender u m).1.scene.Sound := by
  apply (a.touches_refreshAndRender u m).sound hSound
  exact a.holds_refreshAndRender hSound.secure hPaired
    hPlaced m

/- Openings are none of the decorations' business. -/
theorem sound_of_pairs
    (hSound : a.scene.Sound)
    {b : Session Desktop}
    (hFiled : b.registry.Filed)
    (hPairs : b.registry.pairs = a.registry.pairs)
    (hRest : b.scene =
      { a.scene with registry := b.registry }) :
    b.scene.Sound := by
  rw [hRest]
  apply hSound.withRegistry hFiled
  intro u hu
  rcases hu with ⟨pair, hPair, hEq⟩
  refine ⟨pair, ?_, hEq⟩
  unfold PairRegistry.pairList
  rw [hPairs]
  exact hPair

theorem sound_beginOpening
    (hSound : a.scene.Sound)
    (p c : String) :
    (a.beginOpening p c).scene.Sound := by
  have hPairs :
      (a.registry.beginOpen p c).1.pairs = a.registry.pairs := by
    unfold PairRegistry.beginOpen
    split <;> rfl
  apply sound_of_pairs hSound
  · rw [beginOpening_registry]
    exact hSound.filed.beginOpen p c
  · rw [beginOpening_registry]
    exact hPairs
  · unfold beginOpening
    dsimp only
    split <;> rfl

theorem sound_openCompanion
    (hSound : a.scene.Sound)
    (p c : String) :
    (a.openCompanion p c).scene.Sound := by
  unfold openCompanion
  split
  · exact sound_beginOpening hSound p c
  · split
    · exact hSound
    · apply sound_beginOpening
      exact sound_of_pairs hSound
        ((a.registry.loses_cancelOpen p).filed hSound.filed)
        rfl rfl

theorem sound_showUnpaired
    (hSound : a.scene.Sound)
    (hBerthed : a.Berthed)
    {p : String}
    (hFree : a.registry.pairForPrimary p = none)
    (c : String)
    (m : Attribution.Model) :
    (a.showUnpaired p c m).1.scene.Sound := by
  unfold showUnpaired
  split
  next shared hFound =>
    have hShared :=
      PairRegistry.mem_pairList_of_pairForCompanion hFound
    have hCompanion :=
      PairRegistry.companion_of_pairForCompanion hFound
    subst hCompanion
    have hRemoved :=
      (a.registry.loses_remove shared.primary).filed
        hSound.filed
    apply sound_refreshAndRender
      (sound_takeOver hSound hFree hShared)
    · rw [scene_takeOver]
      exact ⟨_, hRemoved.mem_register.mpr (Or.inl rfl), rfl⟩
    · rw [scene_takeOver]
      exact hBerthed shared hShared
  next => exact sound_openCompanion hSound p c

/- A request reconciles, and then shows what is paired. -/
theorem sound_showFor
    (hSound : a.scene.Sound)
    (p c : String)
    (m : Attribution.Model) :
    (a.showFor p c m).1.scene.Sound := by
  have hReconciled : a.reconcile.scene.Sound :=
    (dims_reconcile hSound.filed).sound hSound
  have hBerthed : (a.reconcile.keepModel c m).Berthed :=
    berthed_reconcile hSound.filed
  unfold showFor
  dsimp only
  split
  next hFree =>
    exact sound_showUnpaired (a := a.reconcile.keepModel c m)
      hReconciled hBerthed hFree c m
  next pair hPair =>
    have hMem :=
      PairRegistry.mem_pairList_of_pairForPrimary hPair
    split
    next hEq =>
      subst hEq
      exact sound_refreshAndRender
        (a := a.reconcile.keepModel pair.companion m)
        hReconciled ⟨pair, hMem, rfl⟩ (hBerthed pair hMem) m
    next hNe =>
      have hParted := dims_replacePair
        (a := a.reconcile.keepModel c m) hReconciled hPair c
      exact sound_showUnpaired (hParted.sound hReconciled)
        (berthed_of_dims hParted hBerthed)
        (pairForPrimary_replacePair
          (s := a.reconcile.keepModel c m) hReconciled.filed
          hPair c) c m

theorem sound_showCompanion
    (hSound : a.scene.Sound)
    (uri : String)
    (m : Attribution.Model)
    (given : Option String) :
    (a.showCompanion uri m given).1.scene.Sound := by
  unfold showCompanion
  dsimp only
  split
  · exact hSound
  · split
    · exact hSound
    · exact sound_showFor hSound _ _ m

----
-- Completions
----

/-
  A completion decorates its companion outside the secondary
  region, where the next reconciliation does not find it.
-/
def Strays
    (a : Session Desktop)
    (q : PendingOpen) : Prop :=
  q.companion ∉ a.scene.pages ∧
    (a.companionOpened q true).scene.Decorated q.companion

/-
  A completion takes the place of the only pair of another
  companion, and that one is decorated.
-/
def Ousts
    (a : Session Desktop)
    (q : PendingOpen) : Prop :=
  ∃ old,
    a.registry.pairForPrimary q.primary = some old ∧
      old.companion ≠ q.companion ∧
      a.scene.Decorated old.companion ∧
      ∀ pair ∈ a.registry.pairList,
        pair.companion = old.companion → pair = old

/- The application with the pair that a completion joins. -/
def joined
    (a : Session Desktop)
    (q : PendingOpen) : Session Desktop :=
  register
    { a with registry := (a.registry.finishOpen q).1 }
    q.primary q.companion

/- A completion that joins renders the model, if any. -/
theorem companionOpened_joined
    {q : PendingOpen}
    (h : a.Joins q true) :
    a.companionOpened q true = a.joined q ∨
      ∃ m, a.companionOpened q true =
        (a.joined q).render q.companion m := by
  rcases h with ⟨-, hAwaits, hOpen⟩
  have hFinish := PairRegistry.finishOpen_eq hAwaits
  unfold companionOpened joined
  simp only [hFinish, hOpen, Bool.not_true, Bool.or_self,
    Bool.false_eq_true, if_false]
  split
  · exact Or.inl rfl
  · exact Or.inr ⟨_, rfl⟩

/- A completion touches its companion beside the pair. -/
theorem touches_joined
    {q : PendingOpen}
    (h : a.Joins q true) :
    Touches q.companion (a.joined q).scene
      (a.companionOpened q true).scene := by
  rcases companionOpened_joined h with hSame | ⟨m, hRender⟩
  · exact .of_eq (congrArg scene hSame)
  · rw [hRender]
    exact touches_render _ _ m

theorem filed_joined
    (hFiled : a.registry.Filed)
    (q : PendingOpen) :
    (a.joined q).registry.Filed :=
  ((a.registry.loses_finishOpen q).filed hFiled).register _ _

/- The pairs after a completion: its own, and the others. -/
theorem mem_joined
    (hFiled : a.registry.Filed)
    {q : PendingOpen}
    {pair : DocumentPair} :
    pair ∈ (a.joined q).registry.pairList ↔
      pair = ⟨q.primary, q.companion⟩ ∨
        pair ∈ a.registry.pairList ∧
          pair.primary ≠ q.primary := by
  have hFinished := (a.registry.loses_finishOpen q).filed hFiled
  refine hFinished.mem_register.trans ?_
  unfold PairRegistry.pairList
  rw [PairRegistry.pairs_finishOpen]

/- Who is not ousted stays paired. -/
theorem hasCompanion_joined
    (hFiled : a.registry.Filed)
    {q : PendingOpen}
    (hNot : ¬ a.Ousts q)
    {u : String}
    (hPaired : a.registry.HasCompanion u)
    (hDecorated : a.scene.Decorated u) :
    (a.joined q).registry.HasCompanion u := by
  by_cases hOwn : u = q.companion
  · exact ⟨⟨q.primary, q.companion⟩,
      (mem_joined hFiled).mpr (Or.inl rfl), hOwn.symm⟩
  · -- One of the pairs of the document has another primary.
    by_contra hLost
    have hAll : ∀ pair ∈ a.registry.pairList,
        pair.companion = u → pair.primary = q.primary := by
      intro pair hPair hEq
      by_contra hNe
      exact hLost ⟨pair, (mem_joined hFiled).mpr
        (Or.inr ⟨hPair, hNe⟩), hEq⟩
    rcases hPaired with ⟨old, hOld, hEq⟩
    apply hNot
    refine ⟨old, ?_, ?_, ?_, ?_⟩
    · rw [← hAll old hOld hEq]
      exact hFiled.pairForPrimary hOld
    · rw [hEq]
      exact hOwn
    · rw [hEq]
      exact hDecorated
    · intro pair hPair hSame
      apply hFiled.eq_of_primary hPair hOld
      rw [hAll pair hPair (hSame.trans hEq),
        hAll old hOld hEq]

/- The companion of a completion is rendered, or as it was. -/
theorem rendered_companionOpened
    (hSound : a.scene.Sound)
    {q : PendingOpen}
    (hJoins : a.Joins q true)
    (hDecorated :
      (a.companionOpened q true).scene.Decorated
        q.companion) :
    (a.companionOpened q true).scene.engine.hasRender
        q.companion = true ∧
      (a.companionOpened q true).scene.Overlaid
        q.companion := by
  rcases companionOpened_joined hJoins with
    hSame | ⟨m, hRender⟩
  · rw [hSame] at hDecorated ⊢
    exact hSound.secure.fresh q.companion hDecorated
  · rw [hRender] at hDecorated ⊢
    rcases hDecorated with ⟨d, hd, -⟩
    refine ⟨((a.joined q).holds_render hd).1, ?_⟩
    intro e he
    exact ((a.joined q).holds_render he).2

/-
  A completion that joins leaves every decorated document held
  if and only if it neither strays nor ousts.
-/
theorem secure_companionOpened_iff
    (hSound : a.scene.Sound)
    {q : PendingOpen}
    (hJoins : a.Joins q true) :
    (a.companionOpened q true).scene.Secure ↔
      ¬ (a.Strays q ∨ a.Ousts q) := by
  have hTouched := touches_joined hJoins
  have hFiled := hSound.filed
  constructor
  · intro hSecure hSpoils
    rcases hSpoils with
      ⟨hOut, hDecorated⟩ | ⟨old, hOld, hNe, ⟨d, hd, hs⟩, hOnly⟩
    · have hPlaced := (hSecure _ hDecorated).placed
      rw [hTouched.pages] at hPlaced
      exact hOut hPlaced
    · have hPaired := (hSecure old.companion
        ⟨d, (hTouched.documents _ hNe).trans hd, hs⟩).paired
      rw [hTouched.registry] at hPaired
      rcases hPaired with ⟨pair, hPair, hEq⟩
      rcases (mem_joined hFiled).mp hPair with
        hNew | ⟨hThere, hOther⟩
      · rw [hNew] at hEq
        exact hNe hEq.symm
      · rw [hOnly pair hThere hEq] at hOther
        exact hOther (hFiled.primary_eq hOld)
  · intro hNot u hu
    rw [not_or] at hNot
    by_cases hOwn : u = q.companion
    · subst hOwn
      have hShown := rendered_companionOpened hSound hJoins hu
      refine ⟨hShown.1, hShown.2, ?_, ?_⟩
      · rw [hTouched.registry]
        exact ⟨⟨q.primary, q.companion⟩,
          (mem_joined hFiled).mpr (Or.inl rfl), rfl⟩
      · rw [hTouched.pages]
        by_contra hOut
        exact hNot.1 ⟨hOut, hu⟩
    · have hSame := hTouched.documents u hOwn
      have hWas : a.scene.Decorated u := by
        rcases hu with ⟨d, hd, hSelections⟩
        exact ⟨d, hSame.symm.trans hd, hSelections⟩
      have hHeld := hSound.secure u hWas
      refine ⟨?_, ?_, ?_, ?_⟩
      · rw [hTouched.rendered u hOwn]
        exact hHeld.rendered
      · intro d hd
        exact hHeld.overlaid d (hSame.symm.trans hd)
      · rw [hTouched.registry]
        exact hasCompanion_joined hFiled hNot.2 hHeld.paired
          hWas
      · rw [hTouched.pages]
        exact hHeld.placed

/- The pairing still follows, and its registry is filed. -/
theorem wired_companionOpened
    (hSound : a.scene.Sound)
    {q : PendingOpen}
    (hJoins : a.Joins q true) :
    (a.companionOpened q true).scene.attached = true ∧
      (a.companionOpened q true).registry.Filed := by
  have hTouched := touches_joined hJoins
  refine ⟨hTouched.attached.trans hSound.attached, ?_⟩
  change (a.companionOpened q true).scene.registry.Filed
  rw [hTouched.registry]
  exact filed_joined hSound.filed q

/- A completion that joins no pair takes away at most. -/
theorem sound_companionOpened_of_not_joins
    (hSound : a.scene.Sound)
    {q : PendingOpen}
    {ok : Bool}
    (hNot : ¬ a.Joins q ok) :
    (a.companionOpened q ok).scene.Sound := by
  have hFinished :
      ({ a with registry := (a.registry.finishOpen q).1 } :
        Session Desktop).scene.Sound :=
    sound_of_pairs hSound
      ((a.registry.loses_finishOpen q).filed hSound.filed)
      (a.registry.pairs_finishOpen q) rfl
  cases ok with
  | false => exact hFinished
  | true =>
      rcases companionOpened_orphaned hNot with ⟨text, hOpened⟩
      rw [hOpened]
      exact (dims_close
        (a := (info { a with
          registry := (a.registry.finishOpen q).1 }
          text).dropModel q.companion)
        hFinished.attached hFinished.filed _).1.sound hFinished

end Pairing.Session

end StyleCompanion
