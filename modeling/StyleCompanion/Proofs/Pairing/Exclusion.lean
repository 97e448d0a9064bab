import StyleCompanion.Proofs.Pairing.Alone
import StyleCompanion.Proofs.Pairing.Turns

/-
  What excludes what in the registry.

  A primary is unpaired, waits for an opening, or is paired,
  until one that waits takes over the companion of another.
  A companion serves one primary, until an opening completes
  whose companion another primary has got in the meantime.
  Nothing else ends either of these.

  Main declarations:
    * `PairRegistry.Exclusive`
    * `Session.Usurps`
    * `Session.exclusive_iff_not_usurps`
    * `PairRegistry.Unshared`
    * `Session.Collides`
    * `Session.unshared_iff_not_collides`
-/

namespace StyleCompanion

namespace Pairing

----
-- One stage for a primary
----

namespace PairRegistry

/- Where a primary stands in a registry. -/
def Stands
    (r : PairRegistry)
    (p : String) : Session.Stage → Prop
  | .unpaired =>
      r.pairForPrimary p = none ∧ r.pendingFor p = none
  | .opening q =>
      r.pairForPrimary p = none ∧ r.pendingFor p = some q
  | .paired c =>
      r.pairForPrimary p = some ⟨p, c⟩ ∧ r.pendingFor p = none

/- Every primary is at exactly one stage. -/
def Exclusive
    (r : PairRegistry) : Prop :=
  ∀ p, ∃! stage, r.Stands p stage

variable {r t : PairRegistry}

theorem Stands.unique
    {p : String}
    {a b : Session.Stage}
    (ha : r.Stands p a)
    (hb : r.Stands p b) :
    a = b := by
  cases a with
  | unpaired => cases b <;> simp_all [Stands]
  | opening q => cases b <;> simp_all [Stands]
  | paired c => cases b <;> simp_all [Stands]

theorem Exclusive.apart
    (h : r.Exclusive) :
    r.Apart := by
  intro p
  rcases h p with ⟨stage, hStands, -⟩
  cases stage with
  | unpaired => exact Or.inl hStands.1
  | opening q => exact Or.inl hStands.1
  | paired c => exact Or.inr hStands.2

/- A primary without both is at some stage. -/
theorem Apart.exclusive
    (h : r.Apart)
    (hFiled : r.Filed) :
    r.Exclusive := by
  intro p
  have hStands : ∃ stage, r.Stands p stage := by
    cases hPair : r.pairForPrimary p with
    | none =>
        cases hPending : r.pendingFor p with
        | none => exact ⟨.unpaired, hPair, hPending⟩
        | some q => exact ⟨.opening q, hPair, hPending⟩
    | some pair =>
        have hPrimary := hFiled.primary_eq hPair
        have hNone : r.pendingFor p = none := by
          rcases h p with hFree | hNone
          · rw [hFree] at hPair
            cases hPair
          · exact hNone
        subst hPrimary
        exact ⟨.paired pair.companion, hPair, hNone⟩
  rcases hStands with ⟨stage, hStage⟩
  exact ⟨stage, hStage, fun _ hOther => hOther.unique hStage⟩

theorem exclusive_iff_apart
    (hFiled : r.Filed) :
    r.Exclusive ↔ r.Apart :=
  ⟨Exclusive.apart, fun h => h.exclusive hFiled⟩

end PairRegistry

namespace Session

/-
  A primary that waits for an opening asks for a companion
  that is paired.
-/
def Usurps
    (s : Session Desk)
    (e : Event) : Prop :=
  ∃ pair ∈ s.asks e,
    (s.registry.pendingFor pair.primary).isSome = true ∧
      (s.reconcile.registry.pairForCompanion
        pair.companion).isSome = true

instance
    (s : Session Desk)
    (e : Event) :
    Decidable (s.Usurps e) :=
  inferInstanceAs (Decidable (∃ pair ∈ s.asks e, _))

variable {s : Session Desk} {e : Event}

/- A primary that usurps keeps its opening. -/
theorem not_apart_of_usurps
    (h : s.registry.Apart)
    (hUsurps : s.Usurps e) :
    ¬ (s.step e).registry.Apart := by
  rcases hUsurps with ⟨pair, hAsks, hPending, hPaired⟩
  rcases Option.isSome_iff_exists.mp hPending with ⟨q, hq⟩
  rcases Option.isSome_iff_exists.mp hPaired with
    ⟨shared, hShared⟩
  have hFree :
      s.registry.pairForPrimary pair.primary = none := by
    rcases h pair.primary with hFree | hIdle
    · exact hFree
    · rw [hq] at hIdle
      cases hIdle
  rcases step_of_asks hAsks with ⟨m, hStep⟩
  rw [hStep, showFor_registry_shared
    (s.loses_reconcile.pairForPrimary_eq_none hFree) hShared]
  intro hApart
  rcases hApart pair.primary with hNone | hNone
  · have hPair :=
      Table.get?_insert
        (s.reconcile.registry.remove shared.primary).pairs
        pair.primary pair.primary
        ⟨pair.primary, pair.companion⟩
    rw [if_pos rfl] at hPair
    rw [PairRegistry.pairForPrimary, PairRegistry.register,
      hPair] at hNone
    cases hNone
  · have hKept := s.pendingFor_reconcile pair.primary
    rw [hq] at hKept
    exact Option.some_ne_none q (hKept.symm.trans hNone)

/-
  A primary that takes over a companion without usurping it
  does not wait.
-/
theorem not_waiting
    {pair : DocumentPair}
    (hNot : ¬ s.Usurps e)
    (hAsks : s.asks e = some pair)
    (hPaired :
      s.reconcile.registry.pairForCompanion pair.companion ≠
        none) :
    s.registry.pendingFor pair.primary = none := by
  apply Classical.byContradiction
  intro hPending
  apply hNot
  exact ⟨pair, hAsks, Option.isSome_iff_ne_none.mpr hPending,
    Option.isSome_iff_ne_none.mpr hPaired⟩

/- Nothing but a usurpation gives a primary both. -/
theorem apart_step
    (hFiled : s.registry.Filed)
    (h : s.registry.Apart)
    (hNot : ¬ s.Usurps e) :
    (s.step e).registry.Apart := by
  have hTurn := turn_step hFiled e
  have hReconciled := s.loses_reconcile.apart h
  generalize (s.step e).registry = t at hTurn ⊢
  cases hTurn with
  | lose hLost => exact hLost.apart h
  | @serve pair t hAsks hServes =>
      cases hServes with
      | renew hLost _ _ => exact hLost.apart hReconciled
      | @takeOver t shared hLost hFree hShared =>
          have hPaired :
              s.reconcile.registry.pairForCompanion
                pair.companion ≠ none := by
            intro hNone
            rw [hLost.pairForCompanion_eq_none hNone]
              at hShared
            cases hShared
          have hIdle := not_waiting hNot hAsks hPaired
          rw [← pendingFor_reconcile] at hIdle
          have hKept :=
            hLost.trans (t.loses_remove shared.primary)
          exact (hKept.apart hReconciled).register
            (hKept.pendingFor_eq_none hIdle) _
      | wait hLost _ _ _ _ => exact hLost.apart hReconciled
      | begin hLost hFree _ hIdle =>
          exact (hLost.apart hReconciled).beginOpen hFree
            hIdle _
  | @join i ok lines q hEvent hIndex hJoins =>
      have hKept :=
        (s.loses_delivered i q ok lines).trans
          (PairRegistry.loses_finishOpen _ q)
      refine (hKept.apart h).register ?_ _
      rw [PairRegistry.finishOpen_eq hJoins.2.1]
      exact Table.get?_erase_self _ _

/-
  Throughout a run every primary is at exactly one stage, if
  and only if no primary that waits for an opening takes over
  the companion of another.
-/
theorem exclusive_iff_not_usurps
    (paletteSize : Nat)
    (desk : Desk)
    (events : List Event) :
    (∀ k,
        ((Session.new paletteSize desk).run
          (events.take k)).registry.Exclusive) ↔
      ∀ k e, events[k]? = some e →
        ¬ ((Session.new paletteSize desk).run
          (events.take k)).Usurps e := by
  have hFiled := filed_run paletteSize desk
  apply run_forall_iff (P := fun t => t.registry.Exclusive)
  · apply PairRegistry.Apart.exclusive
    · intro p
      exact Or.inl rfl
    · exact PairRegistry.filed_new
  · intro k e he hExclusive
    have hState := hFiled (events.take k)
    have hNext := filed_step hState e
    have hApart := hExclusive.apart
    rw [PairRegistry.exclusive_iff_apart hNext]
    constructor
    · intro hKept hUsurps
      exact not_apart_of_usurps hApart hUsurps hKept
    · intro hNot
      exact apart_step hState hApart hNot

/- A page waits for a stylesheet and takes over another. -/
def waitingPage : Session Desk :=
  (Session.new 8 (Desk.new true)).run
    [.place "file:///index.html" .primary true,
      .place "file:///about.html" .primary true,
      .request "file:///a.css" "file:///about.html",
      .complete 0 true (some 1),
      .request "file:///b.css" "file:///index.html",
      .request "file:///a.css" "file:///index.html"]

/- The page is paired with one and waits for the other. -/
theorem waitingPage_paired :
    waitingPage.registry.pairForPrimary "file:///index.html" =
        some ⟨"file:///index.html", "file:///a.css"⟩ ∧
      waitingPage.registry.pendingFor "file:///index.html" =
        some ⟨"file:///index.html", "file:///b.css", 2⟩ ∧
      ¬ waitingPage.registry.Exclusive := by
  refine ⟨rfl, rfl, ?_⟩
  intro hExclusive
  rcases hExclusive.apart "file:///index.html" with
    hNone | hNone
  · cases hNone
  · cases hNone

end Session

----
-- One primary for a companion
----

namespace PairRegistry

/- No two pairs have the same companion. -/
def Unshared
    (r : PairRegistry) : Prop :=
  (r.pairList.map (·.companion)).Nodup

instance
    (r : PairRegistry) :
    Decidable r.Unshared :=
  inferInstanceAs (Decidable (List.Nodup _))

variable {r t : PairRegistry}

theorem Unshared.eq_of_companion
    (h : r.Unshared)
    {a b : DocumentPair}
    (ha : a ∈ r.pairList)
    (hb : b ∈ r.pairList)
    (hEq : a.companion = b.companion) :
    a = b :=
  List.inj_on_of_nodup_map h ha hb hEq

theorem Loses.unshared
    (hLost : r.Loses t)
    (h : r.Unshared) :
    t.Unshared :=
  h.sublist ((hLost.pairs.map _).map _)

/-
  A pair may be registered if no other primary has its
  companion.
-/
theorem Unshared.register_iff
    (h : r.Unshared)
    (hFiled : r.Filed)
    (p c : String) :
    (r.register p c).Unshared ↔
      ∀ pair ∈ r.pairList,
        pair.companion = c → pair.primary = p := by
  have hPerm :=
    (hFiled.pairList_register_perm p c).map (·.companion)
  have hRest := (r.loses_remove p).unshared h
  unfold Unshared at hRest ⊢
  rw [hPerm.nodup_iff, List.map_cons, List.nodup_cons]
  constructor
  · intro hNew pair hPair hCompanion
    apply Classical.byContradiction
    intro hOther
    have hMem :
        pair.companion ∈
          (r.remove p).pairList.map (·.companion) :=
      List.mem_map_of_mem
        (hFiled.mem_remove.mpr ⟨hPair, hOther⟩)
    rw [hCompanion] at hMem
    exact hNew.1 hMem
  · intro hAll
    refine ⟨?_, hRest⟩
    intro hMem
    rcases List.mem_map.mp hMem with ⟨pair, hPair, hEq⟩
    rcases hFiled.mem_remove.mp hPair with ⟨hOld, hOther⟩
    exact hOther (hAll pair hOld hEq)

/- A companion that moves leaves its primary. -/
theorem Unshared.notMem_remove
    (h : r.Unshared)
    (hFiled : r.Filed)
    {shared pair : DocumentPair}
    (hShared : shared ∈ r.pairList)
    (hPair : pair ∈ (r.remove shared.primary).pairList) :
    pair.companion ≠ shared.companion := by
  intro hEq
  rcases hFiled.mem_remove.mp hPair with ⟨hOld, hOther⟩
  rw [h.eq_of_companion hOld hShared hEq] at hOther
  exact hOther rfl

end PairRegistry

namespace Session

/-
  An opening completes and joins a pair although another
  primary has its companion.
-/
def Collides
    (s : Session Desk)
    (e : Event) : Prop :=
  match e with
  | .complete i ok lines =>
      ∃ q ∈ s.host.opens[i]?,
        (s.delivered i q ok lines).Joins q ok ∧
          ∃ pair ∈
              (s.delivered i q ok lines).registry.pairList,
            pair.companion = q.companion ∧
              pair.primary ≠ q.primary
  | _ => False

/-
  After a request its companion is that of no other primary.
-/
def Follows
    (s : Session Desk)
    (e : Event) : Prop :=
  ∀ pair ∈ s.asks e,
    ∀ other ∈ (s.step e).registry.pairList,
      other.companion = pair.companion → other = pair

variable {s : Session Desk} {e : Event}

/- A completion registers the pair beside the others. -/
theorem unshared_join_iff
    {q : PendingOpen}
    (hFiled : s.registry.Filed)
    (h : s.registry.Unshared) :
    ((s.registry.finishOpen q).1.register q.primary
        q.companion).Unshared ↔
      ¬ ∃ pair ∈ s.registry.pairList,
        pair.companion = q.companion ∧
          pair.primary ≠ q.primary := by
  have hLost := s.registry.loses_finishOpen q
  have hPairs :
      (s.registry.finishOpen q).1.pairList =
        s.registry.pairList :=
    congrArg Table.values (s.registry.pairs_finishOpen q)
  rw [(hLost.unshared h).register_iff (hLost.filed hFiled),
    hPairs]
  simp only [not_exists, not_and, ne_eq, not_not]

theorem not_unshared_of_collides
    (hFiled : s.registry.Filed)
    (h : s.registry.Unshared)
    (hCollides : s.Collides e) :
    ¬ (s.step e).registry.Unshared := by
  cases e with
  | complete i ok lines =>
      rcases hCollides with ⟨q, hIndex, hJoins, hOther⟩
      have hLost := s.loses_delivered i q ok lines
      change ¬ (s.complete i ok lines).1.registry.Unshared
      rw [complete_eq hIndex, registry_companionOpened hJoins,
        unshared_join_iff (hLost.filed hFiled)
          (hLost.unshared h)]
      exact fun hNot => hNot hOther
  | _ => cases hCollides

/- Nothing but a collision shares a companion. -/
theorem unshared_step
    (hFiled : s.registry.Filed)
    (h : s.registry.Unshared)
    (hNot : ¬ s.Collides e) :
    (s.step e).registry.Unshared := by
  have hTurn := turn_step hFiled e
  have hReconciled := s.loses_reconcile.unshared h
  have hKept := s.loses_reconcile.filed hFiled
  generalize (s.step e).registry = t at hTurn ⊢
  cases hTurn with
  | lose hLost => exact hLost.unshared h
  | serve hAsks hServes =>
      cases hServes with
      | renew hLost _ _ => exact hLost.unshared hReconciled
      | @takeOver t shared hLost _ hShared =>
          have hUnshared := hLost.unshared hReconciled
          have hFiled := hLost.filed hKept
          have hRemove := t.loses_remove shared.primary
          have hCompanion :=
            PairRegistry.companion_of_pairForCompanion hShared
          rw [(hRemove.unshared hUnshared).register_iff
            (hRemove.filed hFiled)]
          intro pair hPair hEq
          rw [← hCompanion] at hEq
          exact absurd hEq
            (hUnshared.notMem_remove hFiled
              (PairRegistry.mem_pairList_of_pairForCompanion
                hShared) hPair)
      | wait hLost _ _ _ _ => exact hLost.unshared hReconciled
      | begin hLost _ _ hIdle =>
          rw [PairRegistry.beginOpen_eq hIdle]
          exact hLost.unshared hReconciled
  | @join i ok lines q hEvent hIndex hJoins =>
      subst hEvent
      have hLost := s.loses_delivered i q ok lines
      rw [unshared_join_iff (hLost.filed hFiled)
        (hLost.unshared h)]
      intro hOther
      exact hNot ⟨q, hIndex, hJoins, hOther⟩

theorem follows_of_unshared
    (hFiled : s.registry.Filed)
    (h : s.registry.Unshared) :
    s.Follows e := by
  intro pair hAsks other hOther hEq
  rcases step_of_asks hAsks with ⟨m, hStep⟩
  rw [hStep] at hOther
  have hServes :
      s.reconcile.registry.Serves pair.primary pair.companion
        (s.showFor pair.primary pair.companion m).1.registry :=
    serves_showFor hFiled m
  have hUnshared := s.loses_reconcile.unshared h
  have hKept := s.loses_reconcile.filed hFiled
  generalize
    (s.showFor pair.primary pair.companion m).1.registry = t
    at hServes hOther
  cases hServes with
  | @renew t mine hLost hPair hCompanion =>
      have hSame : other = mine := by
        apply (hLost.unshared hUnshared).eq_of_companion hOther
        · exact PairRegistry.mem_pairList_of_pairForPrimary
            hPair
        · exact hEq.trans hCompanion.symm
      have hPrimary :=
        (hLost.filed hKept).primary_eq hPair
      subst hSame
      cases pair
      cases other
      simp_all
  | @takeOver t shared hLost hFree hShared =>
      have hTaken := hLost.filed hKept
      have hRemove :=
        (t.loses_remove shared.primary).filed hTaken
      have hCompanion :=
        PairRegistry.companion_of_pairForCompanion hShared
      rcases hRemove.mem_register.mp hOther with
        hNew | ⟨hLeft, -⟩
      · exact hNew
      · rw [← hCompanion] at hEq
        exact absurd hEq
          ((hLost.unshared hUnshared).notMem_remove hTaken
            (PairRegistry.mem_pairList_of_pairForCompanion
              hShared) hLeft)
  | wait _ _ hNone _ _ =>
      rw [PairRegistry.pairForCompanion_eq_none_iff] at hNone
      exact absurd hEq (hNone other hOther)
  | begin _ _ hNone hIdle =>
      rw [PairRegistry.beginOpen_eq hIdle] at hOther
      rw [PairRegistry.pairForCompanion_eq_none_iff] at hNone
      exact absurd hEq (hNone other hOther)

/-
  Throughout a run no two pairs have the same companion and
  every companion follows the latest request for it, if and
  only if no opening joins a companion that another primary
  has.
-/
theorem unshared_iff_not_collides
    (paletteSize : Nat)
    (desk : Desk)
    (events : List Event) :
    (∀ k,
        ((Session.new paletteSize desk).run
            (events.take k)).registry.Unshared ∧
          ∀ e, events[k]? = some e →
            ((Session.new paletteSize desk).run
              (events.take k)).Follows e) ↔
      ∀ k e, events[k]? = some e →
        ¬ ((Session.new paletteSize desk).run
          (events.take k)).Collides e := by
  have hFiled := filed_run paletteSize desk
  have hUnshared :
      (∀ k,
        ((Session.new paletteSize desk).run
          (events.take k)).registry.Unshared) ↔
        ∀ k e, events[k]? = some e →
          ¬ ((Session.new paletteSize desk).run
            (events.take k)).Collides e := by
    apply run_forall_iff (P := fun t => t.registry.Unshared)
    · exact List.nodup_nil
    · intro k e _ hState
      constructor
      · intro hKept hCollides
        exact not_unshared_of_collides (hFiled _) hState
          hCollides hKept
      · intro hNot
        exact unshared_step (hFiled _) hState hNot
  rw [← hUnshared]
  constructor
  · intro hAll k
    exact (hAll k).1
  · intro hAll k
    refine ⟨hAll k, fun e _ => ?_⟩
    exact follows_of_unshared (hFiled _) (hAll k)

/-
  Two pages ask for one stylesheet before it is open, and both
  openings complete.
-/
def stylesheetOfTwo : Session Desk :=
  (Session.new 8 (Desk.new true)).run
    [.place "file:///index.html" .primary true,
      .place "file:///about.html" .primary true,
      .request "file:///a.css" "file:///index.html",
      .request "file:///a.css" "file:///about.html",
      .complete 0 true (some 1),
      .complete 0 true (some 1)]

/- Both pages have it. -/
theorem stylesheetOfTwo_shared :
    stylesheetOfTwo.registry.pairList =
        [⟨"file:///index.html", "file:///a.css"⟩,
          ⟨"file:///about.html", "file:///a.css"⟩] ∧
      ¬ stylesheetOfTwo.registry.Unshared :=
  ⟨rfl, by decide⟩

end Session

end Pairing

end StyleCompanion
