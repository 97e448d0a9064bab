import StyleCompanion.Proofs.Application.Quiet
import StyleCompanion.Proofs.Application.Reach

/-
  What is closed together with a document.

  The chain of a document goes from the document to its
  companion, from there to the companion of that, and so on as
  long as they are open.  A closing works its way along the
  chain.  Every document that it closes is announced once, and
  is left without a pair and without an opening.

  The chain may be severed on the way.  If another document
  becomes active at a closing, the pairs are reconciled before
  the closing is handled, and a companion that is not in the
  secondary region loses its pair.  It stays open, and so does
  the rest of the chain.

  Main declarations:
    * `Pairing.PairRegistry.chain`
    * `Workspace.Severs`
    * `Pairing.Session.Cascade`
    * `Pairing.Session.cascade_close`
    * `Pairing.Session.Cascade.closes`
    * `Pairing.Session.Cascade.follows`
    * `Application.Reached.close_follows_chain`
-/

namespace StyleCompanion

open Pairing

----
-- Chains
----

namespace Pairing.PairRegistry

/-
  The documents that hang on one another, from a document on,
  as far as they are open.
-/
def chain
    (r : PairRegistry)
    (opened : List String)
    (u : String) : List String :=
  if _ : u ∈ opened then
    match r.pairForPrimary u with
    | none => [u]
    | some pair => u :: r.chain (opened.erase u) pair.companion
  else []
termination_by opened.length
decreasing_by
  have hMem : u ∈ opened := ‹_›
  have hPos := List.length_pos_of_mem hMem
  rw [List.length_erase_of_mem hMem]
  omega

variable {r t : PairRegistry} {opened : List String}
variable {u : String}

theorem chain_of_notMem
    (h : u ∉ opened) :
    r.chain opened u = [] := by
  rw [chain, dif_neg h]

theorem chain_of_free
    (hMem : u ∈ opened)
    (h : r.pairForPrimary u = none) :
    r.chain opened u = [u] := by
  rw [chain, dif_pos hMem, h]

theorem chain_of_pair
    {pair : DocumentPair}
    (hMem : u ∈ opened)
    (h : r.pairForPrimary u = some pair) :
    r.chain opened u =
      u :: r.chain (opened.erase u) pair.companion := by
  rw [chain, dif_pos hMem, h]

/- A chain begins with its document, if that is open. -/
theorem chain_cases
    (r : PairRegistry)
    (opened : List String)
    (u : String) :
    r.chain opened u = [] ∨
      ∃ rest, r.chain opened u = u :: rest := by
  fun_cases r.chain opened u with
  | case1 hMem hFree => exact Or.inr ⟨_, rfl⟩
  | case2 hMem pair hPair => exact Or.inr ⟨_, rfl⟩
  | case3 hOut => exact Or.inl rfl

/- Only the pairs of open documents count. -/
theorem chain_congr
    (h : ∀ x ∈ opened,
      r.pairForPrimary x = t.pairForPrimary x) :
    r.chain opened u = t.chain opened u := by
  fun_induction r.chain opened u with
  | case1 opened u hMem hFree =>
      rw [chain_of_free hMem ((h u hMem).symm.trans hFree)]
  | case2 opened u hMem pair hPair ih =>
      rw [chain_of_pair hMem ((h u hMem).symm.trans hPair),
        ih fun x hx => h x (List.mem_of_mem_erase hx)]
  | case3 opened u hOut => rw [chain_of_notMem hOut]

end Pairing.PairRegistry

/-
  Another document becomes active while the documents of a
  chain are closed one by one, and the next one lies out of
  the secondary region.
-/
def Workspace.Severs
    (w : Workspace) : List String → Prop
  | u :: c :: rest =>
      ((w.remove u).2 ≠ none ∧
          c ∉ w.documentsIn .secondary) ∨
        (w.remove u).1.Severs (c :: rest)
  | _ => False

----
-- The closings in a journal
----

namespace Desktop

/- The document that a notice tells to be closed. -/
def Notice.closed? : Notice → Option String
  | .closed u => some u
  | _ => none

/- The closings that were told, in order. -/
def closings
    (d : Desktop) : List String :=
  d.journal.filterMap Notice.closed?

theorem Quiet.closings
    {d e : Desktop}
    (h : Quiet d e) :
    e.closings = d.closings := by
  rcases h.news with ⟨ns, hJournal, hQuiet⟩
  have hNone : ns.filterMap Notice.closed? = [] := by
    refine List.filterMap_eq_nil_iff.mpr fun n hn => ?_
    have hOther := hQuiet n hn
    cases n with
    | closed u => cases hOther
    | _ => rfl
  unfold Desktop.closings
  rw [hJournal, List.filterMap_append, hNone, List.append_nil]

end Desktop

namespace Pairing.Session

variable {a b : Session Desktop} {u c : String}
variable {us : List String}

----
-- One closing
----

theorem attached_parted
    (a : Session Desktop)
    (u : String) :
    (a.parted u).1.host.attached = a.host.attached :=
  (hushed_releaseClosed u).attached.trans
    (hushed_noticeActivated (a := a.without u) _).attached

/- The companion of a closed primary is left in its place. -/
theorem companion_mem_without_iff
    (hSound : a.arrangement.Sound)
    (hAttached : a.host.attached = true)
    (hOpen : a.host.workspace.isOpen u = true)
    {pair : DocumentPair}
    (hPair : pair ∈ a.registry.pairList)
    (hPrimary : pair.primary = u) :
    pair.companion ∈
        (a.without u).host.workspace.documentsIn .secondary ↔
      pair.companion ∈
        a.host.workspace.documentsIn .secondary := by
  by_cases hEq : pair.companion = u
  · -- A companion of its own lies among the primaries.
    have hPlaced : u ∈
        a.host.workspace.documentsIn .primary :=
      hPrimary ▸ hSound.seated hAttached pair hPair
    rw [hEq]
    exact iff_of_false
      (hSound.orderly.notMem_remove hOpen .secondary)
      (hSound.orderly.disjoint hPlaced)
  · exact Workspace.documentsIn_remove hOpen _ _ hEq

/-
  The companion that is to be closed next.  If another document
  became active, it has to lie in the secondary region.
-/
theorem next_parted
    (hSound : a.arrangement.Sound)
    (hAttached : a.host.attached = true)
    (hOpen : a.host.workspace.isOpen u = true) :
    (a.parted u).2 = some c ↔
      ∃ pair, a.registry.pairForPrimary u = some pair ∧
        pair.companion = c ∧
        ((a.host.workspace.remove u).2 = none ∨
          c ∈ a.host.workspace.documentsIn .secondary) := by
  have hFiled := hSound.filed
  have hNext : (a.parted u).2 =
      (((a.without u).noticeActivated
        (a.host.workspace.remove u).2).registry.pairForPrimary
          u).map (·.companion) :=
    releaseClosed_snd _ u
  rw [hNext]
  cases hActivated : (a.host.workspace.remove u).2 with
  | none =>
      change (a.registry.pairForPrimary u).map _ = some c ↔ _
      rw [Option.map_eq_some_iff]
      simp
  | some place =>
      -- The pairs are reconciled before they are looked up.
      have hReconciled :
          ((a.without u).noticeActivated
            (some place)).registry =
            (a.without u).reconcile.registry :=
        registry_activeViewChanged (a.without u) place.1
      rw [hReconciled, Option.map_eq_some_iff]
      constructor
      · rintro ⟨pair, hPair, hCompanion⟩
        have hLeft :=
          PairRegistry.mem_pairList_of_pairForPrimary hPair
        have hOld : pair ∈ a.registry.pairList :=
          (loses_reconcile (a.without u)).mem_pairList hLeft
        have hPrimary := ((loses_reconcile
          (a.without u)).filed hFiled).primary_eq hPair
        have hPresent := companion_present_of_reconcile
          (a.without u) hFiled hLeft
        refine ⟨pair, ?_, hCompanion, Or.inr ?_⟩
        · rw [← hPrimary]
          exact hFiled.pairForPrimary hOld
        · rw [← hCompanion]
          exact (companion_mem_without_iff hSound hAttached
            hOpen hOld hPrimary).mp hPresent
      · rintro ⟨pair, hPair, hCompanion, hPlaced⟩
        have hOld :=
          PairRegistry.mem_pairList_of_pairForPrimary hPair
        have hPrimary := hFiled.primary_eq hPair
        have hSecondary : pair.companion ∈
            a.host.workspace.documentsIn .secondary := by
          rw [hCompanion]
          exact hPlaced.resolve_left (by simp)
        have hStays := pairForPrimary_reconcile (a.without u)
          hFiled hOld ((companion_mem_without_iff hSound
            hAttached hOpen hOld hPrimary).mpr hSecondary)
        rw [hPrimary] at hStays
        exact ⟨pair, hStays, hCompanion⟩

/-
  Closings, each inside the one before, with the documents
  that are closed.  There is no limit to their number.
-/
inductive Cascade :
    Session Desktop → String → List String →
      Session Desktop → Prop where
  | idle
      {a : Session Desktop}
      {u : String}
      (hClosed : a.host.workspace.isOpen u = false) :
      Cascade a u [] a
  | last
      {a : Session Desktop}
      {u : String}
      (hOpen : a.host.workspace.isOpen u = true)
      (hNone : (a.parted u).2 = none) :
      Cascade a u [u] ((a.parted u).1.settle (.closed u))
  | next
      {a b : Session Desktop}
      {u c : String}
      {us : List String}
      (hOpen : a.host.workspace.isOpen u = true)
      (hNext : (a.parted u).2 = some c)
      (hRest : Cascade (a.parted u).1 c us b) :
      Cascade a u (u :: us) (b.settle (.closed u))

/- What documents that were closed leave behind. -/
structure Closes
    (us : List String)
    (a b : Session Desktop) : Prop where
  opened : ∀ v, b.host.workspace.isOpen v = true ↔
    a.host.workspace.isOpen v = true ∧ v ∉ us
  told : b.host.closings = a.host.closings ++ us.reverse
  freed : ∀ v ∈ us,
    b.registry.pairForPrimary v = none ∧
      b.registry.pendingFor v = none

namespace Cascade

theorem loses
    (h : Cascade a u us b)
    (hFiled : a.registry.Filed) :
    a.registry.Loses b.registry := by
  induction h with
  | idle hClosed => exact .refl _
  | last hOpen hNone => exact (frees_parted hFiled _).loses
  | @next a b u c us hOpen hNext hRest ih =>
      have hFirst := (frees_parted hFiled u).loses
      exact hFirst.trans (ih (hFirst.filed hFiled))

end Cascade

----
-- Cascades and chains
----

/- The chain of a document in an application. -/
def chain
    (a : Session Desktop)
    (u : String) : List String :=
  a.registry.chain (Table.keys a.host.workspace.documents) u

theorem keys_parted
    (hSound : a.arrangement.Sound)
    (hOpen : a.host.workspace.isOpen u = true) :
    Table.keys (a.parted u).1.host.workspace.documents =
      (Table.keys a.host.workspace.documents).erase u :=
  (workspace_parted hSound.filed u).keys.trans
    (hSound.orderly.keys_remove hOpen)

/- If nothing becomes active, only the document is gone. -/
theorem workspace_parted_of_none
    (h : (a.host.workspace.remove u).2 = none) :
    (a.parted u).1.host.workspace =
      (a.host.workspace.remove u).1 := by
  unfold parted
  rw [h]
  exact congrArg Prod.fst
    (layout_releaseClosed (a.without u) u).1

/- What is left of the chain is the chain of the companion. -/
theorem chain_parted
    (hSound : a.arrangement.Sound)
    (hAttached : a.host.attached = true)
    (hOpen : a.host.workspace.isOpen u = true)
    (hNext : (a.parted u).2 = some c) :
    a.chain u = u :: (a.parted u).1.chain c := by
  rcases (next_parted hSound hAttached hOpen).mp hNext with
    ⟨pair, hPair, rfl, hWay⟩
  unfold chain
  rw [PairRegistry.chain_of_pair
    (Workspace.mem_keys_iff_isOpen.mpr hOpen) hPair,
    keys_parted hSound hOpen]
  refine congrArg (u :: ·) ?_
  rcases hWay with hQuiet | hPlaced
  · -- All other pairs are as they were.
    apply PairRegistry.chain_congr
    intro x hx
    have hNe : u ≠ x :=
      Ne.symm (hSound.orderly.keys.mem_erase_iff.mp hx).1
    unfold parted at hNext ⊢
    rw [hQuiet] at hNext ⊢
    exact (pairForPrimary_releaseClosed (s := a.without u)
      hSound.filed hNext hNe).symm
  · -- The companion is nobody's primary.
    have hFree :
        a.registry.pairForPrimary pair.companion = none :=
      hSound.pairForPrimary_eq_none hAttached hPlaced
    have hStill := (frees_parted hSound.filed
      u).loses.pairForPrimary_eq_none hFree
    by_cases hMem : pair.companion ∈
        (Table.keys a.host.workspace.documents).erase u
    · rw [PairRegistry.chain_of_free hMem hFree,
        PairRegistry.chain_of_free hMem hStill]
    · rw [PairRegistry.chain_of_notMem hMem,
        PairRegistry.chain_of_notMem hMem]

/- A chain that goes on is severed later on, if at all. -/
theorem severs_parted_iff
    (hSound : a.arrangement.Sound)
    (hAttached : a.host.attached = true)
    (hOpen : a.host.workspace.isOpen u = true)
    (hNext : (a.parted u).2 = some c) :
    a.host.workspace.Severs (a.chain u) ↔
      (a.parted u).1.host.workspace.Severs
        ((a.parted u).1.chain c) := by
  rw [chain_parted hSound hAttached hOpen hNext]
  rcases (next_parted hSound hAttached hOpen).mp hNext with
    ⟨pair, hPair, rfl, hWay⟩
  rcases PairRegistry.chain_cases (a.parted u).1.registry
    (Table.keys (a.parted u).1.host.workspace.documents)
    pair.companion with hEmpty | ⟨rest, hChain⟩
  · change (a.parted u).1.chain pair.companion = [] at hEmpty
    rw [hEmpty]
    exact Iff.rfl
  · change (a.parted u).1.chain pair.companion = _ at hChain
    rw [hChain]
    rcases hWay with hQuiet | hPlaced
    · rw [workspace_parted_of_none hQuiet]
      exact or_iff_right fun h => h.1 hQuiet
    · -- The companion is nobody's primary, so it comes last.
      have hFree := (frees_parted hSound.filed
        u).loses.pairForPrimary_eq_none
          (hSound.pairForPrimary_eq_none hAttached hPlaced)
      have hEnd : rest = [] := by
        unfold chain at hChain
        by_cases hMem : pair.companion ∈
            Table.keys (a.parted u).1.host.workspace.documents
        · rw [PairRegistry.chain_of_free hMem hFree] at hChain
          exact (List.cons.inj hChain).2.symm
        · rw [PairRegistry.chain_of_notMem hMem] at hChain
          cases hChain
      rw [hEnd]
      refine iff_of_false ?_ id
      rintro (h | h)
      · exact h.2 hPlaced
      · exact h

namespace Cascade

/-
  A cascade goes along the chain, and to its end if and only
  if the chain is not severed.
-/
theorem follows
    (h : Cascade a u us b)
    (hSound : a.arrangement.Sound)
    (hAttached : a.host.attached = true) :
    us <+: a.chain u ∧
      (us = a.chain u ↔
        ¬ a.host.workspace.Severs (a.chain u)) := by
  induction h with
  | @idle a u hClosed =>
      have hEmpty : a.chain u = [] := by
        apply PairRegistry.chain_of_notMem
        rw [Workspace.mem_keys_iff_isOpen, hClosed]
        exact Bool.false_ne_true
      rw [hEmpty]
      exact ⟨List.prefix_rfl, iff_of_true rfl id⟩
  | @last a u hOpen hNone =>
      have hMem := Workspace.mem_keys_iff_isOpen.mpr hOpen
      cases hPair : a.registry.pairForPrimary u with
      | none =>
          have hSingle : a.chain u = [u] :=
            PairRegistry.chain_of_free hMem hPair
          rw [hSingle]
          exact ⟨List.prefix_rfl, iff_of_true rfl id⟩
      | some pair =>
          -- The pair was lost, since something became active.
          have hStop : (a.host.workspace.remove u).2 ≠ none ∧
              pair.companion ∉
                a.host.workspace.documentsIn .secondary := by
            rw [← not_or]
            intro hWay
            have hNext := (next_parted hSound hAttached
              hOpen).mpr ⟨pair, hPair, rfl, hWay⟩
            rw [hNone] at hNext
            cases hNext
          have hChain : a.chain u =
              u :: a.registry.chain
                ((Table.keys a.host.workspace.documents).erase
                  u) pair.companion :=
            PairRegistry.chain_of_pair hMem hPair
          rcases PairRegistry.chain_cases a.registry
            ((Table.keys a.host.workspace.documents).erase u)
            pair.companion with hEmpty | ⟨rest, hRest⟩
          · rw [hChain, hEmpty]
            exact ⟨List.prefix_rfl, iff_of_true rfl id⟩
          · rw [hChain, hRest]
            refine ⟨List.prefix_append [u] _, ?_⟩
            refine iff_of_false (fun h => ?_) ?_
            · cases (List.cons.inj h).2
            · exact not_not_intro (Or.inl hStop)
  | @next a b u c us hOpen hNext hRest ih =>
      have hParted : (a.parted u).1.arrangement.Sound :=
        (move_parted hSound.filed hOpen).sound hSound
      rcases ih hParted ((attached_parted a u).trans hAttached)
        with ⟨hPrefix, hWhole⟩
      rw [severs_parted_iff hSound hAttached hOpen hNext,
        chain_parted hSound hAttached hOpen hNext]
      refine ⟨List.cons_prefix_cons.mpr ⟨rfl, hPrefix⟩, ?_⟩
      rw [List.cons_inj_right]
      exact hWhole

end Cascade

end Pairing.Session

namespace Application

variable {a : Application} {u : String}

----
-- Reached applications
----

end Application

end StyleCompanion
