import Mathlib.Data.List.Count
import StyleCompanion.Proofs.Pairing.Effects

/-
  The chain of closings on a desk.

  Closing a document that is reported to be closed closes the
  companion of its pair, and so on along the pairs.  No other
  document is closed, and no other model is dropped.

  Main declarations:
    * `Session.closeWithin_succ`
    * `Session.releaseClosed_of_pair`
    * `Session.releaseClosed_of_free`
    * `Session.Hangs`
    * `Session.closeWithin_chain`
    * `Session.count_close_iff`
-/

namespace StyleCompanion

namespace Pairing

namespace Session

----
-- One closing
----

/- The session on a desk where a document was closed. -/
def shut
    (s : Session Desk)
    (uri : String) : Session Desk :=
  { s with host := (s.host.close uri).host }

/- Other records on the desk. -/
def withRecords
    (s : Session Desk)
    (records : List LogRecord) : Session Desk :=
  { s with host := { s.host with records := records } }

/- The opening of a primary is given up. -/
def withoutPending
    (s : Session Desk)
    (uri : String) : Session Desk :=
  { s with registry := (s.registry.cancelOpen uri).1 }

/- A closing goes on with the companion that it releases. -/
theorem closeWithin_succ
    (n : Nat)
    (s : Session Desk)
    (uri : String) :
    closeWithin (n + 1) s uri =
      if (s.host.close uri).reported = true then
        match ((s.shut uri).releaseClosed uri).2 with
        | none => ((s.shut uri).releaseClosed uri).1
        | some companion =>
            closeWithin n
              ((s.shut uri).releaseClosed uri).1 companion
      else s.shut uri := rfl

variable {s : Session Desk} {uri : String}

/- Giving up nothing changes nothing. -/
theorem withoutPending_eq_self
    (h : s.registry.pendingFor uri = none) :
    s.withoutPending uri = s := by
  have hErase :=
    Table.erase_of_notMem_keys
      (PairRegistry.pendingFor_eq_none_iff.mp h)
  unfold withoutPending PairRegistry.cancelOpen
  rw [hErase]

/-
  A closed primary gives up its opening and releases the
  companion of its pair.
-/
theorem releasePrimary_eq
    (s : Session Desk)
    (uri : String) :
    ∃ records,
      s.releasePrimary uri =
        match s.registry.pairForPrimary uri with
        | none =>
            ((s.withoutPending uri).withRecords records, none)
        | some pair =>
            (((s.withoutPending uri).withRecords
              records).dropPair pair, some pair.companion) := by
  have hLogged :
      ∃ records,
        (if (s.registry.cancelOpen uri).2.isSome then
            (s.withoutPending uri).debug
              ("Cancelled in-flight companion open for " ++ uri)
          else s.withoutPending uri) =
        (s.withoutPending uri).withRecords records := by
    split
    · exact ⟨_, rfl⟩
    · exact ⟨s.host.records, rfl⟩
  rcases hLogged with ⟨records, hLogged⟩
  have hKept :
      ((s.withoutPending uri).withRecords
          records).registry.pairForPrimary uri =
        s.registry.pairForPrimary uri := rfl
  unfold releasePrimary
  unfold withoutPending at hLogged hKept ⊢
  dsimp only
  rw [hLogged, hKept]
  cases s.registry.pairForPrimary uri with
  | none => exact ⟨_, rfl⟩
  | some pair => exact ⟨records, rfl⟩

/- A paired primary that is closed releases its companion. -/
theorem releaseClosed_of_pair
    {pair : DocumentPair}
    (h : s.registry.pairForPrimary uri = some pair) :
    ∃ records,
      s.releaseClosed uri =
        (((s.withoutPending uri).withRecords
          records).dropPair pair, some pair.companion) := by
  rcases s.releasePrimary_eq uri with ⟨records, hRelease⟩
  rw [h] at hRelease
  refine ⟨records, ?_⟩
  unfold releaseClosed
  rw [h, hRelease]
  rfl

/-
  Without a pair of its own a document releases nothing.  It
  may end the pair that it is the companion of.
-/
theorem releaseClosed_of_free
    (hFree : s.registry.pairForPrimary uri = none) :
    (∃ records,
      s.releaseClosed uri =
          ((s.withoutPending uri).withRecords records,
            none) ∧
        (s.registry.pendingFor uri = none →
          s.registry.pairForCompanion uri = none)) ∨
      ∃ pair,
        s.registry.pairForCompanion uri = some pair ∧
          s.releaseClosed uri = (s.dropPair pair, none) := by
  cases hPending : s.registry.pendingFor uri with
  | some q =>
      rcases s.releasePrimary_eq uri with ⟨records, hRelease⟩
      rw [hFree] at hRelease
      refine Or.inl ⟨records, ?_, fun hNone => ?_⟩
      · unfold releaseClosed
        rw [hFree, hPending, hRelease]
        rfl
      · cases hNone
  | none =>
      rw [releaseClosed_eq s uri hFree hPending,
        withoutPending_eq_self hPending]
      cases hFound : s.registry.pairForCompanion uri with
      | none =>
          exact Or.inl
            ⟨s.host.records ++ [_], rfl, fun _ => rfl⟩
      | some pair =>
          refine Or.inr ⟨pair, rfl, ?_⟩
          simp only [companionClosed, hFound,
            Option.isSome_some, if_true]

----
-- Documents that hang on another
----

/-
  A document that is closed when another is: the closings on
  the way to it are reported, and each is that of a primary.
-/
inductive Hangs
    (s : Session Desk)
    (uri : String) : String → Prop where
  | self : Hangs s uri uri
  | next
      {v : String}
      {pair : DocumentPair}
      (h : Hangs s uri v)
      (hReported : (s.host.close v).reported = true)
      (hPair : s.registry.pairForPrimary v = some pair) :
      Hangs s uri pair.companion

variable {t : Session Desk} {d : String}

/- The models and the records hold nothing. -/
theorem Hangs.congr
    (h : s.Hangs uri d)
    (hRegistry : t.registry = s.registry)
    (hReported :
      ∀ v,
        (t.host.close v).reported =
          (s.host.close v).reported) :
    t.Hangs uri d := by
  induction h with
  | self => exact .self
  | next _ hClosed hPair ih =>
      rw [← hReported] at hClosed
      rw [← hRegistry] at hPair
      exact ih.next hClosed hPair

/- Nothing hangs on a document without a pair. -/
theorem hangs_iff_of_free
    (hFree : s.registry.pairForPrimary uri = none) :
    s.Hangs uri d ↔ d = uri := by
  constructor
  · intro h
    induction h with
    | self => rfl
    | next _ _ hPair ih =>
        subst ih
        rw [hFree] at hPair
        cases hPair
  · intro h
    subst h
    exact .self

/- Nothing hangs on a document that closes unreported. -/
theorem hangs_iff_of_unreported
    (hQuiet : (s.host.close uri).reported ≠ true) :
    s.Hangs uri d ↔ d = uri := by
  constructor
  · intro h
    induction h with
    | self => rfl
    | next _ hReported _ ih =>
        subst ih
        exact absurd hReported hQuiet
  · intro h
    subst h
    exact .self

/-
  What hangs on a paired primary is the primary itself, or
  hangs on its companion without the primary.
-/
theorem hangs_iff_of_pair
    {pair : DocumentPair}
    (hReported : (s.host.close uri).reported = true)
    (hPair : s.registry.pairForPrimary uri = some pair)
    (hGone : t.registry.pairForPrimary uri = none)
    (hPairs :
      ∀ v, v ≠ uri →
        t.registry.pairForPrimary v =
          s.registry.pairForPrimary v)
    (hHost : Desk.SameBut uri s.host t.host) :
    s.Hangs uri d ↔ d = uri ∨ t.Hangs pair.companion d := by
  have hClose : ∀ v, v ≠ uri →
      (t.host.close v).reported =
        (s.host.close v).reported := by
    intro v hv
    rw [Desk.close_reported, Desk.close_reported,
      hHost.reporting, Bool.eq_iff_iff.mpr (hHost.isOpen hv)]
  constructor
  · intro h
    induction h with
    | self => exact Or.inl rfl
    | @next v w _ hClosed hNext ih =>
        refine Or.inr ?_
        by_cases hv : v = uri
        · subst hv
          rw [hPair] at hNext
          cases hNext
          exact .self
        · rcases ih with hEq | hHangs
          · exact absurd hEq hv
          · rw [← hClose v hv] at hClosed
            rw [← hPairs v hv] at hNext
            exact hHangs.next hClosed hNext
  · intro h
    rcases h with hEq | hHangs
    · subst hEq
      exact .self
    · induction hHangs with
      | self => exact Hangs.self.next hReported hPair
      | @next v w _ hClosed hNext ih =>
          have hv : v ≠ uri := by
            intro hEq
            subst hEq
            rw [hGone] at hNext
            cases hNext
          rw [hClose v hv] at hClosed
          rw [hPairs v hv] at hNext
          exact ih.next hClosed hNext

----
-- The chain of closings
----

/- A closing is noted down. -/
theorem calls_shut
    (s : Session Desk)
    (uri : String) :
    (s.shut uri).host.calls =
      s.host.calls ++ [.close uri] := by
  have hOut : ∀ d : Desk, (d.takeOut uri).calls = d.calls := by
    intro d
    unfold Desk.takeOut
    cases d.regionOf uri with
    | none => rfl
    | some region => cases region <;> rfl
  have hClosed := hOut (s.host.note (.close uri))
  unfold shut Desk.close
  dsimp only
  split
  · exact hClosed
  · exact hClosed

/-
  Where the chain ends, one document is closed, and no other
  loses its model.
-/
theorem closeWithin_end
    (n : Nat)
    (hEnd :
      (s.host.close uri).reported = true →
        s.registry.pairForPrimary uri = none) :
    (closeWithin (n + 1) s uri).host.calls =
        s.host.calls ++ [.close uri] ∧
      (∀ d, s.Hangs uri d ↔ d = uri) ∧
      ∀ d, d ≠ uri →
        Table.get? (closeWithin (n + 1) s uri).models d =
          Table.get? s.models d := by
  rw [closeWithin_succ]
  by_cases hReported : (s.host.close uri).reported = true
  · have hFree := hEnd hReported
    have hHangs : ∀ d, s.Hangs uri d ↔ d = uri :=
      fun _ => hangs_iff_of_free hFree
    rw [if_pos hReported]
    rcases releaseClosed_of_free (s := s.shut uri) hFree with
      ⟨records, hRelease, -⟩ | ⟨pair, hFound, hRelease⟩
    · rw [hRelease]
      exact ⟨s.calls_shut uri, hHangs, fun _ _ => rfl⟩
    · have hCompanion :=
        PairRegistry.companion_of_pairForCompanion hFound
      subst hCompanion
      rw [hRelease]
      exact ⟨s.calls_shut _, hHangs,
        (sameBut_dropPair (s.shut _) pair).models⟩
  · rw [if_neg hReported]
    exact ⟨s.calls_shut uri,
      fun _ => hangs_iff_of_unreported hReported,
      fun _ _ => rfl⟩

/-
  Where the chain goes on, the pair is gone when the companion
  is closed.
-/
theorem closeWithin_next
    (n : Nat)
    {pair : DocumentPair}
    (hFiled : s.registry.Filed)
    (hReported : (s.host.close uri).reported = true)
    (hPair : s.registry.pairForPrimary uri = some pair) :
    ∃ t : Session Desk,
      closeWithin (n + 1) s uri =
          closeWithin n t pair.companion ∧
        t.registry.Filed ∧
        t.registry.size < s.registry.size ∧
        t.host.calls = s.host.calls ++ [.close uri] ∧
        (∀ d, s.Hangs uri d ↔
          d = uri ∨ t.Hangs pair.companion d) ∧
        ∀ d, d ≠ pair.companion →
          Table.get? t.models d = Table.get? s.models d := by
  have hPrimary := hFiled.primary_eq hPair
  subst hPrimary
  have hShut :
      (s.shut pair.primary).registry.pairForPrimary
        pair.primary = some pair := hPair
  rcases releaseClosed_of_pair hShut with ⟨records, hRelease⟩
  refine ⟨(((s.shut pair.primary).withoutPending
    pair.primary).withRecords records).dropPair pair,
    ?_, ?_, ?_, s.calls_shut pair.primary, ?_,
    (sameBut_dropPair _ pair).models⟩
  · rw [closeWithin_succ, if_pos hReported, hRelease]
  · apply PairRegistry.Loses.filed _ hFiled
    exact (s.registry.loses_cancelOpen _).trans
      (PairRegistry.loses_remove _ _)
  · exact PairRegistry.size_remove_lt hPair
  · intro d
    apply hangs_iff_of_pair hReported hPair
    · exact Table.get?_erase_self _ _
    · intro v hv
      exact (Table.get?_erase _ _ v).trans
        (if_neg (Ne.symm hv))
    · have hNotes :
          ((s.shut pair.primary).withRecords
              records).host.forgetNotes =
            (s.shut pair.primary).host.forgetNotes := rfl
      exact (s.host.sameBut_close pair.primary).trans
        (Desk.sameBut_of_forgetNotes hNotes _)

/-
  Just the documents that hang on a document are closed, and
  no other loses its model.
-/
theorem closeWithin_chain
    {fuel : Nat}
    (hFuel : s.registry.size < fuel)
    (hFiled : s.registry.Filed)
    (uri : String) :
    ∃ chain : List String,
      (closeWithin fuel s uri).host.calls =
          s.host.calls ++ chain.map .close ∧
        (∀ d, s.Hangs uri d ↔ d ∈ chain) ∧
        ∀ d, d ∉ chain →
          Table.get? (closeWithin fuel s uri).models d =
            Table.get? s.models d := by
  -- Each step uses up a pair, so the fuel is never used up.
  induction fuel generalizing s uri with
  | zero => exact absurd hFuel (Nat.not_lt_zero _)
  | succ n ih =>
      by_cases hEnd :
          (s.host.close uri).reported = true →
            s.registry.pairForPrimary uri = none
      · rcases closeWithin_end n hEnd with
          ⟨hCalls, hHangs, hModels⟩
        refine ⟨[uri], hCalls, ?_, ?_⟩
        · intro d
          rw [hHangs, List.mem_singleton]
        · intro d hd
          rw [List.mem_singleton] at hd
          exact hModels d hd
      · rw [Classical.not_imp] at hEnd
        rcases Option.ne_none_iff_exists'.mp hEnd.2 with
          ⟨pair, hPair⟩
        rcases closeWithin_next n hFiled hEnd.1 hPair with
          ⟨t, hNext, hKept, hSize, hCalls, hHangs, hModels⟩
        rcases ih (by omega) hKept pair.companion with
          ⟨chain, hRest, hChain, hOthers⟩
        rw [hNext]
        refine ⟨uri :: chain, ?_, ?_, ?_⟩
        · rw [hRest, hCalls, List.append_assoc]
          rfl
        · intro d
          rw [hHangs, hChain, List.mem_cons]
        · intro d hd
          rw [List.mem_cons, not_or] at hd
          have hCompanion : d ≠ pair.companion := by
            intro hEq
            subst hEq
            exact hd.2 ((hChain _).mp .self)
          rw [hOthers d hd.2, hModels d hCompanion]

/- A document is closed if it hangs on the one that is. -/
theorem count_close_iff
    (hFiled : s.registry.Filed)
    (uri d : String) :
    (s.close uri).host.calls.count (.close d) =
        s.host.calls.count (.close d) ↔
      ¬ s.Hangs uri d := by
  rcases closeWithin_chain (Nat.lt_succ_self s.registry.size)
      hFiled uri with
    ⟨chain, hCalls, hChain, -⟩
  rw [close, hCalls, hChain, List.count_append,
    List.count_map_of_injective _ _ fun _ _ => DeskCall.close.inj,
    Nat.add_eq_left, List.count_eq_zero]

/- Only what is closed loses its model. -/
theorem get?_models_close
    (hFiled : s.registry.Filed)
    (h : ¬ s.Hangs uri d) :
    Table.get? (s.close uri).models d =
      Table.get? s.models d := by
  rcases closeWithin_chain (Nat.lt_succ_self s.registry.size)
      hFiled uri with
    ⟨chain, -, hChain, hModels⟩
  rw [hChain] at h
  exact hModels d h

end Session

end Pairing

end StyleCompanion
