import StyleCompanion.Proofs.Pairing.Closing
import StyleCompanion.Proofs.Pairing.Turns

/-
  Completions of openings that were given up.

  Such a completion is about a document, whoever else wants
  that document by now.  One that failed drops the model of
  the document.  One that succeeded closes the document with
  all that hangs on it.  It is harmless if nobody wants the
  document and no companion hangs on it.

  Main declarations:
    * `Session.Reachable`
    * `Session.Spares`
    * `Session.spares_abandoned_iff`
    * `Session.Endangers`
    * `Session.stale_spares_wanted_iff`
-/

namespace StyleCompanion

namespace Pairing

namespace Session

----
-- What a late completion spares
----

/-
  A document is left alone: no closing of it is asked for, and
  its model is kept.
-/
structure Spares
    (s t : Session Desk)
    (d : String) : Prop where
  calls :
    t.host.calls.count (.close d) =
      s.host.calls.count (.close d)
  model : Table.get? t.models d = Table.get? s.models d

variable {s : Session Desk} {q : PendingOpen} {d : String}

/-
  An opening that was given up and succeeds spares all but the
  documents that hang on its own.
-/
theorem spares_abandoned_iff
    (hFiled : s.registry.Filed)
    (hStale : ¬ s.registry.Awaits q) :
    s.Spares (s.companionOpened q true) d ↔
      ¬ s.Hangs q.companion d := by
  rcases companionOpened_abandoned
      (PairRegistry.finishOpen_eq_self hStale) with
    ⟨text, hOpened⟩
  rw [hOpened]
  have hHangs :
      ((s.info text).dropModel q.companion).Hangs q.companion
          d ↔
        s.Hangs q.companion d :=
    ⟨fun h => h.congr rfl fun _ => rfl,
      fun h => h.congr rfl fun _ => rfl⟩
  have hCount :=
    count_close_iff
      (s := (s.info text).dropModel q.companion) hFiled
      q.companion d
  rw [hHangs] at hCount
  constructor
  · intro hSpares
    exact hCount.mp hSpares.calls
  · intro hNot
    refine ⟨hCount.mpr hNot, ?_⟩
    have hOther : d ≠ q.companion := by
      intro hEq
      subst hEq
      exact hNot .self
    rw [← hHangs] at hNot
    have hClosed :=
      get?_models_close
        (s := (s.info text).dropModel q.companion) hFiled hNot
    exact hClosed.trans
      ((sameBut_dropModel (s.info text) q.companion).models d
        hOther)

/- An opening that fails spares all but a model. -/
theorem spares_failed_iff :
    s.Spares (s.companionOpened q false) d ↔
      ¬ (d = q.companion ∧
        (Table.get? s.models d).isSome = true) := by
  have hModels :
      Table.get? (s.companionOpened q false).models d =
        if q.companion = d then none
        else Table.get? s.models d :=
    Table.get?_erase s.models q.companion d
  constructor
  · intro hSpares hLost
    have hModel := hSpares.model
    rw [hModels, if_pos hLost.1.symm] at hModel
    rw [← hModel] at hLost
    cases hLost.2
  · intro hKept
    refine ⟨rfl, ?_⟩
    rw [hModels]
    split
    next hEq =>
      cases hModel : Table.get? s.models d with
      | none => rfl
      | some m =>
          exact absurd ⟨hEq.symm, by rw [hModel]; rfl⟩ hKept
    next => rfl

----
-- Harm to a wanted document
----

/- A session that a run leads to. -/
def Reachable
    (s : Session Desk) : Prop :=
  ∃ paletteSize desk events,
    s = (Session.new paletteSize desk).run events

/-
  The completion of an opening that was given up endangers a
  companion.  A failed one does so if its document is wanted
  and has a model.  A successful one does so if its document
  is wanted, or if it is a primary whose closing is reported.
-/
def Endangers
    (s : Session Desk)
    (q : PendingOpen) : Bool → Prop
  | true =>
      s.registry.isCompanion q.companion = true ∨
        (s.host.close q.companion).reported = true ∧
          (s.registry.pairForPrimary q.companion).isSome = true
  | false =>
      s.registry.isCompanion q.companion = true ∧
        (Table.get? s.models q.companion).isSome = true

instance
    (s : Session Desk)
    (q : PendingOpen)
    (ok : Bool) :
    Decidable (s.Endangers q ok) :=
  match ok with
  | true => inferInstanceAs (Decidable (_ ∨ _ ∧ _))
  | false => inferInstanceAs (Decidable (_ ∧ _))

theorem isCompanion_of_pairForPrimary
    {r : PairRegistry}
    {p : String}
    {pair : DocumentPair}
    (h : r.pairForPrimary p = some pair) :
    r.isCompanion pair.companion = true := by
  have hMem := PairRegistry.mem_pairList_of_pairForPrimary h
  unfold PairRegistry.isCompanion
  rw [Bool.or_eq_true, Option.isSome_iff_ne_none]
  refine Or.inl fun hNone => ?_
  rw [PairRegistry.pairForCompanion_eq_none_iff] at hNone
  exact hNone pair hMem rfl

/-
  A successful completion spares every wanted document exactly
  if it endangers none.
-/
theorem hangs_wanted_iff :
    (∀ d, s.registry.isCompanion d = true →
        ¬ s.Hangs q.companion d) ↔
      ¬ s.Endangers q true := by
  constructor
  · intro hAll hEndangers
    rcases hEndangers with hWanted | ⟨hReported, hPaired⟩
    · exact hAll q.companion hWanted .self
    · rcases Option.isSome_iff_exists.mp hPaired with
        ⟨pair, hPair⟩
      exact hAll pair.companion
        (isCompanion_of_pairForPrimary hPair)
        (Hangs.self.next hReported hPair)
  · intro hSafe d hWanted hHangs
    have hAlone : d = q.companion := by
      by_cases hReported :
          (s.host.close q.companion).reported = true
      · have hFree :
            s.registry.pairForPrimary q.companion = none := by
          rw [← Option.not_isSome_iff_eq_none]
          exact fun hPaired =>
            hSafe (Or.inr ⟨hReported, hPaired⟩)
        exact (hangs_iff_of_free hFree).mp hHangs
      · exact (hangs_iff_of_unreported hReported).mp hHangs
    subst hAlone
    exact hSafe (Or.inl hWanted)

/-
  In every reachable session, an opening that was given up
  completes without harm to any wanted document, if and only
  if it endangers none when it is delivered.
-/
theorem stale_spares_wanted_iff
    {i : Nat}
    (hReach : s.Reachable)
    (hIndex : s.host.opens[i]? = some q)
    (hStale : ¬ s.registry.Awaits q)
    (ok : Bool)
    (lines : Option Int) :
    (∀ d,
        (s.delivered i q ok lines).registry.isCompanion d =
            true →
          (s.delivered i q ok lines).Spares
            (s.complete i ok lines).1 d) ↔
      ¬ (s.delivered i q ok lines).Endangers q ok := by
  rcases hReach with ⟨paletteSize, desk, events, hRun⟩
  have hFiled :
      (s.delivered i q ok lines).registry.Filed := by
    apply (s.loses_delivered i q ok lines).filed
    rw [hRun]
    exact filed_run paletteSize desk events
  have hAbandoned :
      ¬ (s.delivered i q ok lines).registry.Awaits q := by
    unfold PairRegistry.Awaits PairRegistry.pendingFor
    rw [s.pending_delivered i q ok lines]
    exact hStale
  rw [complete_eq hIndex]
  generalize s.delivered i q ok lines = t at hFiled hAbandoned
  cases ok with
  | true =>
      rw [← hangs_wanted_iff]
      simp only [spares_abandoned_iff hFiled hAbandoned]
  | false =>
      simp only [spares_failed_iff]
      constructor
      · intro hAll hEndangers
        exact hAll q.companion hEndangers.1
          ⟨rfl, hEndangers.2⟩
      · intro hSafe d hWanted hLost
        rcases hLost with ⟨rfl, hModel⟩
        exact hSafe ⟨hWanted, hModel⟩

/-
  A page changes its mind about a stylesheet before that is
  open, and gets another.
-/
def changedMind : Session Desk :=
  (Session.new 8 (Desk.new true)).run
    [.place "file:///index.html" .primary true,
      .request "file:///a.css" "file:///index.html",
      .request "file:///b.css" "file:///index.html",
      .complete 1 true (some 1)]

/- The first stylesheet comes late and spares the other. -/
theorem changedMind_spares_wanted :
    changedMind.host.opens =
        [⟨"file:///index.html", "file:///a.css", 1⟩] ∧
      ¬ changedMind.registry.Awaits
        ⟨"file:///index.html", "file:///a.css", 1⟩ ∧
      changedMind.registry.isCompanion "file:///b.css" =
        true ∧
      (changedMind.delivered 0
          ⟨"file:///index.html", "file:///a.css", 1⟩ true
          (some 1)).Spares
        (changedMind.complete 0 true (some 1)).1
        "file:///b.css" := by
  have hSafe :
      ¬ (changedMind.delivered 0
          ⟨"file:///index.html", "file:///a.css", 1⟩ true
          (some 1)).Endangers
        ⟨"file:///index.html", "file:///a.css", 1⟩ true := by
    decide
  refine ⟨rfl, by decide, rfl, ?_⟩
  exact (stale_spares_wanted_iff ⟨_, _, _, rfl⟩ rfl (by decide)
    true (some 1)).mpr hSafe "file:///b.css" rfl

/-
  A page is closed while its stylesheet is being opened, and
  another page gets that stylesheet.
-/
def handedOn : Session Desk :=
  (Session.new 8 (Desk.new true)).run
    [.place "file:///index.html" .primary true,
      .place "file:///about.html" .primary true,
      .request "file:///a.css" "file:///index.html",
      .close "file:///index.html",
      .request "file:///a.css" "file:///about.html",
      .complete 1 true (some 1)]

/-
  The first opening comes late and closes the stylesheet of
  the other page.
-/
theorem handedOn_closes_wanted :
    handedOn.host.opens =
        [⟨"file:///index.html", "file:///a.css", 1⟩] ∧
      ¬ handedOn.registry.Awaits
        ⟨"file:///index.html", "file:///a.css", 1⟩ ∧
      (handedOn.delivered 0
          ⟨"file:///index.html", "file:///a.css", 1⟩ true
          (some 1)).registry.pairForPrimary
        "file:///about.html" =
          some ⟨"file:///about.html", "file:///a.css"⟩ ∧
      ¬ (handedOn.delivered 0
          ⟨"file:///index.html", "file:///a.css", 1⟩ true
          (some 1)).Spares
        (handedOn.complete 0 true (some 1)).1
        "file:///a.css" := by
  refine ⟨rfl, by decide, rfl, ?_⟩
  intro hSpares
  exact absurd hSpares.calls (by decide)

end Session

end Pairing

end StyleCompanion
