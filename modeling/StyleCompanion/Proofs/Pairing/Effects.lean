import StyleCompanion.Pairing.Run
import StyleCompanion.Proofs.Overlay.Engines
import StyleCompanion.Proofs.Pairing.Changes

/-
  What the pairing does to a desk.

  Placing, rendering, refreshing and closing a document leave
  all other documents as they are.  What a desk notes down
  decides nothing.

  Main declarations:
    * `Desk.SameBut`
    * `Desk.copies`
    * `Session.SameBut`
    * `Session.close_eq`
    * `Session.placeOpened_eq`
    * `Session.delivered`
-/

namespace StyleCompanion

namespace Pairing

namespace Desk

----
-- Documents on a desk
----

/- A document is open if it is on one of the shelves. -/
theorem isOpen_iff
    (d : Desk)
    (uri : String) :
    Host.isOpen d uri = true ↔
      uri ∈ d.primary.documents ∨
        uri ∈ d.secondary.documents := by
  change (d.regionOf uri).isSome = true ↔ _
  unfold regionOf
  by_cases hPrimary : uri ∈ d.primary.documents
  · simp [hPrimary]
  · by_cases hSecondary : uri ∈ d.secondary.documents <;>
      simp [hPrimary, hSecondary]

/-
  Two desks that differ in nothing but one document: the other
  documents are on the same shelves and have as many lines,
  and the same openings are waited for.
-/
structure SameBut
    (uri : String)
    (d e : Desk) : Prop where
  primary :
    ∀ v, v ≠ uri →
      e.primary.documents.count v =
        d.primary.documents.count v
  secondary :
    ∀ v, v ≠ uri →
      e.secondary.documents.count v =
        d.secondary.documents.count v
  lines :
    ∀ v, v ≠ uri →
      Host.lineCount e v = Host.lineCount d v
  opens : e.opens = d.opens
  reporting : e.reporting = d.reporting

namespace SameBut

variable {uri : String} {d e f : Desk}

theorem refl
    (uri : String)
    (d : Desk) :
    SameBut uri d d :=
  ⟨fun _ _ => rfl, fun _ _ => rfl, fun _ _ => rfl, rfl, rfl⟩

theorem trans
    (h : SameBut uri d e)
    (k : SameBut uri e f) :
    SameBut uri d f where
  primary v hv := (k.primary v hv).trans (h.primary v hv)
  secondary v hv := (k.secondary v hv).trans (h.secondary v hv)
  lines v hv := (k.lines v hv).trans (h.lines v hv)
  opens := k.opens.trans h.opens
  reporting := k.reporting.trans h.reporting

/- Another document is open on both desks or on none. -/
theorem isOpen
    (h : SameBut uri d e)
    {v : String}
    (hv : v ≠ uri) :
    Host.isOpen e v = true ↔ Host.isOpen d v = true := by
  rw [isOpen_iff, isOpen_iff]
  simp only [← List.count_pos_iff, h.primary v hv,
    h.secondary v hv]

end SameBut

/- The number of lines concerns its own document. -/
theorem sameBut_setCount
    (d : Desk)
    (uri : String)
    (count : Option Int) :
    SameBut uri d (d.setCount uri count) where
  primary _ _ := rfl
  secondary _ _ := rfl
  lines v hv := by
    change Table.get? (d.setCount uri count).counts v =
      Table.get? d.counts v
    cases count with
    | none =>
        rw [setCount, Table.get?_erase, if_neg (Ne.symm hv)]
    | some n =>
        rw [setCount, Table.get?_insert, if_neg (Ne.symm hv)]
  opens := rfl
  reporting := rfl

/- Putting a document on a shelf concerns that document. -/
theorem count_add
    (s : Shelf)
    (uri v : String)
    (active : Bool)
    (hv : v ≠ uri) :
    (s.add uri active).documents.count v =
      s.documents.count v := by
  unfold Shelf.add
  by_cases hMem : uri ∈ s.documents
  · simp [hMem]
  · simp [hMem, List.count_append, Ne.symm hv]

/- Taking a document off a shelf concerns that document. -/
theorem count_remove
    (s : Shelf)
    (uri v : String)
    (hv : v ≠ uri) :
    (s.remove uri).documents.count v =
      s.documents.count v := by
  unfold Shelf.remove
  exact List.count_erase_of_ne hv

theorem sameBut_add
    (d : Desk)
    (uri : String)
    (region : Region)
    (active : Bool) :
    SameBut uri d (d.add uri region active) := by
  cases region with
  | primary =>
      exact ⟨fun v hv => count_add _ _ _ _ hv,
        fun _ _ => rfl, fun _ _ => rfl, rfl, rfl⟩
  | secondary =>
      exact ⟨fun _ _ => rfl,
        fun v hv => count_add _ _ _ _ hv,
        fun _ _ => rfl, rfl, rfl⟩

theorem sameBut_takeOut
    (d : Desk)
    (uri : String) :
    SameBut uri d (d.takeOut uri) := by
  unfold takeOut
  cases d.regionOf uri with
  | none => exact SameBut.refl uri d
  | some region =>
      cases region with
      | primary =>
          exact ⟨fun v hv => count_remove _ _ _ hv,
            fun _ _ => rfl, fun _ _ => rfl, rfl, rfl⟩
      | secondary =>
          exact ⟨fun _ _ => rfl,
            fun v hv => count_remove _ _ _ hv,
            fun _ _ => rfl, rfl, rfl⟩

/- A note concerns no document. -/
theorem sameBut_note
    (d : Desk)
    (uri : String)
    (call : DeskCall) :
    SameBut uri d (d.note call) :=
  ⟨fun _ _ => rfl, fun _ _ => rfl, fun _ _ => rfl, rfl, rfl⟩

/- Closing a document concerns that document. -/
theorem sameBut_close
    (d : Desk)
    (uri : String) :
    SameBut uri d (d.close uri).host := by
  have hOut :=
    (sameBut_note d uri (.close uri)).trans
      (sameBut_takeOut _ uri)
  unfold close
  dsimp only
  split
  · exact hOut.trans (sameBut_setCount _ uri none)
  · exact hOut

/- Reading a document again leaves it where it is. -/
theorem refresh_eq
    (d : Desk)
    (uri : String) :
    ∃ e edited,
      d.refresh uri = .done e edited ∧
        SameBut uri d e ∧
        e.primary = d.primary ∧
        e.secondary = d.secondary := by
  unfold refresh
  dsimp only
  split
  next =>
    exact ⟨_, _, rfl, sameBut_note d uri _, rfl, rfl⟩
  next n _ =>
    have hCount := sameBut_setCount d uri (some n)
    exact ⟨_, _, rfl,
      ⟨hCount.primary, hCount.secondary, hCount.lines,
        rfl, rfl⟩,
      rfl, rfl⟩

/- A reporting desk reports that an open document closes. -/
theorem close_reported
    (d : Desk)
    (uri : String) :
    (d.close uri).reported =
      (Host.isOpen d uri && d.reporting) := rfl

/- How often a document is on the shelves. -/
def copies
    (d : Desk)
    (uri : String) : Nat :=
  d.primary.documents.count uri +
    d.secondary.documents.count uri

/- A document is open if there is a copy of it. -/
theorem isOpen_iff_copies
    (d : Desk)
    (uri : String) :
    Host.isOpen d uri = true ↔ 0 < d.copies uri := by
  rw [isOpen_iff, copies, ← List.count_pos_iff,
    ← List.count_pos_iff]
  omega

/- A closed document that is put on a shelf is there once. -/
theorem copies_add
    {d : Desk}
    {uri : String}
    (h : d.copies uri = 0)
    (region : Region)
    (active : Bool) :
    (d.add uri region active).copies uri = 1 := by
  have hNot :
      uri ∉ d.primary.documents ∧
        uri ∉ d.secondary.documents := by
    simpa [copies, List.count_eq_zero] using h
  unfold copies at h
  cases region with
  | primary =>
      simp [add, onShelf, Shelf.add, copies, hNot,
        List.count_append]
      omega
  | secondary =>
      simp [add, onShelf, Shelf.add, copies, hNot,
        List.count_append]
      omega

/- The only copy of a document is taken out. -/
theorem copies_takeOut
    {d : Desk}
    {uri : String}
    (h : d.copies uri ≤ 1) :
    (d.takeOut uri).copies uri = 0 := by
  unfold copies at h
  by_cases hPrimary : uri ∈ d.primary.documents
  · have hOnce := List.count_pos_iff.mpr hPrimary
    have hRegion : d.regionOf uri = some .primary := by
      simp [regionOf, hPrimary]
    simp only [takeOut, hRegion, onShelf, copies,
      Shelf.remove, List.count_erase_self]
    omega
  · have hNone := List.count_eq_zero.mpr hPrimary
    by_cases hSecondary : uri ∈ d.secondary.documents
    · have hRegion : d.regionOf uri = some .secondary := by
        simp [regionOf, hPrimary, hSecondary]
      simp only [takeOut, hRegion, onShelf, copies,
        Shelf.remove, List.count_erase_self]
      omega
    · have hOther := List.count_eq_zero.mpr hSecondary
      have hRegion : d.regionOf uri = none := by
        simp [regionOf, hPrimary, hSecondary]
      simp only [takeOut, hRegion, copies]
      omega

/- The only copy of a document is closed. -/
theorem copies_close
    {d : Desk}
    {uri : String}
    (h : d.copies uri ≤ 1) :
    (d.close uri).host.copies uri = 0 := by
  have hOut :
      ((d.note (.close uri)).takeOut uri).copies uri = 0 :=
    copies_takeOut h
  unfold close
  dsimp only
  split
  · exact hOut
  · exact hOut

/- A document that is put where it is has no new copy. -/
theorem copies_add_of_regionOf
    {d : Desk}
    {uri : String}
    {region : Region}
    (h : d.regionOf uri = some region)
    (active : Bool) :
    (d.add uri region active).copies uri = d.copies uri := by
  unfold regionOf at h
  by_cases hPrimary : uri ∈ d.primary.documents
  · rw [if_pos hPrimary, Option.some.injEq] at h
    subst h
    simp [add, onShelf, Shelf.add, copies, hPrimary]
  · rw [if_neg hPrimary] at h
    by_cases hSecondary : uri ∈ d.secondary.documents
    · rw [if_pos hSecondary, Option.some.injEq] at h
      subst h
      simp [add, onShelf, Shelf.add, copies, hSecondary]
    · rw [if_neg hSecondary] at h
      cases h

/- Putting a document somewhere takes no other away. -/
theorem mem_secondary_add
    {d : Desk}
    {v : String}
    (h : v ∈ d.secondary.documents)
    (uri : String)
    (region : Region)
    (active : Bool) :
    v ∈ (d.add uri region active).secondary.documents := by
  cases region with
  | primary => exact h
  | secondary =>
      simp only [add, onShelf, Shelf.add]
      split
      · exact h
      · exact List.mem_append_left _ h

/- A document is where it was put. -/
theorem mem_secondary_add_self
    (d : Desk)
    (uri : String)
    (active : Bool) :
    uri ∈
      (d.add uri .secondary active).secondary.documents := by
  simp only [add, onShelf, Shelf.add]
  split
  · assumption
  · simp

/- A document is added to those that are open. -/
theorem isOpen_add
    (d : Desk)
    (uri : String)
    (region : Region)
    (active : Bool)
    (v : String) :
    Host.isOpen (d.add uri region active) v = true ↔
      v = uri ∨ Host.isOpen d v = true := by
  have hShelf : ∀ s : Shelf,
      v ∈ (s.add uri active).documents ↔
        v = uri ∨ v ∈ s.documents := by
    intro s
    by_cases hMem : uri ∈ s.documents
    · simp only [Shelf.add, hMem, if_true]
      constructor
      · exact Or.inr
      · intro h
        rcases h with hEq | hOld
        · rw [hEq]
          exact hMem
        · exact hOld
    · simp only [Shelf.add, hMem, if_false, List.mem_append,
        List.mem_singleton]
      exact or_comm
  rw [isOpen_iff, isOpen_iff]
  cases region with
  | primary =>
      simp only [add, onShelf, hShelf]
      exact or_assoc
  | secondary =>
      simp only [add, onShelf, hShelf]
      exact or_left_comm

/- The documents of a desk do not depend on its notes. -/
theorem copies_of_forgetNotes
    {d e : Desk}
    (h : e.forgetNotes = d.forgetNotes)
    (uri : String) :
    e.copies uri = d.copies uri :=
  congrArg (fun d => d.copies uri) h

theorem sameBut_of_forgetNotes
    {d e : Desk}
    (h : e.forgetNotes = d.forgetNotes)
    (uri : String) :
    SameBut uri d e := by
  have hPrimary := congrArg Desk.primary h
  have hSecondary := congrArg Desk.secondary h
  have hCounts := congrArg Desk.counts h
  have hOpens := congrArg Desk.opens h
  have hReporting := congrArg Desk.reporting h
  exact ⟨
    fun v _ => congrArg (fun t => t.documents.count v) hPrimary,
    fun v _ =>
      congrArg (fun t => t.documents.count v) hSecondary,
    fun v _ => congrArg (fun t => Table.get? t v) hCounts,
    hOpens, hReporting⟩

/- Decorating a desk is noted down. -/
theorem forgetNotes_decorate
    (effects : List Overlay.Effect)
    (d : Desk) :
    (effects.foldl Host.decorate d).forgetNotes =
      d.forgetNotes := by
  induction effects generalizing d with
  | nil => rfl
  | cons e effects ih =>
      have hStep :
          (Host.decorate d e).forgetNotes =
            d.forgetNotes := by
        cases e <;> rfl
      rw [List.foldl_cons, ih, hStep]

end Desk

----
-- Sessions that differ in one document
----

namespace Session

/-
  Two sessions that differ in nothing but their pairs and one
  document: the others have the same models and renders.
-/
structure SameBut
    (uri : String)
    (s t : Session Desk) : Prop where
  host : Desk.SameBut uri s.host t.host
  models :
    ∀ v, v ≠ uri →
      Table.get? t.models v = Table.get? s.models v
  views :
    ∀ v, v ≠ uri →
      Table.get? t.engine.views v =
        Table.get? s.engine.views v
  nextToken :
    t.registry.nextToken = s.registry.nextToken

namespace SameBut

variable {uri : String} {s t u : Session Desk}

theorem trans
    (h : SameBut uri s t)
    (k : SameBut uri t u) :
    SameBut uri s u where
  host := h.host.trans k.host
  models v hv := (k.models v hv).trans (h.models v hv)
  views v hv := (k.views v hv).trans (h.views v hv)
  nextToken := k.nextToken.trans h.nextToken

/- Sessions that differ on their desks alone. -/
theorem ofHost
    {d : Desk}
    (h : Desk.SameBut uri s.host d) :
    SameBut uri s { s with host := d } :=
  ⟨h, fun _ _ => rfl, fun _ _ => rfl, rfl⟩

end SameBut

variable (s : Session Desk) (uri : String)

theorem sameBut_log
    (r : LogRecord) :
    SameBut uri s (s.log r) := by
  have hNotes :
      (Host.log s.host r).forgetNotes =
        s.host.forgetNotes := rfl
  exact SameBut.ofHost
    (Desk.sameBut_of_forgetNotes hNotes uri)

theorem sameBut_decorate
    (effects : List Overlay.Effect) :
    SameBut uri s (s.decorate effects) :=
  SameBut.ofHost
    (Desk.sameBut_of_forgetNotes
      (Desk.forgetNotes_decorate effects s.host) uri)

theorem sameBut_keepModel
    (m : Attribution.Model) :
    SameBut uri s (s.keepModel uri m) where
  host := Desk.SameBut.refl uri s.host
  models v hv := by
    rw [keepModel, Table.get?_insert, if_neg (Ne.symm hv)]
  views _ _ := rfl
  nextToken := rfl

theorem sameBut_dropModel :
    SameBut uri s (s.dropModel uri) where
  host := Desk.SameBut.refl uri s.host
  models v hv := by
    rw [dropModel, Table.get?_erase, if_neg (Ne.symm hv)]
  views _ _ := rfl
  nextToken := rfl

theorem sameBut_dropPair
    (pair : DocumentPair) :
    SameBut pair.companion s (s.dropPair pair) where
  host := Desk.SameBut.refl pair.companion s.host
  models v hv := by
    rw [dropPair, Table.get?_erase, if_neg (Ne.symm hv)]
  views v hv := by
    rw [dropPair, Overlay.Engine.forget, Table.get?_erase,
      if_neg (Ne.symm hv)]
  nextToken := rfl

theorem sameBut_render
    (m : Attribution.Model) :
    SameBut uri s (s.render uri m) := by
  refine SameBut.trans ?_ (sameBut_decorate _ uri _)
  exact ⟨Desk.SameBut.refl uri s.host, fun _ _ => rfl,
    fun v hv => s.engine.get?_views_render m _ hv, rfl⟩

/- Rendering moves no document. -/
theorem render_host
    (m : Attribution.Model) :
    (s.render uri m).host.forgetNotes =
      s.host.forgetNotes :=
  Desk.forgetNotes_decorate _ _

/- A view with lines holds the model it was rendered with. -/
theorem render_modelFor
    (m : Attribution.Model) :
    (s.render uri m).engine.modelFor uri =
      (Host.lineCount (s.render uri m).host uri).map
        fun _ => m := by
  have hLines :
      Host.lineCount (s.render uri m).host uri =
        Host.lineCount s.host uri :=
    congrArg (fun d => Table.get? d.counts uri)
      (render_host s uri m)
  rw [hLines]
  exact s.engine.modelFor_render uri m _

theorem sameBut_clearView :
    SameBut uri s (s.clearView uri) := by
  refine SameBut.trans ?_ (sameBut_decorate _ uri _)
  refine ⟨Desk.SameBut.refl uri s.host, fun _ _ => rfl,
    fun v hv => ?_, rfl⟩
  exact (Table.get?_erase s.engine.views uri v).trans
    (if_neg (Ne.symm hv))

theorem sameBut_companionEdited :
    SameBut uri s (s.companionEdited uri) := by
  unfold companionEdited
  split
  · exact SameBut.ofHost (Desk.SameBut.refl uri s.host)
  · refine SameBut.trans ?_ (sameBut_clearView _ uri)
    refine SameBut.trans ?_ (sameBut_dropModel _ uri)
    exact sameBut_log s uri _

/- An edit changes no document's place. -/
theorem companionEdited_host :
    (s.companionEdited uri).host.forgetNotes =
      s.host.forgetNotes := by
  unfold companionEdited
  split
  · rfl
  · exact Desk.forgetNotes_decorate _ _

/- A model is kept and rendered after the edit is reported. -/
theorem refreshAndRender_done
    {e : Desk}
    {edited : Bool}
    (h : s.host.refresh uri = .done e edited)
    (m : Attribution.Model) :
    (s.refreshAndRender uri m).1 =
      ((if edited then
          ({ s with host := e } :
            Session Desk).companionEdited uri
        else { s with host := e }).keepModel uri m).render
          uri m := by
  simp only [refreshAndRender, Host.refresh, h]
  rfl

/-
  A refresh renders the model at the end, and moves no
  document.
-/
theorem refreshAndRender_eq
    (m : Attribution.Model) :
    ∃ t : Session Desk,
      (s.refreshAndRender uri m).1 = t.render uri m ∧
        SameBut uri s t ∧
        t.registry = s.registry ∧
        t.host.primary = s.host.primary ∧
        t.host.secondary = s.host.secondary := by
  rcases s.host.refresh_eq uri with
    ⟨e, edited, hRefresh, hSame, hPrimary, hSecondary⟩
  have hHost : SameBut uri s { s with host := e } :=
    SameBut.ofHost hSame
  refine ⟨_, refreshAndRender_done s uri hRefresh m, ?_⟩
  cases edited with
  | false =>
      exact ⟨hHost.trans (sameBut_keepModel _ uri m), rfl,
        hPrimary, hSecondary⟩
  | true =>
      have hNotes :=
        companionEdited_host { s with host := e } uri
      have hEdit :=
        sameBut_companionEdited { s with host := e } uri
      exact ⟨(hHost.trans hEdit).trans
          (sameBut_keepModel _ uri m),
        companionEdited_registry _ uri,
        (congrArg Desk.primary hNotes).trans hPrimary,
        (congrArg Desk.secondary hNotes).trans hSecondary⟩

----
-- Closing and placing
----

/- A document that is no primary releases no other. -/
theorem releaseClosed_eq
    (hPair : s.registry.pairForPrimary uri = none)
    (hPending : s.registry.pendingFor uri = none) :
    s.releaseClosed uri =
      (if (s.registry.pairForCompanion uri).isSome then
          s.companionClosed uri
        else
          s.debug ("Close of " ++ uri ++ " matches no pair"),
        none) := by
  rw [releaseClosed, hPair, hPending]
  cases s.registry.pairForCompanion uri <;> rfl

/- Closing a document that is no primary closes it alone. -/
theorem close_eq
    (hPair : s.registry.pairForPrimary uri = none)
    (hPending : s.registry.pendingFor uri = none) :
    s.close uri =
      if (s.host.close uri).reported then
        (({ s with host := (s.host.close uri).host } :
          Session Desk).releaseClosed uri).1
      else { s with host := (s.host.close uri).host } := by
  have hRelease :=
    releaseClosed_eq
      { s with host := (s.host.close uri).host } uri
      hPair hPending
  unfold close closeWithin
  by_cases hReported : (s.host.close uri).reported = true
  · rw [if_pos hReported]
    dsimp only [Host.close]
    rw [if_pos hReported]
    simp only [noticeActivated, Desk.close] at hRelease ⊢
    rw [hRelease]
    rfl
  · rw [if_neg hReported]
    dsimp only [Host.close]
    rw [if_neg hReported]
    rfl

/-
  Closing a document that is no primary either changes the
  desk alone, or is reported and ends the pair of a companion.
-/
theorem close_cases
    (hPair : s.registry.pairForPrimary uri = none)
    (hPending : s.registry.pendingFor uri = none) :
    (∃ d : Desk,
      d.forgetNotes = (s.host.close uri).host.forgetNotes ∧
        s.close uri = { s with host := d } ∧
        ((s.host.close uri).reported = true →
          s.registry.pairForCompanion uri = none)) ∨
      ∃ pair,
        s.registry.pairForCompanion uri = some pair ∧
          s.close uri =
            ({ s with host := (s.host.close uri).host } :
              Session Desk).dropPair pair := by
  have hRelease :=
    releaseClosed_eq
      { s with host := (s.host.close uri).host } uri
      hPair hPending
  rw [close_eq s uri hPair hPending]
  by_cases hReported : (s.host.close uri).reported = true
  · rw [if_pos hReported, hRelease]
    cases hCompanion : s.registry.pairForCompanion uri with
    | none =>
        refine Or.inl ⟨_, ?_, rfl, fun _ => rfl⟩
        rfl
    | some pair =>
        refine Or.inr ⟨pair, rfl, ?_⟩
        simp only [companionClosed, hCompanion,
          Option.isSome_some, if_true]
  · rw [if_neg hReported]
    exact Or.inl ⟨_, rfl, rfl, fun h => absurd h hReported⟩

theorem sameBut_close
    (hPair : s.registry.pairForPrimary uri = none)
    (hPending : s.registry.pendingFor uri = none) :
    SameBut uri s (s.close uri) := by
  have hHost := Desk.sameBut_close s.host uri
  rcases close_cases s uri hPair hPending with
    ⟨d, hNotes, hClose, -⟩ | ⟨pair, hFound, hClose⟩
  · rw [hClose]
    exact SameBut.ofHost
      (hHost.trans (Desk.sameBut_of_forgetNotes hNotes uri))
  · have hCompanion :=
      PairRegistry.companion_of_pairForCompanion hFound
    subst hCompanion
    rw [hClose]
    exact (SameBut.ofHost hHost).trans
      (sameBut_dropPair _ pair)

/- The only copy of a document is closed. -/
theorem copies_close
    (hPair : s.registry.pairForPrimary uri = none)
    (hPending : s.registry.pendingFor uri = none)
    (hCopies : s.host.copies uri ≤ 1) :
    (s.close uri).host.copies uri = 0 := by
  have hHost := Desk.copies_close hCopies
  rcases close_cases s uri hPair hPending with
    ⟨d, hNotes, hClose, -⟩ | ⟨pair, -, hClose⟩
  · rw [hClose]
    exact (Desk.copies_of_forgetNotes hNotes uri).trans hHost
  · rw [hClose]
    exact hHost

/- A reconciliation does no more to a desk than log. -/
theorem exists_records_reconcile :
    ∃ records,
      s.reconcile.host = { s.host with records := records } := by
  refine s.reconcile_induction
    (P := fun t => ∃ records,
      t.host = { s.host with records := records })
    ⟨s.host.records, rfl⟩ ?_
  rintro t text - ⟨records, h⟩
  change ∃ more, Host.log t.host (.info text) =
    { s.host with records := more }
  rw [h]
  exact ⟨_, rfl⟩

/- A reconciliation concerns no document on the desk. -/
theorem reconcile_host :
    s.reconcile.host.forgetNotes = s.host.forgetNotes := by
  rcases s.exists_records_reconcile with ⟨records, hHost⟩
  rw [hHost]
  rfl

/- Place a companion on a desk that knows its lines. -/
theorem placeOpened_none_eq
    (hPresent :
      s.host.reporting = true →
        ∀ pair ∈ s.registry.pairList,
          pair.companion ∈ s.host.secondary.documents)
    (hCopies : s.host.copies uri ≤ 1) :
    ∃ d : Desk,
      s.placeOpened uri none = { s with host := d } ∧
        Desk.SameBut uri s.host d ∧
        d.copies uri = 1 ∧
        (s.registry.isCompanion uri = true →
          s.host.copies uri = 0 →
            uri ∈ d.secondary.documents) := by
  cases hRegion : s.host.regionOf uri with
  | some region =>
      have hPlace :
          s.placeOpened uri none =
            { s with host := s.host.add uri region true } := by
        simp only [placeOpened, hRegion]
      have hOpen : 0 < s.host.copies uri := by
        rw [← Desk.isOpen_iff_copies]
        simp [Host.isOpen, hRegion]
      refine ⟨_, hPlace, Desk.sameBut_add _ _ _ _, ?_, ?_⟩
      · rw [Desk.copies_add_of_regionOf hRegion]
        omega
      · intro _ hNone
        omega
  | none =>
      have hNone : s.host.copies uri = 0 := by
        apply Nat.eq_zero_of_not_pos
        rw [← Desk.isOpen_iff_copies]
        simp [Host.isOpen, hRegion]
      by_cases hReporting : s.host.reporting = true
      · have hPlace :
            s.placeOpened uri none =
              { s with
                host := s.host.add uri
                  (s.placementFor uri .secondary) true } := by
          simp only [placeOpened, hRegion, hReporting,
            if_true]
          apply reconcile_eq_self
          intro pair hPair
          exact Desk.mem_secondary_add
            (hPresent hReporting pair hPair) _ _ _
        refine ⟨_, hPlace, Desk.sameBut_add _ _ _ _,
          Desk.copies_add hNone _ _, ?_⟩
        intro hCompanion _
        have hRegion :
            s.placementFor uri .secondary = .secondary := by
          simp [placementFor, hCompanion]
        rw [hRegion]
        exact Desk.mem_secondary_add_self _ _ _
      · have hPlace :
            s.placeOpened uri none =
              { s with
                host := s.host.add uri .secondary true } := by
          simp [placeOpened, hRegion, hReporting]
        exact ⟨_, hPlace, Desk.sameBut_add _ _ _ _,
          Desk.copies_add hNone _ _,
          fun _ _ => Desk.mem_secondary_add_self _ _ _⟩

/-
  A companion that was opened is on the desk once.  It is in
  the secondary region if it is waited for.
-/
theorem placeOpened_eq
    (lines : Option Int)
    (hPresent :
      s.host.reporting = true →
        ∀ pair ∈ s.registry.pairList,
          pair.companion ∈ s.host.secondary.documents)
    (hCopies : s.host.copies uri ≤ 1) :
    ∃ d : Desk,
      s.placeOpened uri lines = { s with host := d } ∧
        Desk.SameBut uri s.host d ∧
        d.copies uri = 1 ∧
        (s.registry.isCompanion uri = true →
          s.host.copies uri = 0 →
            uri ∈ d.secondary.documents) := by
  cases lines with
  | none => exact placeOpened_none_eq s uri hPresent hCopies
  | some n =>
      rcases placeOpened_none_eq
          { s with host := s.host.setCount uri (some n) } uri
          hPresent hCopies with
        ⟨d, hPlace, hSame, hOnce, hWhere⟩
      exact ⟨d, hPlace,
        (Desk.sameBut_setCount s.host uri (some n)).trans hSame,
        hOnce, hWhere⟩

----
-- Completions
----

/- The desk does not wait for an opening any more. -/
def withoutOpening
    (s : Session Desk)
    (i : Nat) : Session Desk :=
  { s with
    host := { s.host with opens := s.host.opens.eraseIdx i } }

/-
  The session that the completion of an opening finds: a
  companion that could be opened is on the desk.
-/
def delivered
    (s : Session Desk)
    (i : Nat)
    (q : PendingOpen)
    (ok : Bool)
    (lines : Option Int) : Session Desk :=
  if ok then
    (s.withoutOpening i).placeOpened q.companion lines
  else s.withoutOpening i

/- A companion appears before its opening is completed. -/
theorem complete_eq
    {s : Session Desk}
    {i : Nat}
    {q : PendingOpen}
    (h : s.host.opens[i]? = some q)
    (ok : Bool)
    (lines : Option Int) :
    (s.complete i ok lines).1 =
      (s.delivered i q ok lines).companionOpened q ok := by
  simp only [complete, h]
  rfl

/- The opening that completes is the one waited for. -/
theorem companionOpened_awaited
    {s : Session Desk}
    {q : PendingOpen}
    {r : PairRegistry}
    (hFinish : s.registry.finishOpen q = (r, true))
    (hOpen : Host.isOpen s.host q.primary = true) :
    s.companionOpened q true =
      (Table.get? s.models q.companion).elim
        (({ s with registry := r } : Session Desk).register
          q.primary q.companion)
        (({ s with registry := r } : Session Desk).register
          q.primary q.companion |>.render q.companion) := by
  simp only [companionOpened, hFinish, hOpen]
  cases hModel : Table.get? s.models q.companion with
  | none => simp [register, hModel]
  | some m => simp [register, hModel]

/- The opening that completes was given up. -/
theorem companionOpened_abandoned
    {s : Session Desk}
    {q : PendingOpen}
    (hFinish : s.registry.finishOpen q = (s.registry, false)) :
    ∃ text,
      s.companionOpened q true =
        ((s.info text).dropModel q.companion).close
          q.companion := by
  simp only [companionOpened, hFinish]
  exact ⟨_, rfl⟩

end Session

end Pairing

end StyleCompanion
