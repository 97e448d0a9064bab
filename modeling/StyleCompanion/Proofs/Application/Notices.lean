import StyleCompanion.Proofs.Application.Quiet
import StyleCompanion.Proofs.Client.Cycles

/-
  What notices mean to the backend.

  A notice that a document was opened, edited or closed comes
  with one call of the client at most.  Which one it is, and
  what becomes of the outline, follows from the notice and its
  reading: the texts that documents are given and which of
  them are companions.

  A notice concerns its own document only.  To the backend it
  comes down to a note on that document, or to none.

  Main declarations:
    * `Desktop.Reading`
    * `Outline.hear`
    * `Outline.Follows`
    * `Client.Ledger.postsAll`
    * `Outline.notesOf`
    * `Outline.get?_hear_of_ne`
    * `Outline.hear_opened_cases`
    * `Outline.hear_edited_cases`
-/

namespace StyleCompanion

open Pairing
open Client (Note Ledger)
open Desktop (Notice)

----
-- Reading notices
----

/-
  What notices leave out: the texts that documents are given,
  and which documents are companions.
-/
structure Desktop.Reading where
  given : String → String
  paired : String → Bool

open Desktop (Reading)

/- The call of the client that goes with a notice. -/
def Desktop.Reading.call?
    (r : Reading) : Notice → Option Client.Event
  | .opened u .primary =>
      if Application.isMarkup u then
        some (.didOpen u "html" (r.given u))
      else none
  | .edited u =>
      if r.paired u then none
      else some (.didChange u (r.given u))
  | .closed u => some (.didClose u)
  | _ => none

namespace Desktop.Reading

variable {r : Reading} {u : String}

theorem call?_opened
    (h : Application.isMarkup u = true) :
    r.call? (.opened u .primary) =
      some (.didOpen u "html" (r.given u)) :=
  if_pos h

/- Other documents are not announced. -/
theorem call?_opened_eq_none
    {region : Region}
    (h : ¬ (region = .primary ∧
      Application.isMarkup u = true)) :
    r.call? (.opened u region) = none := by
  cases region with
  | primary => exact if_neg fun hMarkup => h ⟨rfl, hMarkup⟩
  | secondary => rfl

theorem call?_edited
    (h : r.paired u = false) :
    r.call? (.edited u) = some (.didChange u (r.given u)) :=
  if_neg (by simp [h])

/- Companions are none of the backend's concern. -/
theorem call?_edited_eq_none
    (h : r.paired u = true) :
    r.call? (.edited u) = none :=
  if_pos h

end Desktop.Reading

/-
  Where the open documents lie with which texts, and the
  ledger of the client.
-/
structure Outline where
  page? : String → Option (Region × String)
  ledger : Client.Ledger

namespace Outline

/- The page of a document after a notice. -/
def pageAfter
    (r : Reading)
    (o : Outline)
    (n : Notice)
    (u : String) : Option (Region × String) :=
  match n with
  | .opened v region =>
      if v = u then some (region, r.given u) else o.page? u
  | .edited v =>
      if v = u then (o.page? u).map fun p => (p.1, r.given u)
      else o.page? u
  | .closed v => if v = u then none else o.page? u
  | _ => o.page? u

/- The outline after a notice. -/
def hear
    (r : Reading)
    (o : Outline)
    (n : Notice) : Outline :=
  { page? := o.pageAfter r n
    ledger := (r.call? n).elim o.ledger o.ledger.call }

/- A document is opened only if it is not open. -/
def Admits
    (o : Outline) : Notice → Prop
  | .opened u _ => o.page? u = none
  | _ => True

/-
  An outline is reached by notices.  The client may accept the
  greeting of the backend at any time.
-/
inductive Follows
    (r : Reading)
    (o : Outline) : List Notice → Outline → Prop
  | start : Follows r o [] o
  | greet
      {ns : List Notice}
      {p : Outline} :
      Follows r o ns p →
      Follows r o ns { p with ledger := p.ledger.greeted }
  | hear
      {ns : List Notice}
      {p : Outline}
      {n : Notice} :
      Follows r o ns p → p.Admits n →
      Follows r o (ns ++ [n]) (p.hear r n)

variable {r : Reading} {o p : Outline} {ns ms : List Notice}

theorem hear_of_isQuiet
    {n : Notice}
    (h : n.isQuiet = true) :
    o.hear r n = o := by
  cases n <;> first | rfl | cases h

theorem admits_of_isQuiet
    {n : Notice}
    (h : n.isQuiet = true) :
    o.Admits n := by
  cases n with
  | opened u region => cases h
  | _ => trivial

/- Notices of other things leave the outline. -/
theorem Follows.quiet
    (h : Follows r o ns p)
    (hQuiet : ∀ n ∈ ms, n.isQuiet = true) :
    Follows r o (ns ++ ms) p := by
  induction ms using List.reverseRecOn with
  | nil =>
      rw [List.append_nil]
      exact h
  | append_singleton ms n ih =>
      have hFirst := ih fun m hm =>
        hQuiet m (List.mem_append_left _ hm)
      have hLast := hQuiet n (by simp)
      have hNext :=
        hFirst.hear (n := n) (admits_of_isQuiet hLast)
      rw [hear_of_isQuiet hLast, List.append_assoc] at hNext
      exact hNext

end Outline

----
-- Calls in order
----

/- The document that a call is about. -/
def Client.Event.uri? : Client.Event → Option String
  | .didOpen uri _ _ => some uri
  | .didChange uri _ => some uri
  | .didClose uri => some uri
  | _ => none

namespace Client.Ledger

/- The ledger after calls in order. -/
def callAll
    (l : Ledger)
    (es : List Event) : Ledger :=
  es.foldl call l

/- The notes that calls in order post. -/
def postsAll
    (l : Ledger)
    (es : List Event) : List (String × Note) :=
  match es with
  | [] => []
  | e :: rest => l.posts e ++ (l.call e).postsAll rest

/- Ledgers with the same versions that post the same. -/
structure Alike
    (l k : Ledger) : Prop where
  accepting : k.state.isAccepting = l.state.isAccepting
  versions : k.versions = l.versions

variable {l k : Ledger}

theorem postsAll_concat
    (l : Ledger)
    (es : List Event)
    (e : Event) :
    l.postsAll (es ++ [e]) =
      l.postsAll es ++ (l.callAll es).posts e := by
  induction es generalizing l with
  | nil => simp [postsAll, callAll]
  | cons first es ih =>
      simp only [List.cons_append, postsAll, ih, callAll,
        List.foldl_cons, List.append_assoc]

namespace Alike

theorem note?
    (h : Alike l k)
    (e : Event) :
    k.note? e = l.note? e := by
  cases e <;> simp only [Ledger.note?, h.versions]

theorem posts
    (h : Alike l k)
    (e : Event) :
    k.posts e = l.posts e := by
  unfold Ledger.posts
  rw [h.accepting, h.note?]

theorem call
    (h : Alike l k)
    (e : Event) :
    Alike (l.call e) (k.call e) := by
  unfold Ledger.call
  rw [h.note?]
  cases l.note? e with
  | none => exact h
  | some n =>
      refine ⟨?_, ?_⟩
      · simpa using h.accepting
      · simp [h.versions]

/- A greeting that is accepted changes no versions. -/
theorem greeted
    (h : Alike l k) :
    Alike l k.greeted := by
  unfold Ledger.greeted
  split
  next hState =>
    refine ⟨?_, by simpa using h.versions⟩
    rw [← h.accepting, hState]
    simp [ClientState.isAccepting, ClientState.isQueueing]
  next => exact h

end Alike

@[simp] theorem call_state
    (l : Ledger)
    (e : Event) :
    (l.call e).state = l.state := by
  unfold call
  split <;> simp

/- The note of a call is on its own document. -/
theorem ne_of_note?
    {e : Event}
    {n : String × Note}
    {u : String}
    (hNote : l.note? e = some n)
    (h : e.uri? ≠ some u) :
    n.1 ≠ u := by
  have hUri : e.uri? = some n.1 := by
    cases e with
    | didOpen uri language text =>
        simp only [note?] at hNote
        split at hNote
        · cases hNote
        · split at hNote <;>
          · cases hNote
            rfl
    | didChange uri text =>
        rcases Option.map_eq_some_iff.mp hNote with ⟨v, -, rfl⟩
        rfl
    | didClose uri =>
        rcases Option.map_eq_some_iff.mp hNote with ⟨v, -, rfl⟩
        rfl
    | _ => cases hNote
  rintro rfl
  exact h hUri

/- A call shows on its own document only. -/
theorem get?_call_of_ne
    {e : Event}
    {u : String}
    (h : e.uri? ≠ some u) :
    Table.get? (l.call e).versions u =
      Table.get? l.versions u := by
  unfold call
  cases hNote : l.note? e with
  | none => rfl
  | some n =>
      simp only [take_versions,
        get?_enter_of_ne (ne_of_note? hNote h)]

theorem notesOn_posts_of_ne
    {e : Event}
    {u : String}
    (h : e.uri? ≠ some u) :
    notesOn u (l.posts e) = [] := by
  unfold posts
  cases hNote : l.note? e with
  | none => simp [notesOn]
  | some n =>
      have hUri := ne_of_note? hNote h
      split <;> simp [notesOn, hUri]

/- A document that is not followed is opened. -/
theorem note?_didOpen_of_none
    {u : String}
    (hUri : u ≠ "")
    (hNone : Table.get? l.versions u = none)
    (language text : String) :
    l.note? (.didOpen u language text) =
      some (u, .opened 1 text) := by
  simp [note?, hUri, hNone]

theorem get?_call_didChange
    (l : Ledger)
    (u text : String) :
    Table.get? (l.call (.didChange u text)).versions u =
      (Table.get? l.versions u).map (· + 1) := by
  cases hFound : Table.get? l.versions u <;>
    simp [call, note?, hFound, enter, Table.get?_insert]

theorem get?_call_didClose
    (l : Ledger)
    (u : String) :
    Table.get? (l.call (.didClose u)).versions u = none := by
  cases hFound : Table.get? l.versions u <;>
    simp [call, note?, hFound, enter, Table.get?_erase]

/- Phases that accept messages are entered by a launch only. -/
theorem Moves.accepting
    {posted : List (String × Note)}
    (h : l.Moves k)
    (hAgrees : l.Agrees posted)
    (hState : k.state.isAccepting = true) :
    l.state.isAccepting = true ∧ k.versions = l.versions := by
  cases h with
  | stay => exact ⟨hState, rfl⟩
  | greet =>
      have hAlike : Alike l l.greeted :=
        Alike.greeted ⟨rfl, rfl⟩
      exact ⟨hAlike.accepting ▸ hState, hAlike.versions⟩
  | begin hStarting =>
      refine ⟨?_, rfl⟩
      rw [hStarting]
      rfl
  | stop _ => cases hState
  | forget hDead =>
      have hAlive := hAgrees.alive hState
      rw [hDead] at hAlive
      cases hAlive
  | finish => cases hState

end Client.Ledger

----
-- Notices and notes
----

/- The document that is opened, edited or closed. -/
def Desktop.Notice.subject? : Notice → Option String
  | .opened u _ => some u
  | .edited u => some u
  | .closed u => some u
  | _ => none

namespace Outline

/- The notes that are posted with a notice. -/
def notesOf
    (r : Reading)
    (o : Outline)
    (n : Notice) : List (String × Note) :=
  (r.call? n).elim [] o.ledger.posts

variable {o : Outline}

/- The versions go on agreeing with what was posted. -/
theorem agrees_hear
    (r : Reading)
    {posted : List (String × Note)}
    (h : o.ledger.Agrees posted)
    (n : Notice) :
    (o.hear r n).ledger.Agrees (posted ++ o.notesOf r n) := by
  unfold hear notesOf
  cases r.call? n with
  | none => simpa using h
  | some e => exact h.call e

/- The call that goes with a notice is on its document. -/
theorem uri?_of_call?
    {r : Reading}
    {n : Notice}
    {e : Client.Event}
    (h : r.call? n = some e) :
    e.uri? = n.subject? := by
  cases n with
  | opened u region =>
      cases region with
      | primary =>
          simp only [Reading.call?] at h
          split at h
          · cases h
            rfl
          · cases h
      | secondary => cases h
  | edited u =>
      simp only [Reading.call?] at h
      split at h
      · cases h
      · cases h
        rfl
  | closed u =>
      cases h
      rfl
  | _ => cases h

section Others

variable {r : Reading} {n : Notice} {u : String}

/- A notice shows on its own document only. -/
theorem page?_hear_of_ne
    (h : n.subject? ≠ some u) :
    (o.hear r n).page? u = o.page? u := by
  cases n with
  | opened v region =>
      exact if_neg fun hEq => h (congrArg some hEq)
  | edited v => exact if_neg fun hEq => h (congrArg some hEq)
  | closed v => exact if_neg fun hEq => h (congrArg some hEq)
  | _ => rfl

theorem get?_hear_of_ne
    (h : n.subject? ≠ some u) :
    Table.get? (o.hear r n).ledger.versions u =
      Table.get? o.ledger.versions u := by
  unfold hear
  cases hCall : r.call? n with
  | none => rfl
  | some e =>
      exact Ledger.get?_call_of_ne (uri?_of_call? hCall ▸ h)

theorem notesOn_notesOf_of_ne
    (h : n.subject? ≠ some u) :
    Client.notesOn u (o.notesOf r n) = [] := by
  unfold notesOf
  cases hCall : r.call? n with
  | none => rfl
  | some e =>
      exact Ledger.notesOn_posts_of_ne
        (uri?_of_call? hCall ▸ h)

theorem state_hear :
    (o.hear r n).ledger.state = o.ledger.state := by
  unfold hear
  cases r.call? n with
  | none => rfl
  | some e => exact o.ledger.call_state e

end Others

section Own

variable {r : Reading} {u : String}

theorem ne_empty_of_isMarkup
    (h : Application.isMarkup u = true) :
    u ≠ "" := by
  rintro rfl
  revert h
  decide

/-
  A new document that is not followed is announced if it is a
  marked-up primary.
-/
theorem hear_opened_cases
    (hAccepting : o.ledger.state.isAccepting = true)
    (hUnknown : Table.get? o.ledger.versions u = none)
    (region : Region) :
    ((region = .primary ∧ Application.isMarkup u = true) ∧
      o.notesOf r (.opened u region) =
        [(u, .opened 1 (r.given u))] ∧
      Table.get? (o.hear r (.opened u region)
        ).ledger.versions u = some 1) ∨
    (¬ (region = .primary ∧ Application.isMarkup u = true) ∧
      o.notesOf r (.opened u region) = [] ∧
      Table.get? (o.hear r (.opened u region)
        ).ledger.versions u = none) := by
  by_cases hAnnounced :
      region = .primary ∧ Application.isMarkup u = true
  · rcases hAnnounced with ⟨rfl, hMarkup⟩
    have hNote := Ledger.note?_didOpen_of_none
      (ne_empty_of_isMarkup hMarkup) hUnknown "html"
      (r.given u)
    have hCall := Reading.call?_opened (r := r) hMarkup
    refine Or.inl ⟨⟨rfl, hMarkup⟩, ?_, ?_⟩
    · rw [notesOf, hCall, Option.elim_some, Ledger.posts,
        if_pos hAccepting, hNote]
      rfl
    · rw [hear, hCall, Option.elim_some, Ledger.call, hNote]
      simp [Ledger.enter, Table.get?_insert]
  · have hNoCall :=
      Reading.call?_opened_eq_none (r := r) hAnnounced
    refine Or.inr ⟨hAnnounced, ?_, ?_⟩
    · rw [notesOf, hNoCall]
      rfl
    · rw [hear, hNoCall]
      exact hUnknown

/-
  A change of a text is told if the document is followed and
  no companion.
-/
theorem hear_edited_cases
    (hAccepting : o.ledger.state.isAccepting = true) :
    (∃ version, r.paired u = false ∧
      Table.get? o.ledger.versions u = some version ∧
      o.notesOf r (.edited u) =
        [(u, .changed (version + 1) (r.given u))] ∧
      Table.get? (o.hear r (.edited u)).ledger.versions u =
        some (version + 1)) ∨
    ((r.paired u = true ∨
        Table.get? o.ledger.versions u = none) ∧
      o.notesOf r (.edited u) = [] ∧
      Table.get? (o.hear r (.edited u)).ledger.versions u =
        Table.get? o.ledger.versions u) := by
  cases hPaired : r.paired u with
  | true =>
      have hNoCall := Reading.call?_edited_eq_none hPaired
      refine Or.inr ⟨Or.inl rfl, ?_, ?_⟩
      · rw [notesOf, hNoCall]
        rfl
      · rw [hear, hNoCall]
        rfl
  | false =>
      have hCall := Reading.call?_edited hPaired
      have hVersion :
          Table.get? (o.hear r (.edited u)).ledger.versions u =
            (Table.get? o.ledger.versions u).map (· + 1) := by
        rw [hear, hCall]
        exact Ledger.get?_call_didChange o.ledger u _
      have hNotes : o.notesOf r (.edited u) =
          ((Table.get? o.ledger.versions u).map fun version =>
            (u, .changed (version + 1) (r.given u))).toList := by
        rw [notesOf, hCall, Option.elim_some, Ledger.posts,
          if_pos hAccepting]
        rfl
      rw [hVersion, hNotes]
      cases hFound : Table.get? o.ledger.versions u with
      | none => exact Or.inr ⟨Or.inr rfl, rfl, rfl⟩
      | some version =>
          exact Or.inl ⟨version, rfl, rfl, rfl, rfl⟩

/- A document that is closed is not followed any more. -/
theorem get?_hear_closed :
    Table.get? (o.hear r (.closed u)).ledger.versions u =
      none :=
  Ledger.get?_call_didClose o.ledger u

/- A closing says so, or nothing. -/
theorem eq_closed_of_mem_notesOf
    {n : String × Note}
    (h : n ∈ o.notesOf r (.closed u)) :
    n.2 = .closed := by
  unfold notesOf Reading.call? at h
  simp only [Option.elim_some, Ledger.posts] at h
  split at h
  · rw [Option.mem_toList] at h
    rcases Option.map_eq_some_iff.mp h with ⟨v, -, rfl⟩
    rfl
  · cases h

end Own

end Outline

end StyleCompanion
