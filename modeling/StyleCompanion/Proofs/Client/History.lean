import StyleCompanion.Client.Run
import StyleCompanion.Proofs.Table

/-
  Histories of the requests of a client.

  What befalls the requests of a client is written down as a
  history.  A request is asked and gets an id, or is refused;
  a reply answers it; the end of a session forgets all that is
  still open.  Books record a last id, a table of requests
  that wait and the callbacks that were made; a history leads
  to its own books, and what they show is what it says.

  Main declarations:
    * `Client.Entry`
    * `Client.history`
    * `Client.Pending`
    * `Client.Book`
    * `Client.Book.Keeps`
-/

namespace StyleCompanion

namespace Client

----
-- Histories
----

/-
  How a reply turns out: an error if it has that field, else
  the result.
-/
def verdictOf
    (fs : Table String Json) : Except Json Json :=
  match Table.get? fs "error" with
  | some e => .error e
  | none => .ok (Json.pick fs ["result"])

/- Tell the one who asked how the reply turned out. -/
def callBack
    (c : Client)
    (action : ReplyAction)
    (verdict : Except Json Json) : Client :=
  match verdict with
  | .error e => c.onError action e
  | .ok value => c.onResult action value

/- What befalls a request. -/
inductive Entry where
  | asked (id : Nat) (request : Awaiting)
  | refused (request : Awaiting)
  | answered (id : Nat) (request : Awaiting)
      (verdict : Except Json Json)
  | forgotten

namespace Entry

/- The id of a request that was asked. -/
def askedId? : Entry → Option Nat
  | .asked id _ => some id
  | _ => none

/- The id of a request that was answered. -/
def answeredId? : Entry → Option Nat
  | .answered id _ _ => some id
  | _ => none

/- The callback that is made, if the request wants one. -/
def callback? : Entry → Option Signal
  | .refused ⟨_, .report tag⟩ =>
      some (.failed tag
        (Rpc.errorValue Rpc.serverNotInitialized
          "Backend is not running"))
  | .answered _ ⟨_, .report tag⟩ (.ok value) =>
      some (.replied tag value)
  | .answered _ ⟨_, .report tag⟩ (.error value) =>
      some (.failed tag value)
  | _ => none

/- Whether a request with an id is over. -/
def Closes
    (n : Nat) : Entry → Prop
  | .answered id _ _ => id = n
  | .forgotten => True
  | _ => False

end Entry

/-
  A request was asked, and since then it was not answered and
  its session has not ended.
-/
def Pending
    (es : List Entry)
    (n : Nat)
    (a : Awaiting) : Prop :=
  ∃ before after,
    es = before ++ .asked n a :: after ∧
      ∀ e ∈ after, ¬ e.Closes n

/- What a message does to the requests of a client. -/
def heard
    (c : Client)
    (fs : Table String Json) : List Entry :=
  match classify fs with
  | .reply =>
      match c.awaitingFor (Json.pick fs ["id"]) with
      | .ok (some (n, a)) => [.answered n a (verdictOf fs)]
      | _ => []
  | _ => []

/- What messages do to the requests, until one fails. -/
def heardAll
    (c : Client)
    (ms : List (Table String Json)) : List Entry :=
  match ms with
  | [] => []
  | fs :: rest =>
      match c.handleMessage fs with
      | (c₁, none) => c.heard fs ++ heardAll c₁ rest
      | (_, some _) => c.heard fs

/- A request by the number that it gives back. -/
def asking
    (request : Awaiting)
    (id : Nat) : Entry :=
  if id = 0 then .refused request else .asked id request

/- What an event does to the requests of a client. -/
def entries
    (env : Environment)
    (c : Client)
    (event : Event) : List Entry :=
  match event with
  | .request method params action =>
      [asking ⟨method, action⟩
        (c.request method params action).2]
  | .started =>
      [.asked (c.started env).lastId
        ⟨"initialize", .finishHandshake⟩]
  | .stop =>
      if !c.process.isAlive then [.forgotten]
      else if c.state = .ready then
        [.asked c.stop.lastId ⟨"shutdown", .sendExit⟩]
      else []
  | .start _ => [.forgotten]
  | .exited _ => [.forgotten]
  | .failed fault =>
      if fault = .failedToStart then [.forgotten] else []
  | .message fs => c.heard fs
  | .output bs =>
      (c.takeBytes bs).1.heardAll (c.takeBytes bs).2
  | _ => []

/- What events in order do to the requests of a client. -/
def history
    (env : Environment)
    (c : Client)
    (events : List Event) : List Entry :=
  match events with
  | [] => []
  | e :: rest =>
      c.entries env e ++ history env (c.step env e).1 rest

----
-- Books
----

/- The callback among the effects of a client. -/
def callback? : ClientEffect → Option Signal
  | .signal (.replied tag value) => some (.replied tag value)
  | .signal (.failed tag value) => some (.failed tag value)
  | _ => none

/- What a client knows of its requests. -/
structure Book where
  lastId : Nat
  awaiting : Table Nat Awaiting
  calls : List Signal

/- The books of a client. -/
def book
    (c : Client) : Book :=
  ⟨c.lastId, c.awaiting, c.journal.filterMap callback?⟩

namespace Book

/- The books at the end of a session. -/
def forget
    (b : Book) : Book :=
  { b with awaiting := [] }

/- Books that a history leads to. -/
inductive Keeps : List Entry → Book → Prop where
  | start : Keeps [] ⟨0, [], []⟩
  | asked
      {es : List Entry}
      {b : Book}
      (h : Keeps es b)
      (r : Awaiting) :
      Keeps (es ++ [.asked (b.lastId + 1) r])
        { b with
          lastId := b.lastId + 1
          awaiting := Table.insert b.awaiting (b.lastId + 1) r }
  | refused
      {es : List Entry}
      {b : Book}
      (h : Keeps es b)
      (r : Awaiting) :
      Keeps (es ++ [.refused r])
        { b with
          calls := b.calls ++ (Entry.refused r).callback?.toList }
  | answered
      {es : List Entry}
      {b : Book}
      {n : Nat}
      {r : Awaiting}
      (h : Keeps es b)
      (hFound : Table.get? b.awaiting n = some r)
      (v : Except Json Json) :
      Keeps (es ++ [.answered n r v])
        { b with
          awaiting := Table.erase b.awaiting n
          calls :=
            b.calls ++ (Entry.answered n r v).callback?.toList }
  | forgotten
      {es : List Entry}
      {b : Book}
      (h : Keeps es b) :
      Keeps (es ++ [.forgotten]) b.forget

end Book

----
-- What a history says
----

section History

variable {es : List Entry} {b : Book}

/- A place in a list that has grown is old or the last. -/
theorem concat_eq_split_iff
    {before after : List Entry}
    {e x : Entry} :
    es ++ [e] = before ++ x :: after ↔
      after = [] ∧ es = before ∧ e = x ∨
        ∃ rest, after = rest ++ [e] ∧
          es = before ++ x :: rest := by
  constructor
  · intro h
    rcases List.eq_nil_or_concat' after with
      rfl | ⟨rest, last, rfl⟩
    · rcases List.append_inj' h rfl with ⟨hEs, hLast⟩
      exact Or.inl ⟨rfl, hEs, List.singleton_inj.mp hLast⟩
    · rw [← List.cons_append, ← List.append_assoc] at h
      rcases List.append_inj' h rfl with ⟨hEs, hLast⟩
      cases hLast
      exact Or.inr ⟨rest, rfl, hEs⟩
  · intro h
    rcases h with ⟨rfl, rfl, rfl⟩ | ⟨rest, rfl, rfl⟩
    · rfl
    · rw [List.append_assoc, List.cons_append]

theorem filterMap_concat
    {α : Type}
    (f : Entry → Option α)
    (es : List Entry)
    (e : Entry) :
    (es ++ [e]).filterMap f =
      es.filterMap f ++ (f e).toList := by
  rw [List.filterMap_append]
  cases h : f e <;> simp [h]

/- A request stays open until something closes it. -/
theorem pending_concat_iff
    {e : Entry}
    {n : Nat}
    {a : Awaiting} :
    Pending (es ++ [e]) n a ↔
      e = .asked n a ∨ Pending es n a ∧ ¬ e.Closes n := by
  constructor
  · intro h
    rcases h with ⟨before, after, hSplit, hOpen⟩
    rcases concat_eq_split_iff.mp hSplit with
      ⟨-, -, hLast⟩ | ⟨rest, rfl, hOld⟩
    · exact Or.inl hLast
    · refine Or.inr ⟨⟨before, rest, hOld, ?_⟩, ?_⟩
      · intro x hx
        exact hOpen x (List.mem_append_left _ hx)
      · exact hOpen e (List.mem_append_right _ (by simp))
  · intro h
    rcases h with rfl | ⟨⟨before, after, rfl, hOpen⟩, hKept⟩
    · exact ⟨es, [], rfl, by simp⟩
    · refine ⟨before, after ++ [e], by simp, ?_⟩
      intro x hx
      rcases List.mem_append.mp hx with hOld | hNew
      · exact hOpen x hOld
      · rw [List.mem_singleton.mp hNew]
        exact hKept

theorem Pending.mem_asked
    {n : Nat}
    {a : Awaiting}
    (h : Pending es n a) :
    n ∈ es.filterMap Entry.askedId? := by
  rcases h with ⟨before, after, rfl, -⟩
  simp [Entry.askedId?]

namespace Book.Keeps

theorem calls_eq
    (h : Keeps es b) :
    b.calls = es.filterMap Entry.callback? := by
  induction h with
  | start => rfl
  | asked h r ih =>
      simp [Entry.callback?, ih]
  | refused h r ih => rw [filterMap_concat, ih]
  | answered h hFound v ih => rw [filterMap_concat, ih]
  | forgotten h ih =>
      simp [Entry.callback?, forget, ih]

/- No id is above the last one. -/
theorem asked_le
    (h : Keeps es b) :
    ∀ n ∈ es.filterMap Entry.askedId?, n ≤ b.lastId := by
  induction h with
  | start => simp
  | asked h r ih =>
      intro n hn
      rw [filterMap_concat, List.mem_append] at hn
      rcases hn with hOld | hNew
      · exact Nat.le_succ_of_le (ih n hOld)
      · cases List.mem_singleton.mp hNew
        exact Nat.le_refl _
  | refused h r ih =>
      simpa [filterMap_concat, Entry.askedId?] using ih
  | answered h hFound v ih =>
      simpa [filterMap_concat, Entry.askedId?] using ih
  | forgotten h ih =>
      simpa [filterMap_concat, Entry.askedId?, forget] using ih

theorem asked_increasing
    (h : Keeps es b) :
    (es.filterMap Entry.askedId?).Pairwise (· < ·) := by
  induction h with
  | start => exact .nil
  | asked h r ih =>
      rw [filterMap_concat, List.pairwise_append]
      refine ⟨ih, List.pairwise_singleton _ _, ?_⟩
      intro m hm n hn
      cases List.mem_singleton.mp hn
      exact Nat.lt_succ_of_le (h.asked_le m hm)
  | refused h r ih =>
      rw [filterMap_concat]
      simpa [Entry.askedId?] using ih
  | answered h hFound v ih =>
      rw [filterMap_concat]
      simpa [Entry.askedId?] using ih
  | forgotten h ih =>
      rw [filterMap_concat]
      simpa [Entry.askedId?] using ih

/- The table holds the requests that are open. -/
theorem get?_awaiting_iff
    (h : Keeps es b)
    {n : Nat}
    {a : Awaiting} :
    Table.get? b.awaiting n = some a ↔ Pending es n a := by
  induction h with
  | start => simp [Pending]
  | @asked es b h r ih =>
      have hFresh : ¬ Pending es (b.lastId + 1) a := by
        intro hPending
        exact Nat.not_succ_le_self _
          (h.asked_le _ hPending.mem_asked)
      rw [pending_concat_iff, Table.get?_insert]
      by_cases hEq : b.lastId + 1 = n
      · subst hEq
        simp [hFresh, Entry.Closes]
      · simp [hEq, ih, Entry.Closes]
  | refused h r ih =>
      rw [pending_concat_iff]
      simpa [Entry.Closes] using ih
  | @answered es b m r h hFound v ih =>
      rw [pending_concat_iff, Table.get?_erase]
      by_cases hEq : m = n
      · simp [hEq, Entry.Closes]
      · simp [hEq, ih, Entry.Closes]
  | forgotten h ih =>
      rw [pending_concat_iff]
      simp [forget, Entry.Closes]

/- Only an open request is answered. -/
theorem pending_of_answered
    (h : Keeps es b)
    {before after : List Entry}
    {n : Nat}
    {a : Awaiting}
    {v : Except Json Json}
    (hSplit : es = before ++ .answered n a v :: after) :
    Pending before n a := by
  induction h generalizing after with
  | start => simp at hSplit
  | asked h r ih =>
      rcases concat_eq_split_iff.mp hSplit with
        ⟨-, -, hLast⟩ | ⟨rest, -, hOld⟩
      · cases hLast
      · exact ih hOld
  | refused h r ih =>
      rcases concat_eq_split_iff.mp hSplit with
        ⟨-, -, hLast⟩ | ⟨rest, -, hOld⟩
      · cases hLast
      · exact ih hOld
  | answered h hFound v ih =>
      rcases concat_eq_split_iff.mp hSplit with
        ⟨-, hBefore, hLast⟩ | ⟨rest, -, hOld⟩
      · cases hLast
        subst hBefore
        exact h.get?_awaiting_iff.mp hFound
      · exact ih hOld
  | forgotten h ih =>
      rcases concat_eq_split_iff.mp hSplit with
        ⟨-, -, hLast⟩ | ⟨rest, -, hOld⟩
      · cases hLast
      · exact ih hOld

/- An id that was answered is neither new nor open. -/
theorem answered_closed
    (h : Keeps es b) :
    ∀ n ∈ es.filterMap Entry.answeredId?,
      n ≤ b.lastId ∧ Table.get? b.awaiting n = none := by
  induction h with
  | start => simp
  | @asked es b h r ih =>
      intro n hn
      rw [filterMap_concat] at hn
      rcases ih n (by simpa [Entry.answeredId?] using hn) with
        ⟨hOld, hNone⟩
      have hNe : b.lastId + 1 ≠ n := by omega
      refine ⟨Nat.le_succ_of_le hOld, ?_⟩
      rw [Table.get?_insert, if_neg hNe]
      exact hNone
  | refused h r ih =>
      intro n hn
      rw [filterMap_concat] at hn
      exact ih n (by simpa [Entry.answeredId?] using hn)
  | @answered es b m r h hFound v ih =>
      intro n hn
      rw [filterMap_concat, List.mem_append] at hn
      rw [Table.get?_erase]
      rcases hn with hOld | hNew
      · rcases ih n hOld with ⟨hLe, hNone⟩
        exact ⟨hLe, by rw [hNone, ite_self]⟩
      · cases List.mem_singleton.mp hNew
        have hAsked := (h.get?_awaiting_iff.mp hFound).mem_asked
        exact ⟨h.asked_le m hAsked, if_pos rfl⟩
  | forgotten h ih =>
      intro n hn
      rw [filterMap_concat] at hn
      exact ⟨(ih n (by simpa [Entry.answeredId?] using hn)).1,
        rfl⟩

theorem answered_nodup
    (h : Keeps es b) :
    (es.filterMap Entry.answeredId?).Nodup := by
  induction h with
  | start => exact List.nodup_nil
  | asked h r ih =>
      rw [filterMap_concat]
      simpa [Entry.answeredId?] using ih
  | refused h r ih =>
      rw [filterMap_concat]
      simpa [Entry.answeredId?] using ih
  | @answered es b n r h hFound v ih =>
      rw [filterMap_concat, List.nodup_append]
      refine ⟨ih, List.nodup_singleton _, ?_⟩
      intro m hm k hk hEq
      cases List.mem_singleton.mp hk
      subst hEq
      rw [(h.answered_closed m hm).2] at hFound
      cases hFound
  | forgotten h ih =>
      rw [filterMap_concat]
      simpa [Entry.answeredId?] using ih

end Book.Keeps

end History

end Client

end StyleCompanion
