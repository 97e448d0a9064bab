import StyleCompanion.Proofs.Client.Ledger

/-
  Documents are told about in cycles.

  Within a session the messages about one document open it at
  version one, change it version by version and close it,
  after which it may be opened again.  A cycle is given by the
  texts that its messages carry.

  The versions of the client are kept in all phases, also when
  nothing is sent.  While the client accepts messages, they
  agree with what was posted since the launch.

  Main declarations:
    * `Client.cycle`
    * `Client.Told`
    * `Client.Ledger.Agrees`
    * `Client.Ledger.Delivers`
    * `Client.postedSince`
    * `Client.documents_run_in_cycles`
-/

namespace StyleCompanion

namespace Client

----
-- Cycles
----

/- The note on the next text of a document. -/
def nextNote
    (texts : List String)
    (text : String) : Note :=
  if texts.isEmpty then .opened 1 text
  else .changed (texts.length + 1) text

/-
  The notes of a cycle: the document is opened with the first
  text and changed to each further one.
-/
def cycle
    (texts : List String) : List Note :=
  texts.mapIdx fun i text =>
    if i = 0 then .opened 1 text else .changed (i + 1) text

/- The version of a document that had these texts. -/
def versionOf
    (texts : List String) : Option Nat :=
  if texts.isEmpty then none else some texts.length

/- What is told about one document. -/
def notesOn
    (uri : String)
    (ns : List (String × Note)) : List Note :=
  ns.filterMap fun n => if n.1 = uri then some n.2 else none

theorem notesOn_append
    (uri : String)
    (ns ms : List (String × Note)) :
    notesOn uri (ns ++ ms) = notesOn uri ns ++ notesOn uri ms :=
  List.filterMap_append

theorem cycle_concat
    (texts : List String)
    (text : String) :
    cycle (texts ++ [text]) =
      cycle texts ++ [nextNote texts text] := by
  unfold cycle nextNote
  rw [List.mapIdx_concat]
  cases texts <;> simp

/-
  Notes on one document, made of finished cycles and one that
  goes on.
-/
structure Told
    (ns : List Note)
    (finished : List (List String))
    (current : List String) : Prop where
  opened : ∀ texts ∈ finished, texts ≠ []
  notes :
    ns =
      finished.flatMap (fun texts => cycle texts ++ [.closed])
        ++ cycle current

namespace Told

variable {ns : List Note}
variable {finished : List (List String)}
variable {current : List String}

theorem nothing :
    Told [] [] [] := by
  refine ⟨?_, rfl⟩
  intro texts hTexts
  cases hTexts

/- The next text belongs to the cycle that goes on. -/
theorem next
    (h : Told ns finished current)
    (text : String) :
    Told (ns ++ [nextNote current text]) finished
      (current ++ [text]) := by
  refine ⟨h.opened, ?_⟩
  rw [h.notes, cycle_concat, List.append_assoc]

/- Closing ends a cycle that was opened. -/
theorem close
    (h : Told ns finished current)
    (hOpen : current ≠ []) :
    Told (ns ++ [.closed]) (finished ++ [current]) [] := by
  refine ⟨?_, ?_⟩
  · intro texts hTexts
    rcases List.mem_append.mp hTexts with hOld | hNew
    · exact h.opened texts hOld
    · rw [List.mem_singleton.mp hNew]
      exact hOpen
  · rw [h.notes]
    simp [cycle]

end Told

----
-- Versions and what was posted
----

namespace Ledger

/- The notes that a call posts. -/
def posts
    (l : Ledger)
    (e : Event) : List (String × Note) :=
  if l.state.isAccepting then (l.note? e).toList else []

/-
  The versions agree with what was posted.  A client accepts
  messages only while its process is alive.
-/
structure Agrees
    (posted : List (String × Note))
    (l : Ledger) : Prop where
  alive : l.state.isAccepting = true → l.alive = true
  told : ∀ uri, ∃ finished current,
    Told (notesOn uri posted) finished current ∧
      (l.state.isAccepting = true →
        Table.get? l.versions uri = versionOf current)

section Fields

variable (l : Ledger) (ns : List (String × Note))

@[simp] theorem deliver_state :
    (l.deliver ns).state = l.state := by
  unfold deliver
  split <;> rfl

@[simp] theorem deliver_alive :
    (l.deliver ns).alive = l.alive := by
  unfold deliver
  split <;> rfl

@[simp] theorem deliver_versions :
    (l.deliver ns).versions = l.versions := by
  unfold deliver
  split <;> rfl

@[simp] theorem post_state :
    (l.post ns).state = l.state := by
  unfold post
  split
  · rfl
  · split <;> simp

@[simp] theorem post_alive :
    (l.post ns).alive = l.alive := by
  unfold post
  split
  · rfl
  · split <;> simp

@[simp] theorem post_versions :
    (l.post ns).versions = l.versions := by
  unfold post
  split
  · rfl
  · split <;> simp

@[simp] theorem take_state
    (n : String × Note) :
    (l.take n).state = l.state := by
  simp [take]

@[simp] theorem take_alive
    (n : String × Note) :
    (l.take n).alive = l.alive := by
  simp [take]

@[simp] theorem take_versions
    (n : String × Note) :
    (l.take n).versions = enter l.versions n.1 n.2 := by
  simp [take]

end Fields

/- Other phases only keep the versions. -/
theorem take_of_not_accepting
    {l : Ledger}
    (h : l.state.isAccepting = false)
    (n : String × Note) :
    l.take n =
      { l with versions := enter l.versions n.1 n.2 } := by
  simp only [ClientState.isAccepting,
    Bool.or_eq_false_iff] at h
  simp [take, post, h]

/- A note shows in the versions of its own document only. -/
theorem get?_enter_of_ne
    {uri other : String}
    (h : uri ≠ other)
    (versions : Table String Nat)
    (n : Note) :
    Table.get? (enter versions uri n) other =
      Table.get? versions other := by
  cases n <;>
    simp [enter, Table.get?_insert, Table.get?_erase, h]

/-
  The note of a call is on the next text of its document, or
  closes a document that is open.
-/
theorem note?_cases
    {l : Ledger}
    {e : Event}
    {uri : String}
    {note : Note}
    {current : List String}
    (hNote : l.note? e = some (uri, note))
    (hVersion :
      Table.get? l.versions uri = versionOf current) :
    (∃ text, note = nextNote current text) ∨
      (note = .closed ∧ current ≠ []) := by
  cases e with
  | didOpen other language text =>
      left
      refine ⟨text, ?_⟩
      simp only [note?] at hNote
      split at hNote
      · cases hNote
      · split at hNote
        next hNone =>
          cases hNote
          rw [hNone] at hVersion
          cases current with
          | nil => rfl
          | cons _ _ => cases hVersion
        next v hSome =>
          cases hNote
          rw [hSome] at hVersion
          cases current with
          | nil => cases hVersion
          | cons _ _ =>
              cases hVersion
              rfl
  | didChange other text =>
      left
      refine ⟨text, ?_⟩
      simp only [note?, Option.map_eq_some_iff] at hNote
      rcases hNote with ⟨v, hSome, hPair⟩
      cases hPair
      rw [hSome] at hVersion
      cases current with
      | nil => cases hVersion
      | cons _ _ =>
          cases hVersion
          rfl
  | didClose other =>
      right
      simp only [note?, Option.map_eq_some_iff] at hNote
      rcases hNote with ⟨v, hSome, hPair⟩
      cases hPair
      rw [hSome] at hVersion
      refine ⟨rfl, ?_⟩
      rintro rfl
      cases hVersion
  | _ => cases hNote

theorem get?_enter_nextNote
    (versions : Table String Nat)
    (uri text : String)
    (current : List String) :
    Table.get?
        (enter versions uri (nextNote current text)) uri =
      versionOf (current ++ [text]) := by
  cases current <;>
    simp [nextNote, enter, versionOf, Table.get?_insert]

namespace Agrees

variable {posted : List (String × Note)} {l k : Ledger}

theorem launched
    (fails : Bool) :
    Agrees [] (.launched fails) := by
  refine ⟨fun _ => rfl, ?_⟩
  intro uri
  exact ⟨[], [], Told.nothing, fun _ => rfl⟩

/- A phase that accepts nothing asks for nothing. -/
theorem of_not_accepting
    (h : Agrees posted l)
    (hState : k.state.isAccepting = false) :
    Agrees posted k := by
  refine ⟨?_, ?_⟩
  · intro hAccepting
    rw [hState] at hAccepting
    cases hAccepting
  · intro uri
    rcases h.told uri with ⟨finished, current, hTold, _⟩
    refine ⟨finished, current, hTold, ?_⟩
    intro hAccepting
    rw [hState] at hAccepting
    cases hAccepting

/- Moves within the phases that accept keep the versions. -/
theorem of_same
    (h : Agrees posted l)
    (hAlive : l.alive = true → k.alive = true)
    (hState : k.state.isAccepting = true →
      l.state.isAccepting = true)
    (hVersions : k.versions = l.versions) :
    Agrees posted k := by
  refine ⟨fun hk => hAlive (h.alive (hState hk)), ?_⟩
  intro uri
  rcases h.told uri with ⟨finished, current, hTold, hVersion⟩
  refine ⟨finished, current, hTold, ?_⟩
  intro hk
  rw [hVersions]
  exact hVersion (hState hk)

/- A note that is posted goes on with its document. -/
theorem take
    (h : Agrees posted l)
    {e : Event}
    {n : String × Note}
    (hNote : l.note? e = some n)
    (hAccepting : l.state.isAccepting = true) :
    Agrees (posted ++ [n]) (l.take n) := by
  refine ⟨by simpa using h.alive, ?_⟩
  intro uri
  rcases h.told uri with ⟨finished, current, hTold, hVersion⟩
  by_cases hUri : n.1 = uri
  · subst hUri
    have hOn : notesOn n.1 (posted ++ [n]) =
        notesOn n.1 posted ++ [n.2] := by
      simp [notesOn]
    rw [hOn]
    rcases note?_cases hNote (hVersion hAccepting) with
      ⟨text, hNext⟩ | ⟨hClosed, hOpen⟩
    · rw [hNext]
      refine ⟨finished, current ++ [text], hTold.next text, ?_⟩
      intro _
      rw [take_versions, hNext, get?_enter_nextNote]
    · rw [hClosed]
      refine ⟨finished ++ [current], [], hTold.close hOpen, ?_⟩
      intro _
      rw [take_versions, hClosed]
      simp [enter, Table.get?_erase, versionOf]
  · have hOn : notesOn uri (posted ++ [n]) =
        notesOn uri posted := by
      simp [notesOn, hUri]
    rw [hOn]
    refine ⟨finished, current, hTold, ?_⟩
    intro _
    rw [take_versions, get?_enter_of_ne hUri]
    exact hVersion hAccepting

/- A call posts its note or, in other phases, nothing. -/
theorem call
    (h : Agrees posted l)
    (e : Event) :
    Agrees (posted ++ l.posts e) (l.call e) := by
  unfold Ledger.call posts
  cases hNote : l.note? e with
  | none => simpa using h
  | some n =>
      cases hState : l.state.isAccepting with
      | true => exact h.take hNote hState
      | false =>
          simp only [Bool.false_eq_true, if_false,
            List.append_nil]
          rw [take_of_not_accepting hState]
          exact h.of_not_accepting hState

theorem moves
    (h : Agrees posted l)
    (hMoves : l.Moves k) :
    Agrees posted k := by
  cases hMoves with
  | stay => exact h
  | greet =>
      unfold greeted
      split
      next hState =>
        refine h.of_same (by simp) ?_ (by simp)
        intro _
        rw [hState]
        rfl
      next => exact h
  | begin hState =>
      refine h.of_same (fun _ => rfl) ?_ rfl
      intro _
      rw [hState]
      rfl
  | stop _ => exact h.of_not_accepting rfl
  | forget hDead =>
      refine h.of_not_accepting ?_
      rw [Bool.eq_false_iff]
      intro hAccepting
      have hAlive := h.alive hAccepting
      rw [hDead] at hAlive
      cases hAlive
  | finish => exact h.of_not_accepting rfl

end Agrees

----
-- What was posted and what was written
----

/-
  No write was refused: what was posted waits until the
  greeting is accepted and is on the wire from there on.
-/
structure Delivers
    (posted : List (String × Note))
    (l : Ledger) : Prop where
  takes : l.fails = false
  waits : l.state.isQueueing = true →
    l.wire = [] ∧ l.waiting = posted
  ready : l.state = .ready → l.wire = posted
  sent : l.wire <+: posted

namespace Delivers

variable {posted : List (String × Note)} {l k : Ledger}

theorem launched :
    Delivers [] (.launched false) := by
  refine ⟨rfl, fun _ => ⟨rfl, rfl⟩, ?_, List.prefix_rfl⟩
  intro hReady
  cases hReady

/- A phase that accepts nothing keeps what was sent. -/
theorem of_not_accepting
    (h : Delivers posted l)
    (hState : k.state.isAccepting = false)
    (hFails : k.fails = l.fails)
    (hWire : k.wire = l.wire) :
    Delivers posted k := by
  simp only [ClientState.isAccepting, Bool.or_eq_false_iff,
    beq_eq_false_iff_ne] at hState
  refine ⟨hFails.trans h.takes, ?_, ?_, ?_⟩
  · intro hQueue
    rw [hState.1] at hQueue
    cases hQueue
  · intro hReady
    exact absurd hReady hState.2
  · rw [hWire]
    exact h.sent

/- A note that is posted waits, or is written at once. -/
theorem take
    (h : Delivers posted l)
    (hAgrees : Agrees posted l)
    (hAccepting : l.state.isAccepting = true)
    (n : String × Note) :
    Delivers (posted ++ [n]) (l.take n) := by
  unfold Ledger.take Ledger.post
  dsimp only
  by_cases hQueue : l.state.isQueueing = true
  · rcases h.waits hQueue with ⟨hWire, hWaiting⟩
    rw [if_pos hQueue]
    refine ⟨h.takes, ?_, ?_, ?_⟩
    · intro _
      exact ⟨hWire, congrArg (· ++ [n]) hWaiting⟩
    · intro hReady
      rw [show l.state = .ready from hReady] at hQueue
      cases hQueue
    · exact h.sent.trans (List.prefix_append _ _)
  · have hReady : l.state = .ready := by
      simpa [ClientState.isAccepting, hQueue] using hAccepting
    have hWire : l.wire ++ [n] = posted ++ [n] := by
      rw [h.ready hReady]
    unfold Ledger.deliver
    rw [if_neg hQueue, if_pos (by simp [hReady]),
      if_pos (by simp [hAgrees.alive hAccepting, h.takes])]
    refine ⟨h.takes, ?_, fun _ => hWire, ?_⟩
    · intro hOther
      exact absurd hOther hQueue
    · exact hWire ▸ List.prefix_rfl

/- A call posts its note or, in other phases, nothing. -/
theorem call
    (h : Delivers posted l)
    (hAgrees : Agrees posted l)
    (e : Event) :
    Delivers (posted ++ l.posts e) (l.call e) := by
  unfold Ledger.call posts
  cases hNote : l.note? e with
  | none => simpa using h
  | some n =>
      cases hState : l.state.isAccepting with
      | true => exact h.take hAgrees hState n
      | false =>
          simp only [Bool.false_eq_true, if_false,
            List.append_nil]
          rw [take_of_not_accepting hState]
          exact h.of_not_accepting hState rfl rfl

theorem moves
    (h : Delivers posted l)
    (hAgrees : Agrees posted l)
    (hMoves : l.Moves k) :
    Delivers posted k := by
  cases hMoves with
  | stay => exact h
  | greet =>
      unfold greeted
      split
      next hState =>
        have hQueue : l.state.isQueueing = true := by
          rw [hState]
          rfl
        have hAlive : l.alive = true :=
          hAgrees.alive (by simp [ClientState.isAccepting,
            hQueue])
        rcases h.waits hQueue with ⟨hWire, hWaiting⟩
        unfold Ledger.deliver
        rw [if_pos (by simp [hAlive, h.takes])]
        have hAll : l.wire ++ l.waiting = posted := by
          rw [hWire, hWaiting, List.nil_append]
        refine ⟨h.takes, ?_, fun _ => hAll, ?_⟩
        · intro hOther
          cases hOther
        · exact hAll ▸ List.prefix_rfl
      next => exact h
  | begin hState =>
      have hQueue : l.state.isQueueing = true := by
        rw [hState]
        rfl
      refine ⟨h.takes, fun _ => h.waits hQueue, ?_, h.sent⟩
      intro hReady
      cases hReady
  | stop _ => exact h.of_not_accepting rfl rfl rfl
  | forget hDead =>
      refine h.of_not_accepting ?_ rfl rfl
      rw [Bool.eq_false_iff]
      intro hAccepting
      have hAlive := hAgrees.alive hAccepting
      rw [hDead] at hAlive
      cases hAlive
  | finish => exact h.of_not_accepting rfl rfl rfl

end Delivers

end Ledger

----
-- Runs
----

/- The messages that an event posts, by the phase. -/
def accepts
    (c : Client)
    (e : Event) : List Json :=
  if c.state.isAccepting then c.posts e else []

/- What was posted in the session after an event. -/
def postedAfter
    (c : Client)
    (posted : List Json)
    (e : Event) : List Json :=
  if e.launches then [] else posted ++ c.accepts e

/- The messages that events post since the last launch. -/
def postedSince
    (env : Environment)
    (c : Client)
    (posted : List Json)
    (events : List Event) : List Json :=
  match events with
  | [] => posted
  | e :: rest =>
      postedSince env (c.step env e).1
        (c.postedAfter posted e) rest

/-
  Whether the process reports its start only when it was
  launched.
-/
def startsInOrder
    (env : Environment)
    (c : Client)
    (events : List Event) : Bool :=
  match events with
  | [] => true
  | e :: rest =>
      e.isInOrder c && startsInOrder env (c.step env e).1 rest

theorem notes_append
    (ms ns : List Json) :
    notes (ms ++ ns) = notes ms ++ notes ns :=
  List.filterMap_append

/- What an event posts about documents is its note. -/
theorem notes_posts
    (past : List ClientEffect)
    (c : Client)
    {e : Event}
    (hForges : e.forges = false) :
    notes (c.posts e) = ((c.ledgerOn past).note? e).toList := by
  have hChange : ∀ uri text,
      notes (c.changePosts uri text) =
        ((c.ledgerOn past).note? (.didChange uri text)
          ).toList := by
    intro uri text
    have hNote :
        (c.ledgerOn past).note? (.didChange uri text) =
          (Table.get? c.versions uri).map fun v =>
            (uri, .changed (v + 1) text) := rfl
    rw [hNote]
    unfold changePosts
    cases Table.get? c.versions uri <;> rfl
  cases e with
  | request method params action =>
      have hNone := about?_request
        (by simpa [Event.forges] using hForges)
        (c.lastId + 1) (paramsOrEmpty params)
      simp [posts, notes, Ledger.note?, hNone]
  | notify method params =>
      have hNone := about?_notification
        (by simpa [Event.forges] using hForges)
        (paramsOrEmpty params)
      simp [posts, notes, Ledger.note?, hNone]
  | didChange uri text => exact hChange uri text
  | didOpen uri language text =>
      have hTracked := hChange uri text
      simp only [posts, Ledger.note?] at hTracked ⊢
      split
      · rfl
      · cases hFound : Table.get? c.versions uri with
        | none =>
            rw [if_neg (by simp [isTracking, Table.contains,
              hFound])]
            simp only [ledgerOn, hFound]
            rfl
        | some v =>
            rw [if_pos (by simp [isTracking, Table.contains,
              hFound]), hTracked]
            simp only [ledgerOn, hFound]
            rfl
  | didClose uri =>
      simp only [posts, Ledger.note?]
      cases hFound : Table.get? c.versions uri with
      | none =>
          rw [if_neg (by simp [isTracking, Table.contains,
            hFound])]
          simp only [ledgerOn, hFound]
          rfl
      | some v =>
          rw [if_pos (by simp [isTracking, Table.contains,
            hFound])]
          simp only [ledgerOn, hFound]
          rfl
  | _ => rfl

theorem notes_accepts
    (past : List ClientEffect)
    (c : Client)
    {e : Event}
    (hForges : e.forges = false) :
    notes (c.accepts e) = (c.ledgerOn past).posts e := by
  have hPosts := notes_posts past c hForges
  unfold accepts Ledger.posts
  change _ = if c.state.isAccepting = true then _ else _
  split
  · exact hPosts
  · rfl

----
-- The invariant along a run
----

section Runs

variable {past : List ClientEffect}
variable {posted : List Json} {c : Client}

theorem agrees_new
    (errorText : String) :
    Ledger.Agrees (notes [])
      ((Client.new errorText).ledgerOn []) := by
  refine ⟨?_, ?_⟩
  · intro hAccepting
    cases hAccepting
  · intro uri
    exact ⟨[], [], Told.nothing, fun _ => rfl⟩

theorem delivers_new
    (errorText : String) :
    Ledger.Delivers (notes [])
      ((Client.new errorText).ledgerOn []) := by
  refine ⟨rfl, ?_, ?_, List.prefix_rfl⟩
  · intro hQueue
    cases hQueue
  · intro hReady
    cases hReady

/- What an event that is no launch adds is its note. -/
theorem notes_postedAfter
    (past : List ClientEffect)
    (c : Client)
    (posted : List Json)
    {e : Event}
    (hLaunch : e.launches = false)
    (hForges : e.forges = false) :
    notes (c.postedAfter posted e) =
      notes posted ++ (c.ledgerOn past).posts e := by
  rw [postedAfter, hLaunch, if_neg (by simp), notes_append,
    notes_accepts past c hForges]

/- An event that is no call posts nothing on documents. -/
theorem posts_of_not_isCall
    (l : Ledger)
    {e : Event}
    (h : e.isCall = false) :
    l.posts e = [] := by
  have hNone : l.note? e = none := by
    cases e <;> first | rfl | cases h
  simp [Ledger.posts, hNone]

/- Every event in order keeps the agreement. -/
theorem agrees_step
    (h : (c.ledgerOn past).Agrees (notes posted))
    (env : Environment)
    {e : Event}
    (hForges : e.forges = false)
    (hOrder : e.isInOrder c = true) :
    ((c.step env e).1.ledgerOn past).Agrees
      (notes (c.postedAfter posted e)) := by
  cases hLaunch : e.launches with
  | true =>
      rw [ledger_step_of_launches past c env hLaunch,
        postedAfter, if_pos hLaunch]
      exact .launched _
  | false =>
      rw [notes_postedAfter past c posted hLaunch hForges]
      cases hCall : e.isCall with
      | true =>
          rw [ledger_step_of_call past c env hCall]
          exact h.call e
      | false =>
          rw [posts_of_not_isCall _ hCall, List.append_nil]
          cases hFaults : e.faults with
          | true =>
              cases e with
              | writeFails value => exact h.of_same id id rfl
              | _ => cases hFaults
          | false =>
              exact h.moves
                (moves_step past c env hCall hLaunch hFaults
                  hForges hOrder)

/- While no write is refused, every event delivers. -/
theorem delivers_step
    (h : (c.ledgerOn past).Delivers (notes posted))
    (hAgrees : (c.ledgerOn past).Agrees (notes posted))
    (env : Environment)
    {e : Event}
    (hForges : e.forges = false)
    (hOrder : e.isInOrder c = true)
    (hWrites : e ≠ .writeFails true) :
    ((c.step env e).1.ledgerOn past).Delivers
      (notes (c.postedAfter posted e)) := by
  cases hLaunch : e.launches with
  | true =>
      have hTakes : c.process.writeFails = false := h.takes
      rw [ledger_step_of_launches past c env hLaunch,
        postedAfter, if_pos hLaunch, hTakes]
      exact .launched
  | false =>
      rw [notes_postedAfter past c posted hLaunch hForges]
      cases hCall : e.isCall with
      | true =>
          rw [ledger_step_of_call past c env hCall]
          exact h.call hAgrees e
      | false =>
          rw [posts_of_not_isCall _ hCall, List.append_nil]
          cases hFaults : e.faults with
          | true =>
              cases e with
              | writeFails value =>
                  cases value with
                  | true => exact absurd rfl hWrites
                  | false =>
                      exact ⟨rfl, h.waits, h.ready, h.sent⟩
              | _ => cases hFaults
          | false =>
              exact h.moves hAgrees
                (moves_step past c env hCall hLaunch hFaults
                  hForges hOrder)

theorem agrees_run
    (h : (c.ledgerOn past).Agrees (notes posted))
    (env : Environment)
    {events : List Event}
    (hForges : ∀ e ∈ events, e.forges = false)
    (hOrder : startsInOrder env c events = true) :
    ((run env c events).ledgerOn past).Agrees
      (notes (postedSince env c posted events)) := by
  induction events generalizing c posted with
  | nil => exact h
  | cons e events ih =>
      rw [startsInOrder, Bool.and_eq_true] at hOrder
      have hStep := agrees_step h env
        (hForges e List.mem_cons_self) hOrder.1
      exact ih hStep
        (fun x hx => hForges x (List.mem_cons_of_mem _ hx))
        hOrder.2

theorem delivers_run
    (h : (c.ledgerOn past).Delivers (notes posted))
    (hAgrees : (c.ledgerOn past).Agrees (notes posted))
    (env : Environment)
    {events : List Event}
    (hForges : ∀ e ∈ events, e.forges = false)
    (hOrder : startsInOrder env c events = true)
    (hWrites : ∀ e ∈ events, e ≠ .writeFails true) :
    ((run env c events).ledgerOn past).Delivers
      (notes (postedSince env c posted events)) := by
  induction events generalizing c posted with
  | nil => exact h
  | cons e events ih =>
      rw [startsInOrder, Bool.and_eq_true] at hOrder
      have hFirst := hForges e List.mem_cons_self
      have hStep := delivers_step h hAgrees env hFirst hOrder.1
        (hWrites e List.mem_cons_self)
      exact ih hStep (agrees_step hAgrees env hFirst hOrder.1)
        (fun x hx => hForges x (List.mem_cons_of_mem _ hx))
        hOrder.2
        (fun x hx => hWrites x (List.mem_cons_of_mem _ hx))

end Runs

----
-- Answers
----

/- The version that is sent with the next text. -/
theorem didChange_snd
    {c : Client}
    {uri : String}
    {current : List String}
    (h : Table.get? c.versions uri = versionOf current)
    (text : String) :
    (c.didChange uri text).2 =
      if current = [] then 0 else current.length + 1 := by
  unfold didChange
  rw [h]
  cases current <;> rfl

theorem didOpen_snd
    {c : Client}
    {uri : String}
    {current : List String}
    (h : Table.get? c.versions uri = versionOf current)
    (hUri : uri ≠ "")
    (language text : String) :
    (c.didOpen uri language text).2 = current.length + 1 := by
  have hChange := didChange_snd h text
  unfold didOpen
  rw [if_neg (by simpa using hUri)]
  cases current with
  | nil =>
      rw [if_neg (by simp [isTracking, Table.contains, h,
        versionOf])]
      rfl
  | cons first rest =>
      rw [if_pos (by simp [isTracking, Table.contains, h,
        versionOf]), hChange]
      rfl

/- What the calls on one document post, by its texts. -/
theorem notes_accepts_of_version
    {c : Client}
    {uri : String}
    {current : List String}
    (hState : c.state.isAccepting = true)
    (h : Table.get? c.versions uri = versionOf current) :
    (∀ language text, uri ≠ "" →
      notes (c.accepts (.didOpen uri language text)) =
        [(uri, nextNote current text)]) ∧
    (∀ text, notes (c.accepts (.didChange uri text)) =
      if current = [] then []
      else [(uri, nextNote current text)]) ∧
    notes (c.accepts (.didClose uri)) =
      if current = [] then [] else [(uri, .closed)] := by
  have hFound :
      Table.get? (c.ledgerOn []).versions uri =
        versionOf current := h
  have hPosts : ∀ e : Event, e.forges = false →
      notes (c.accepts e) =
        ((c.ledgerOn []).note? e).toList := by
    intro e hForges
    rw [notes_accepts [] c hForges, Ledger.posts,
      if_pos (show (c.ledgerOn []).state.isAccepting = true
        from hState)]
  refine ⟨?_, ?_, ?_⟩
  · intro language text hUri
    rw [hPosts _ rfl]
    cases current <;>
      simp [Ledger.note?, hFound, hUri, versionOf, nextNote]
  · intro text
    rw [hPosts _ rfl]
    cases current <;>
      simp [Ledger.note?, hFound, versionOf, nextNote]
  · rw [hPosts _ rfl]
    cases current <;>
      simp [Ledger.note?, hFound, versionOf]

/-
  In every run, the messages posted about a document since the
  last launch are finished cycles and one that goes on: each
  opens the document at version one, changes it version by
  version and, if it is finished, closes it.

  While messages are accepted, the next opening or change of
  the document goes on with that cycle and gives back the
  version that it sends; a document that is not open is
  neither changed nor closed.

  Unless writing fails, the messages about documents that were
  written since the launch are the first of those posted.
  Until the backend is ready all wait in the outbox, and when
  it is, all have been written.
-/
theorem documents_run_in_cycles
    (env : Environment)
    (errorText : String)
    (events : List Event)
    (hForges : ∀ e ∈ events, e.forges = false)
    (hOrder :
      startsInOrder env (.new errorText) events = true)
    (uri : String) :
    let c := run env (.new errorText) events
    let posted :=
      notes (postedSince env (.new errorText) [] events)
    let sent := notes (writtenSince c.journal)
    (∃ finished current,
      Told (notesOn uri posted) finished current ∧
        (c.state.isAccepting = true →
          Table.get? c.versions uri = versionOf current ∧
          (∀ language text, uri ≠ "" →
            (c.step env (.didOpen uri language text)).2 =
                .ok (.number (current.length + 1)) ∧
              notes (c.accepts (.didOpen uri language text)) =
                [(uri, nextNote current text)]) ∧
          (∀ text,
            (c.step env (.didChange uri text)).2 =
                .ok (.number
                  (if current = [] then 0
                    else current.length + 1)) ∧
              notes (c.accepts (.didChange uri text)) =
                if current = [] then []
                else [(uri, nextNote current text)]) ∧
          notes (c.accepts (.didClose uri)) =
            if current = [] then []
            else [(uri, .closed)])) ∧
      ((∀ e ∈ events, e ≠ .writeFails true) →
        sent <+: posted ∧
          (c.state.isQueueing = true →
            notes c.outbox = posted) ∧
          (c.state = .ready → sent = posted)) := by
  intro c posted sent
  have hAgrees :=
    agrees_run (agrees_new errorText) env hForges hOrder
  refine ⟨?_, ?_⟩
  · rcases hAgrees.told uri with
      ⟨finished, current, hTold, hVersion⟩
    refine ⟨finished, current, hTold, ?_⟩
    intro hState
    have hFound : Table.get? c.versions uri =
        versionOf current := hVersion hState
    rcases notes_accepts_of_version hState hFound with
      ⟨hOpen, hChange, hClose⟩
    refine ⟨hFound, ?_, ?_, hClose⟩
    · intro language text hUri
      refine ⟨?_, hOpen language text hUri⟩
      simp only [step, numbered,
        didOpen_snd hFound hUri language text]
    · intro text
      refine ⟨?_, hChange text⟩
      simp only [step, numbered, didChange_snd hFound text]
  · intro hWrites
    have hDelivers := delivers_run (delivers_new errorText)
      (agrees_new errorText) env hForges hOrder hWrites
    refine ⟨hDelivers.sent, ?_, hDelivers.ready⟩
    intro hQueue
    exact (hDelivers.waits hQueue).2

/-
  A document that is changed, closed and opened again, over
  the acceptance of the greeting, after a session before.
-/
theorem documents_run_in_cycles_over_sessions :
    let env : Environment := ⟨none, 7, fun _ => false⟩
    let events : List Event :=
      [.didOpen "a" "" "0", .start .default,
        .didOpen "a" "" "1", .started, .exited 0,
        .didOpen "a" "" "2", .start .default, .started,
        .didOpen "a" "" "3", .didOpen "a" "" "4",
        .message [("id", .int 2), ("result", .null)],
        .didClose "a", .didOpen "a" "" "5"]
    let c := run env (.new "") events
    startsInOrder env (.new "") events = true ∧
      c.state = .ready ∧
      notes (writtenSince c.journal) =
        [("a", .opened 1 "3"), ("a", .changed 2 "4"),
          ("a", .closed), ("a", .opened 1 "5")] := by
  intro env events c
  have hOrder : startsInOrder env (.new "") events = true := by
    decide +kernel
  have hReady : c.state = .ready := by decide +kernel
  have hCycles := documents_run_in_cycles env "" events
    (by decide) hOrder "a"
  have hSent := hCycles.2 (by simp [events])
  refine ⟨hOrder, hReady, (hSent.2.2 hReady).trans ?_⟩
  decide +kernel

end Client

end StyleCompanion
