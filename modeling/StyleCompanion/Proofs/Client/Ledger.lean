import Mathlib.Data.List.DropRight
import StyleCompanion.Proofs.Client.Handshake

/-
  What the client tells the backend about documents.

  A message about a document says that it was opened, changed
  or closed.  The ledger of a client holds what decides about
  such messages: the phase, the process, the versions, the
  messages about documents that wait in the outbox and those
  that were written since the launch.

  The journal of a client may have been taken over by someone
  else.  A ledger is drawn up on the effects of the past and
  those in the journal.

  Main declarations:
    * `Client.Note`
    * `Client.about?`
    * `Client.writtenSince`
    * `Client.Ledger`
    * `Client.ledgerOn`
    * `Client.Ledger.note?`
    * `Client.Ledger.call`
    * `Client.Ledger.Moves`
    * `Client.ledger_step_of_call`
    * `Client.moves_step`
-/

namespace StyleCompanion

namespace Client

----
-- Messages about documents
----

/- What a message tells about a document. -/
inductive Note where
  | opened (version : Nat) (text : String)
  | changed (version : Nat) (text : String)
  | closed
  deriving DecidableEq

/- The text under a name. -/
def textAt
    (x : Json)
    (name : String) : Option String :=
  match x.field? name with
  | some (.str s) => some s
  | _ => none

/- The number under a name. -/
def numberAt
    (x : Json)
    (name : String) : Option Nat :=
  match x.field? name with
  | some (.int (.ofNat n)) => some n
  | _ => none

/- The text of the first change that is listed. -/
def changedText
    (params : Json) : Option String :=
  match params.field? "contentChanges" with
  | some (.arr (change :: _)) => textAt change "text"
  | _ => none

/- The methods of messages about documents. -/
def documentMethods : List String :=
  ["textDocument/didOpen", "textDocument/didChange",
    "textDocument/didClose"]

/- What a message with a method tells about a document. -/
def noteOf
    (method : String)
    (params document : Json) : Option Note :=
  if method = "textDocument/didOpen" then
    (numberAt document "version").bind fun version =>
      (textAt document "text").map (.opened version)
  else if method = "textDocument/didChange" then
    (numberAt document "version").bind fun version =>
      (changedText params).map (.changed version)
  else if method = "textDocument/didClose" then some .closed
  else none

/- The document that a message is about, and what it tells. -/
def about?
    (m : Json) : Option (String × Note) :=
  (textAt m "method").bind fun method =>
    (m.field? "params").bind fun params =>
      (params.field? "textDocument").bind fun document =>
        (textAt document "uri").bind fun uri =>
          (noteOf method params document).map (uri, ·)

/- What messages tell about documents, in order. -/
def notes
    (ms : List Json) : List (String × Note) :=
  ms.filterMap about?

theorem noteOf_eq_none
    {method : String}
    (h : method ∉ documentMethods)
    (params document : Json) :
    noteOf method params document = none := by
  simp only [documentMethods, List.mem_cons, List.not_mem_nil,
    or_false, not_or] at h
  simp [noteOf, h]

/- A message with another method is about no document. -/
theorem about?_eq_none
    {m : Json}
    (h : ∀ method, textAt m "method" = some method →
      method ∉ documentMethods) :
    about? m = none := by
  unfold about?
  cases hMethod : textAt m "method" with
  | none => rfl
  | some method =>
      simp [noteOf_eq_none (h method hMethod)]

theorem about?_notification
    {method : String}
    (h : method ∉ documentMethods)
    (params : Json) :
    about? (Rpc.notification method params) = none := by
  apply about?_eq_none
  intro other hOther
  cases hOther
  exact h

theorem about?_request
    {method : String}
    (h : method ∉ documentMethods)
    (id : Nat)
    (params : Json) :
    about? (Rpc.request id method params) = none := by
  apply about?_eq_none
  intro other hOther
  cases hOther
  exact h

theorem about?_response
    (id result : Json) :
    about? (Rpc.response id result) = none := rfl

theorem about?_errorResponse
    (id : Json)
    (code : Int)
    (text : String) :
    about? (Rpc.errorResponse id code text) = none := rfl

theorem about?_opened
    (uri language text : String) :
    about? (Rpc.notification "textDocument/didOpen"
        (paramsOrEmpty (openParams uri language text))) =
      some (uri, .opened 1 text) := rfl

theorem about?_changed
    (uri text : String)
    (version : Nat) :
    about? (Rpc.notification "textDocument/didChange"
        (paramsOrEmpty (changeParams uri version text))) =
      some (uri, .changed version text) := rfl

theorem about?_closed
    (uri : String) :
    about? (Rpc.notification "textDocument/didClose"
        (paramsOrEmpty
          (.obj [("textDocument", .obj
            [("uri", .str uri)])]))) =
      some (uri, .closed) := rfl

----
-- What was written since the launch
----

/- Whether an effect is the launch of the process. -/
def isLaunch : ClientEffect → Bool
  | .process .start => true
  | _ => false

/- The messages written after the last launch. -/
def writtenSince
    (es : List ClientEffect) : List Json :=
  (es.rtakeWhile (!isLaunch ·)).filterMap written?

theorem writtenSince_concat
    {e : ClientEffect}
    (h : isLaunch e = false)
    (es : List ClientEffect) :
    writtenSince (es ++ [e]) =
      writtenSince es ++ (written? e).toList := by
  unfold writtenSince
  rw [List.rtakeWhile_concat_pos _ _ _ (by simp [h]),
    List.filterMap_append]
  cases hWritten : written? e <;> simp [hWritten]

theorem writtenSince_launch
    (es : List ClientEffect) :
    writtenSince (es ++ [.process .start]) = [] := by
  unfold writtenSince
  rw [List.rtakeWhile_concat_neg _ _ _ (by simp [isLaunch])]
  rfl

----
-- Ledgers
----

/- What decides about messages on documents. -/
structure Ledger where
  state : ClientState
  alive : Bool
  fails : Bool
  versions : Table String Nat
  waiting : List (String × Note)
  wire : List (String × Note)

/- The ledger of a client with a past. -/
def ledgerOn
    (past : List ClientEffect)
    (c : Client) : Ledger :=
  { state := c.state
    alive := c.process.isAlive
    fails := c.process.writeFails
    versions := c.versions
    waiting := notes c.outbox
    wire := notes (writtenSince (past ++ c.journal)) }

namespace Ledger

/- Write notes to a process that takes them. -/
def deliver
    (l : Ledger)
    (ns : List (String × Note)) : Ledger :=
  if l.alive && !l.fails then { l with wire := l.wire ++ ns }
  else l

/- Send notes now, later or never, by the phase. -/
def post
    (l : Ledger)
    (ns : List (String × Note)) : Ledger :=
  if l.state.isQueueing then
    { l with waiting := l.waiting ++ ns }
  else if l.state == .ready then l.deliver ns
  else l

/- The versions after a note on a document. -/
def enter
    (versions : Table String Nat)
    (uri : String) : Note → Table String Nat
  | .opened version _ => Table.insert versions uri version
  | .changed version _ => Table.insert versions uri version
  | .closed => Table.erase versions uri

/- Take a note down and send it. -/
def take
    (l : Ledger)
    (n : String × Note) : Ledger :=
  ({ l with versions := enter l.versions n.1 n.2 }).post [n]

/- The note that a call of the client comes to. -/
def note?
    (l : Ledger) : Event → Option (String × Note)
  | .didOpen uri _ text =>
      if uri.isEmpty then none
      else
        match Table.get? l.versions uri with
        | none => some (uri, .opened 1 text)
        | some v => some (uri, .changed (v + 1) text)
  | .didChange uri text =>
      (Table.get? l.versions uri).map fun v =>
        (uri, .changed (v + 1) text)
  | .didClose uri =>
      (Table.get? l.versions uri).map fun _ => (uri, .closed)
  | _ => none

/- The ledger after a call of the client. -/
def call
    (l : Ledger)
    (e : Event) : Ledger :=
  match l.note? e with
  | none => l
  | some n => l.take n

/- The ledger when the greeting is accepted. -/
def greeted
    (l : Ledger) : Ledger :=
  if l.state = .initializing then
    ({ l with state := .ready, waiting := [] }).deliver
      l.waiting
  else l

/- The ledger without the session. -/
def forget
    (l : Ledger) : Ledger :=
  { l with versions := [], waiting := [] }

/- The ledger after the end of the process. -/
def ended
    (l : Ledger) : Ledger :=
  { l.forget with state := .stopped, alive := false }

/- The ledger after a launch. -/
def launched
    (fails : Bool) : Ledger :=
  { state := .starting
    alive := true
    fails := fails
    versions := []
    waiting := []
    wire := [] }

variable (l : Ledger)

@[simp] theorem deliver_nil :
    l.deliver [] = l := by
  simp [deliver]

@[simp] theorem post_nil :
    l.post [] = l := by
  simp [post]

theorem deliver_append
    (ms ns : List (String × Note)) :
    (l.deliver ms).deliver ns = l.deliver (ms ++ ns) := by
  unfold deliver
  split <;> simp_all

theorem greeted_greeted :
    l.greeted.greeted = l.greeted := by
  unfold greeted
  split
  · unfold deliver
    split <;> simp
  · simp [*]

end Ledger

----
-- Small operations
----

section Operations

variable (past : List ClientEffect) (c : Client)

/- An effect shows only if it writes about a document. -/
theorem ledger_emit
    {e : ClientEffect}
    (hLaunch : isLaunch e = false)
    (hNote : (written? e).bind about? = none) :
    (c.emit e).ledgerOn past = c.ledgerOn past := by
  have hWire :
      notes (writtenSince (past ++ (c.journal ++ [e]))) =
        notes (writtenSince (past ++ c.journal)) := by
    rw [← List.append_assoc, writtenSince_concat hLaunch]
    unfold notes
    rw [List.filterMap_append]
    cases hWritten : written? e with
    | none => simp
    | some m =>
        rw [hWritten] at hNote
        have hNone : about? m = none := hNote
        simp [hNone]
  simp only [ledgerOn, emit, hWire]

@[simp] theorem ledger_log
    (r : LogRecord) :
    (c.log r).ledgerOn past = c.ledgerOn past :=
  ledger_emit past c rfl rfl

@[simp] theorem ledger_signal
    (s : Signal) :
    (c.signal s).ledgerOn past = c.ledgerOn past :=
  ledger_emit past c rfl rfl

theorem ledger_signals
    (ss : List Signal) :
    (ss.foldl signal c).ledgerOn past = c.ledgerOn past := by
  induction ss generalizing c with
  | nil => rfl
  | cons s ss ih => rw [List.foldl_cons, ih, ledger_signal]

/- A call that neither launches nor writes leaves the ledger. -/
theorem ledger_call
    {p : ProcessCall}
    (hLaunch : isLaunch (.process p) = false)
    (hWritten : written? (.process p) = none) :
    (c.call p).ledgerOn past = c.ledgerOn past := by
  have hJournal := ledger_emit past c hLaunch
    (by rw [hWritten]; rfl)
  cases p with
  | start => cases hLaunch
  | write m => cases hWritten
  | _ => exact hJournal

@[simp] theorem ledger_write
    (m : Json) :
    (c.write m).ledgerOn past =
      (c.ledgerOn past).deliver (notes [m]) := by
  unfold write Ledger.deliver
  cases hAlive : c.process.isAlive with
  | false => simp [ledgerOn, hAlive]
  | true =>
      cases hFails : c.process.writeFails with
      | true =>
          rw [if_neg (by simp), if_pos rfl, ledger_signal,
            if_neg (by simp [ledgerOn, hFails])]
      | false =>
          have hWire :
              notes (writtenSince (past ++
                (c.journal ++ [.process (.write m)]))) =
                notes (writtenSince (past ++ c.journal)) ++
                  notes [m] := by
            rw [← List.append_assoc, writtenSince_concat rfl]
            exact List.filterMap_append
          rw [if_neg (by simp), if_neg (by simp), ledger_log,
            if_pos (by simp [ledgerOn, hAlive, hFails])]
          simp only [ledgerOn, call, hWire]
          rfl

@[simp] theorem ledger_writeAll
    (ms : List Json) :
    (c.writeAll ms).ledgerOn past =
      (c.ledgerOn past).deliver (notes ms) := by
  unfold writeAll
  induction ms generalizing c with
  | nil => simp [notes]
  | cons m ms ih =>
      rw [List.foldl_cons, ih, ledger_write,
        Ledger.deliver_append]
      exact congrArg _ List.filterMap_append.symm

/- A message about no document leaves the ledger. -/
theorem ledger_write_of_none
    {m : Json}
    (h : about? m = none) :
    (c.write m).ledgerOn past = c.ledgerOn past := by
  simp [notes, h]

@[simp] theorem ledger_post
    (m : Json) :
    (c.post m).ledgerOn past =
      (c.ledgerOn past).post (notes [m]) := by
  unfold post Ledger.post
  change _ = if c.state.isQueueing = true then _
    else if (c.state == .ready) = true then _ else _
  split
  · simp [ledgerOn, notes, List.filterMap_append]
  · split
    · exact ledger_write past c m
    · rfl

/- A request about no document leaves the ledger. -/
theorem ledger_request
    {method : String}
    (h : method ∉ documentMethods)
    (params : Json)
    (action : ReplyAction) :
    (c.request method params action).1.ledgerOn past =
      c.ledgerOn past := by
  have hNone := about?_request h (c.lastId + 1)
    (paramsOrEmpty params)
  have hNotes : notes [Rpc.request (c.lastId + 1) method
      (paramsOrEmpty params)] = [] := by
    simp [notes, hNone]
  unfold request
  split
  · unfold refuseRequest
    dsimp only
    split <;> simp
  · dsimp only
    split
    · rw [ledger_write, hNotes, Ledger.deliver_nil]
      rfl
    · rw [ledger_post, hNotes, Ledger.post_nil]
      rfl

theorem ledger_notify
    {method : String}
    (h : method ∉ documentMethods)
    (params : Json) :
    (c.notify method params).ledgerOn past =
      c.ledgerOn past := by
  have hNone := about?_notification h (paramsOrEmpty params)
  unfold notify
  rw [ledger_post]
  simp [notes, hNone]

----
-- Calls about documents
----

/- A note that is posted with new versions. -/
theorem ledger_report
    {m : Json}
    {n : String × Note}
    {versions : Table String Nat}
    (hNote : about? m = some n)
    (hVersions :
      versions = Ledger.enter c.versions n.1 n.2) :
    (({ c with versions := versions } : Client).post
        m).ledgerOn past =
      (c.ledgerOn past).take n := by
  rw [ledger_post, hVersions]
  simp [notes, hNote, Ledger.take, ledgerOn]

theorem ledger_didChange
    (uri text : String) :
    (c.didChange uri text).1.ledgerOn past =
      (c.ledgerOn past).call (.didChange uri text) := by
  have hNote : (c.ledgerOn past).note? (.didChange uri text) =
      (Table.get? c.versions uri).map fun v =>
        (uri, .changed (v + 1) text) := rfl
  unfold didChange Ledger.call
  rw [hNote]
  cases Table.get? c.versions uri with
  | none => rfl
  | some v =>
      exact ledger_report past c (about?_changed uri text _) rfl

theorem ledger_didOpen
    (uri language text : String) :
    (c.didOpen uri language text).1.ledgerOn past =
      (c.ledgerOn past).call (.didOpen uri language text) := by
  have hChange := ledger_didChange past c uri text
  unfold didOpen
  by_cases hEmpty : uri.isEmpty = true
  · simp [Ledger.call, Ledger.note?, hEmpty]
  · rw [if_neg hEmpty]
    cases hFound : Table.get? c.versions uri with
    | none =>
        have hNote : (c.ledgerOn past).note?
            (.didOpen uri language text) =
              some (uri, .opened 1 text) := by
          simp [Ledger.note?, hEmpty, ledgerOn, hFound]
        rw [if_neg (by simp [isTracking, Table.contains,
            hFound]),
          Ledger.call, hNote]
        exact ledger_report past c
          (about?_opened uri language text) rfl
    | some v =>
        have hNote : (c.ledgerOn past).note?
            (.didOpen uri language text) =
              (c.ledgerOn past).note? (.didChange uri text) := by
          simp [Ledger.note?, hEmpty, ledgerOn, hFound]
        rw [if_pos (by simp [isTracking, Table.contains,
            hFound]),
          hChange, Ledger.call, Ledger.call, hNote]

theorem ledger_didClose
    (uri : String) :
    (c.didClose uri).ledgerOn past =
      (c.ledgerOn past).call (.didClose uri) := by
  have hNote : (c.ledgerOn past).note? (.didClose uri) =
      (Table.get? c.versions uri).map fun _ =>
        (uri, .closed) := rfl
  unfold didClose Ledger.call
  rw [hNote]
  cases hFound : Table.get? c.versions uri with
  | none =>
      rw [if_neg (by simp [isTracking, Table.contains, hFound])]
      rfl
  | some v =>
      rw [if_pos (by simp [isTracking, Table.contains, hFound])]
      exact ledger_report past c (about?_closed uri) rfl

----
-- The life of a session
----

theorem ledger_exited
    (code : Int) :
    (c.exited code).ledgerOn past =
      (c.ledgerOn past).ended := by
  unfold exited onExited
  dsimp only
  split
  · rw [ledger_log]
    rfl
  · rw [ledger_signal, ledger_log]
    rfl

theorem ledger_started
    (env : Environment) :
    (c.started env).ledgerOn past =
      { c.ledgerOn past with
        state := .initializing, alive := true } := by
  unfold started
  rw [ledger_request past _ (by decide)]
  rfl

theorem configure_session
    (launch : Launch)
    (program : String) :
    (c.configure launch program).versions = c.versions ∧
      (c.configure launch program).outbox = c.outbox := by
  unfold configure
  dsimp only
  split <;> exact ⟨rfl, rfl⟩

/- A launch begins with nothing written and nothing to say. -/
theorem ledger_start
    (env : Environment)
    (launch : Launch) :
    (c.start env launch).ledgerOn past =
      .launched c.process.writeFails := by
  unfold start
  dsimp only
  generalize hCleared : ({ c.endProcess.forgetSession with
    rootPath := rootOf env launch
    trace := traceOf launch.trace } : Client) = cleared
  generalize resolveProgram launch.program env.serverPath =
    program
  have hFails : (cleared.configure launch program
      ).process.writeFails = c.process.writeFails := by
    have hEnd := (Mute.endProcess (c := c)).writeFails
    rw [(Mute.configure launch program).writeFails, ← hCleared]
    exact hEnd
  have hSession := configure_session cleared launch program
  have hNothing : cleared.versions = [] ∧
      cleared.outbox = [] := by
    rw [← hCleared]
    exact ⟨rfl, rfl⟩
  rw [hNothing.1, hNothing.2] at hSession
  generalize cleared.configure launch program = configured
    at hFails hSession
  simp only [ledgerOn, call, log, emit, hSession.1, hSession.2]
  rw [← List.append_assoc past, writtenSince_launch]
  simp only [Ledger.launched, Process.apply, Process.isAlive,
    hFails, notes, List.filterMap_nil]
  rfl

/- Stopping says nothing about documents. -/
theorem ledger_stop :
    c.stop.ledgerOn past =
      if c.process.isAlive then
        { c.ledgerOn past with state := .stopping }
      else (c.ledgerOn past).forget := by
  unfold stop
  cases hAlive : c.process.isAlive with
  | false => rfl
  | true =>
      rw [if_neg (by simp), if_pos rfl]
      dsimp only
      split
      · exact ledger_request past
          { c with state := .stopping } (by decide) .null
          .sendExit
      · exact ledger_call past { c with state := .stopping }
          (p := .terminate) rfl rfl

theorem ledger_graceExpired :
    c.graceExpired.ledgerOn past = c.ledgerOn past := by
  unfold graceExpired
  split
  · rfl
  · dsimp only
    split
    · rw [ledger_call past _ rfl rfl, ledger_log]
      rfl
    · rfl

theorem ledger_processFailed
    (fault : ProcessFault) :
    (c.processFailed fault).ledgerOn past =
      if fault = .failedToStart then
        (c.ledgerOn past).ended
      else c.ledgerOn past := by
  unfold processFailed onProcessFault
  by_cases hFault : fault = .failedToStart
  · simp only [hFault, ne_eq, not_true_eq_false, and_false,
      if_true, if_false]
    rw [ledger_signal, ledger_log]
    rfl
  · simp only [hFault, if_false]
    split
    · rfl
    · rw [ledger_signal, ledger_log]

----
-- Messages of the backend
----

theorem ledger_onInitialized :
    c.onInitialized.ledgerOn past =
      (c.ledgerOn past).greeted := by
  unfold onInitialized Ledger.greeted
  by_cases hState : c.state = .initializing
  · have hSame : (c.ledgerOn past).state = .initializing :=
      hState
    rw [if_neg (by simp [hState]), if_pos hSame]
    let opened : Client := { c with state := .ready }
    let greeted : Client :=
      opened.write (Rpc.notification "initialized" (.obj []))
    have hGreeted : greeted.ledgerOn past =
        { c.ledgerOn past with state := .ready } :=
      ledger_write_of_none past opened rfl
    have hWaiting : notes greeted.outbox =
        (c.ledgerOn past).waiting :=
      congrArg Ledger.waiting hGreeted
    have hCleared :
        ({ greeted with outbox := [] } : Client).ledgerOn past =
          { c.ledgerOn past with
            state := .ready, waiting := [] } := by
      change { greeted.ledgerOn past with waiting := [] } = _
      rw [hGreeted]
    change ((({ greeted with outbox := [] } : Client).writeAll
      greeted.outbox).signal .ready).ledgerOn past = _
    rw [ledger_signal, ledger_writeAll, hCleared, hWaiting]
  · have hOther : (c.ledgerOn past).state ≠ .initializing :=
      hState
    rw [if_pos hState, if_neg hOther]

theorem ledger_reply
    (id : Json)
    (method : String)
    (outcome : Outcome Json) :
    (c.reply id method outcome).ledgerOn past =
      c.ledgerOn past := by
  unfold reply
  split
  · exact ledger_write_of_none past c (about?_response _ _)
  · rw [ledger_write_of_none past _ (about?_errorResponse _ _ _),
      ledger_log]
  · rw [ledger_write_of_none past _ (about?_errorResponse _ _ _),
      ledger_log]

theorem ledger_answerCall
    (id : Json)
    (method : String)
    (params : Json) :
    (c.answerCall id method params).ledgerOn past =
      c.ledgerOn past := by
  unfold answerCall
  split
  · exact ledger_write_of_none past c
      (about?_errorResponse _ _ _)
  · rw [ledger_reply, ledger_signals]

theorem ledger_onNotification
    (method : String)
    (params : Json) :
    (c.onNotification method params).ledgerOn past =
      c.ledgerOn past := by
  unfold onNotification
  dsimp only
  split <;> simp

theorem ledger_sendExit :
    c.sendExit.ledgerOn past = c.ledgerOn past :=
  ledger_write_of_none past c rfl

/- Only the reply to a greeting may move the ledger. -/
theorem ledger_callBack
    (action : ReplyAction)
    (v : Except Json Json) :
    (c.callBack action v).ledgerOn past = c.ledgerOn past ∨
      (c.callBack action v).ledgerOn past =
        (c.ledgerOn past).greeted := by
  cases action with
  | ignore => cases v <;> exact Or.inl rfl
  | report tag =>
      cases v <;> exact Or.inl (ledger_signal past c _)
  | sendExit =>
      cases v <;> exact Or.inl (ledger_sendExit past c)
  | finishHandshake =>
      cases v with
      | ok value => exact Or.inr (ledger_onInitialized past c)
      | error value =>
          left
          change (c.onInitializeFailed value).ledgerOn past = _
          rw [onInitializeFailed, ledger_signal, ledger_log]

theorem ledger_resolve
    (fs : Table String Json) :
    (c.resolve fs).1.ledgerOn past = c.ledgerOn past ∨
      (c.resolve fs).1.ledgerOn past =
        (c.ledgerOn past).greeted := by
  by_cases hFor : ∃ n a,
      c.awaitingFor (Json.pick fs ["id"]) = .ok (some (n, a))
  · rcases hFor with ⟨n, a, hFor⟩
    rw [resolve_found hFor]
    exact ledger_callBack past
      { c with awaiting := Table.erase c.awaiting n }
      a.action (verdictOf fs)
  · have hNone : ∀ n a,
        c.awaitingFor (Json.pick fs ["id"]) ≠
          .ok (some (n, a)) := by
      intro n a hEq
      exact hFor ⟨n, a, hEq⟩
    left
    rcases resolve_unknown hNone with hSame | ⟨text, hLog⟩
    · rw [hSame]
    · rw [hLog, ledger_log]

/- A message leaves the ledger or accepts the greeting. -/
theorem ledger_handleMessage
    (fs : Table String Json) :
    (c.handleMessage fs).1.ledgerOn past = c.ledgerOn past ∨
      (c.handleMessage fs).1.ledgerOn past =
        (c.ledgerOn past).greeted := by
  unfold handleMessage
  cases classify fs with
  | reply => exact ledger_resolve past c fs
  | call id method params =>
      exact Or.inl (ledger_answerCall past c id method params)
  | notice method params =>
      exact Or.inl (ledger_onNotification past c method params)
  | nothing => exact Or.inl rfl

theorem ledger_handleAll
    (ms : List (Table String Json)) :
    (c.handleAll ms).1.ledgerOn past = c.ledgerOn past ∨
      (c.handleAll ms).1.ledgerOn past =
        (c.ledgerOn past).greeted := by
  induction ms generalizing c with
  | nil => exact Or.inl rfl
  | cons fs ms ih =>
      have hFirst := ledger_handleMessage past c fs
      unfold handleAll
      rcases hHandled : c.handleMessage fs with ⟨c₁, failure⟩
      rw [hHandled] at hFirst
      cases failure with
      | some e => exact hFirst
      | none =>
          have hRest := ih c₁
          -- A greeting is accepted once at most.
          rcases hFirst with hFirst | hFirst <;>
            rw [hFirst] at hRest
          · exact hRest
          · rw [Ledger.greeted_greeted] at hRest
            exact Or.inr (hRest.elim id id)

theorem ledger_takeBytes
    (bs : List UInt8) :
    (c.takeBytes bs).1.ledgerOn past = c.ledgerOn past := by
  have hLogs : ∀ (fs : List Rpc.FrameFault) (c : Client),
      (fs.foldl (fun c f => c.log (.warning f.message))
        c).ledgerOn past = c.ledgerOn past := by
    intro fs
    induction fs with
    | nil => exact fun _ => rfl
    | cons f fs ih =>
        intro c
        rw [List.foldl_cons, ih, ledger_log]
  exact hLogs _ _

theorem ledger_readErrors
    (bs : List UInt8) :
    (c.readErrors bs).ledgerOn past = c.ledgerOn past := by
  unfold readErrors
  dsimp only
  split <;> simp

end Operations

----
-- Steps
----

/- Whether an event is a call about a document. -/
def Event.isCall : Event → Bool
  | .didOpen _ _ _ => true
  | .didChange _ _ => true
  | .didClose _ => true
  | _ => false

/- Whether an event launches the backend. -/
def Event.launches : Event → Bool
  | .start _ => true
  | _ => false

/- Whether an event makes writing fail or work again. -/
def Event.faults : Event → Bool
  | .writeFails _ => true
  | _ => false

/-
  Whether the owner posts a message about documents other
  than by a call for it.
-/
def Event.forges : Event → Bool
  | .request method _ _ => documentMethods.contains method
  | .notify method _ => documentMethods.contains method
  | _ => false

/- Whether the start of the process is reported in order. -/
def Event.isInOrder
    (c : Client) : Event → Bool
  | .started => c.state == .starting
  | _ => true

/-
  What an event may do that is no call about a document, no
  launch and no fault of writing, when the process reports its
  start in order.
-/
inductive Ledger.Moves
    (l : Ledger) : Ledger → Prop
  | stay : Moves l l
  | greet : Moves l l.greeted
  | begin : l.state = .starting →
      Moves l { l with state := .initializing, alive := true }
  | stop : l.alive = true →
      Moves l { l with state := .stopping }
  | forget : l.alive = false → Moves l l.forget
  | finish : Moves l l.ended

section Steps

variable (past : List ClientEffect) (c : Client)

theorem ledger_step_of_call
    (env : Environment)
    {e : Event}
    (h : e.isCall = true) :
    (c.step env e).1.ledgerOn past =
      (c.ledgerOn past).call e := by
  cases e with
  | didOpen uri language text =>
      exact ledger_didOpen past c uri language text
  | didChange uri text => exact ledger_didChange past c uri text
  | didClose uri => exact ledger_didClose past c uri
  | _ => cases h

theorem ledger_step_of_launches
    (env : Environment)
    {e : Event}
    (h : e.launches = true) :
    (c.step env e).1.ledgerOn past =
      .launched c.process.writeFails := by
  cases e with
  | start launch => exact ledger_start past c env launch
  | _ => cases h

/- All other events move the ledger in a few ways. -/
theorem moves_step
    (env : Environment)
    {e : Event}
    (hCall : e.isCall = false)
    (hLaunch : e.launches = false)
    (hFaults : e.faults = false)
    (hForges : e.forges = false)
    (hOrder : e.isInOrder c = true) :
    (c.ledgerOn past).Moves
      ((c.step env e).1.ledgerOn past) := by
  cases e with
  | start launch => cases hLaunch
  | didOpen uri language text => cases hCall
  | didChange uri text => cases hCall
  | didClose uri => cases hCall
  | register method handler => exact .stay
  | stop =>
      change (c.ledgerOn past).Moves (c.stop.ledgerOn past)
      rw [ledger_stop]
      split
      next hAlive => exact .stop hAlive
      next hDead =>
        exact .forget (Bool.eq_false_iff.mpr hDead)
  | request method params action =>
      change (c.ledgerOn past).Moves
        ((c.request method params action).1.ledgerOn past)
      rw [ledger_request past c
        (by simpa [Event.forges] using hForges)]
      exact .stay
  | notify method params =>
      change (c.ledgerOn past).Moves
        ((c.notify method params).ledgerOn past)
      rw [ledger_notify past c
        (by simpa [Event.forges] using hForges)]
      exact .stay
  | message fs =>
      simp only [step, risky_fst]
      rcases ledger_handleMessage past c fs with h | h <;>
        rw [h]
      · exact .stay
      · exact .greet
  | output bs =>
      simp only [step, risky_fst, readOutput]
      have hTaken := ledger_takeBytes past c bs
      rcases ledger_handleAll past (c.takeBytes bs).1
          (c.takeBytes bs).2 with h | h <;>
        rw [h, hTaken]
      · exact .stay
      · exact .greet
  | started =>
      change (c.ledgerOn past).Moves
        ((c.started env).ledgerOn past)
      have hState : (c.state == .starting) = true := hOrder
      rw [ledger_started]
      exact .begin (beq_iff_eq.mp hState)
  | failed fault =>
      change (c.ledgerOn past).Moves
        ((c.processFailed fault).ledgerOn past)
      rw [ledger_processFailed]
      split
      · exact .finish
      · exact .stay
  | exited code =>
      change (c.ledgerOn past).Moves
        ((c.exited code).ledgerOn past)
      rw [ledger_exited]
      exact .finish
  | errors bs =>
      change (c.ledgerOn past).Moves
        ((c.readErrors bs).ledgerOn past)
      rw [ledger_readErrors]
      exact .stay
  | timer =>
      change (c.ledgerOn past).Moves
        (c.graceExpired.ledgerOn past)
      rw [ledger_graceExpired]
      exact .stay
  | obey value => exact .stay
  | writeFails value => cases hFaults

end Steps

end Client

end StyleCompanion
