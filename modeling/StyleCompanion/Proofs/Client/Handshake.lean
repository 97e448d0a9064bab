import StyleCompanion.Proofs.Client.Requests

/-
  The order of what the client writes.

  A session begins when the process is launched.  When it has
  started, the client greets the backend with `initialize`.
  What is posted meanwhile waits in the outbox.  A reply that
  accepts the greeting opens the line: `initialized` is
  written, then all that waited, and from there on every post
  is written at once.

  Where a session stands decides what its line shows, and that
  follows from the messages the client has handled.

  Main declarations:
    * `Client.originated`
    * `Client.postedAlong`
    * `Client.handledAlong`
    * `Client.Accepted`
    * `Client.Stands`
    * `Client.handshake_orders_writes`
-/

namespace StyleCompanion

namespace ReplyAction

/- Whether a request of the owner may want this done. -/
def isOwn : ReplyAction → Bool
  | .ignore => true
  | .report _ => true
  | _ => false

end ReplyAction

namespace Client

----
-- What is written
----

/- The message among the effects of a client. -/
def written? : ClientEffect → Option Json
  | .process (.write m) => some m
  | _ => none

/- Whether a message replies to a request of the backend. -/
def isReply : Json → Bool
  | .obj fs => Rpc.isResponse fs
  | _ => false

/- The messages written of the client's own accord. -/
def originated
    (c : Client) : List Json :=
  (c.journal.filterMap written?).filter (!isReply ·)

/- What the report of a change posts. -/
def changePosts
    (c : Client)
    (uri text : String) : List Json :=
  match Table.get? c.versions uri with
  | none => []
  | some v =>
      [Rpc.notification "textDocument/didChange"
        (changeParams uri (v + 1) text)]

/- The messages that an event posts. -/
def posts
    (c : Client)
    (event : Event) : List Json :=
  match event with
  | .request method params _ =>
      [Rpc.request (c.lastId + 1) method
        (paramsOrEmpty params)]
  | .notify method params =>
      [Rpc.notification method (paramsOrEmpty params)]
  | .didOpen uri language text =>
      if uri.isEmpty then []
      else if c.isTracking uri then c.changePosts uri text
      else
        [Rpc.notification "textDocument/didOpen"
          (openParams uri language text)]
  | .didChange uri text => c.changePosts uri text
  | .didClose uri =>
      if c.isTracking uri then
        [Rpc.notification "textDocument/didClose"
          (.obj [("textDocument", .obj [("uri", .str uri)])])]
      else []
  | _ => []

/- The messages that events post, in order. -/
def postedAlong
    (env : Environment)
    (c : Client)
    (events : List Event) : List Json :=
  match events with
  | [] => []
  | e :: rest =>
      c.posts e ++ postedAlong env (c.step env e).1 rest

----
-- What is handled
----

/- The messages that are handled, until one fails. -/
def handledOf
    (c : Client)
    (ms : List (Table String Json)) :
    List (Table String Json) :=
  match ms with
  | [] => []
  | fs :: rest =>
      match c.handleMessage fs with
      | (c₁, none) => fs :: handledOf c₁ rest
      | (_, some _) => [fs]

/- The messages that are handled at an event. -/
def handles
    (c : Client)
    (event : Event) : List (Table String Json) :=
  match event with
  | .message fs => [fs]
  | .output bs =>
      (c.takeBytes bs).1.handledOf (c.takeBytes bs).2
  | _ => []

/- The messages that are handled at events, in order. -/
def handledAlong
    (env : Environment)
    (c : Client)
    (events : List Event) : List (Table String Json) :=
  match events with
  | [] => []
  | e :: rest =>
      c.handles e ++ handledAlong env (c.step env e).1 rest

/- Whether a message replies to the request with an id. -/
def repliesTo
    (id : Nat)
    (fs : Table String Json) : Bool :=
  Rpc.isResponse fs &&
    (Json.pick fs ["id"]).same (.int id)

/-
  The request with an id was accepted: the first reply to it
  has no error.
-/
def Accepted
    (id : Nat)
    (ms : List (Table String Json)) : Prop :=
  ∃ value,
    (ms.find? (repliesTo id)).map verdictOf =
      some (.ok value)

/-
  Whether an event belongs to the traffic of a session that
  goes on: the owner starts and stops nothing and leaves the
  requests of the session's life alone, and the process
  neither ends nor fails to be written to.
-/
def Event.isTraffic : Event → Bool
  | .request method _ action =>
      !isLifecycle method && action.isOwn
  | .failed fault => fault != .failedToStart
  | .writeFails value => !value
  | .start _ => false
  | .stop => false
  | .started => false
  | .exited _ => false
  | _ => true

----
-- Phases
----

/- Where a session stands. -/
inductive Phase where
  | launched
  | greeting
  | refused
  | accepted
  deriving DecidableEq

namespace Phase

/- Only an open greeting can be replied to. -/
def hear
    (id : Nat)
    (p : Phase)
    (fs : Table String Json) : Phase :=
  if p = .greeting ∧ repliesTo id fs = true then
    match verdictOf fs with
    | .ok _ => .accepted
    | .error _ => .refused
  else p

theorem hear_of_ne
    {id : Nat}
    {p : Phase}
    (h : p ≠ .greeting)
    (fs : Table String Json) :
    p.hear id fs = p := by
  simp [hear, h]

theorem hear_of_not_repliesTo
    {id : Nat}
    {fs : Table String Json}
    (h : repliesTo id fs = false)
    (p : Phase) :
    p.hear id fs = p := by
  simp [hear, h]

theorem hearAll_of_ne
    {id : Nat}
    {p : Phase}
    (h : p ≠ .greeting)
    (ms : List (Table String Json)) :
    ms.foldl (hear id) p = p := by
  induction ms with
  | nil => rfl
  | cons fs ms ih => rw [List.foldl_cons, hear_of_ne h, ih]

/- The first reply to the greeting decides. -/
theorem hearAll_greeting
    (id : Nat)
    (ms : List (Table String Json)) :
    ms.foldl (hear id) .greeting =
      match (ms.find? (repliesTo id)).map verdictOf with
      | none => .greeting
      | some (.ok _) => .accepted
      | some (.error _) => .refused := by
  induction ms with
  | nil => rfl
  | cons fs ms ih =>
      cases hReply : repliesTo id fs with
      | false =>
          rw [List.foldl_cons, hear_of_not_repliesTo hReply,
            List.find?_cons_of_neg (by simp [hReply]), ih]
      | true =>
          rw [List.foldl_cons, List.find?_cons_of_pos hReply]
          cases hVerdict : verdictOf fs <;>
            simp [hear, hReply, hVerdict, hearAll_of_ne]

end Phase

/- What shows on the line to the backend. -/
structure Line where
  live : Bool
  state : ClientState
  outbox : List Json
  originated : List Json

/- The line of a client. -/
def line
    (c : Client) : Line :=
  ⟨c.process.isAlive && !c.process.writeFails, c.state,
    c.outbox, c.originated⟩

/- A session: what was written before it, and its greeting. -/
structure Session where
  sent : List Json
  id : Nat
  greeting : Json

/- What the line shows when messages have been posted. -/
def Session.line
    (s : Session)
    (posted : List Json) : Phase → Line
  | .launched => ⟨true, .starting, posted, s.sent⟩
  | .greeting =>
      ⟨true, .initializing, posted, s.sent ++ [s.greeting]⟩
  | .refused =>
      ⟨true, .initializing, posted, s.sent ++ [s.greeting]⟩
  | .accepted =>
      ⟨true, .ready, [],
        s.sent ++ s.greeting ::
          Rpc.notification "initialized" (.obj []) :: posted⟩

/-
  Whose replies a session waits for.  The greeting waits in
  one phase only, and no other request that waits is one of
  the session's life.
-/
structure Session.Waits
    (s : Session)
    (p : Phase)
    (b : Book) : Prop where
  asked : s.id ≤ b.lastId
  greeting :
    Table.get? b.awaiting s.id =
      if p = .greeting then
        some ⟨"initialize", .finishHandshake⟩
      else none
  own : ∀ n a, n ≠ s.id → Table.get? b.awaiting n = some a →
    a.action.isOwn = true

/- A client stands in a phase of a session. -/
structure Stands
    (s : Session)
    (p : Phase)
    (posted : List Json)
    (c : Client) : Prop where
  line : c.line = s.line posted p
  waits : s.Waits p c.book
  posts : ∀ m ∈ posted, isReply m = false

namespace Session.Waits

variable {s : Session} {p q : Phase} {b : Book}

/- A request of the owner has another id than the greeting. -/
theorem ask
    (h : s.Waits p b)
    {a : Awaiting}
    (hOwn : a.action.isOwn = true) :
    s.Waits p
      { b with
        lastId := b.lastId + 1
        awaiting :=
          Table.insert b.awaiting (b.lastId + 1) a } := by
  have hOther : b.lastId + 1 ≠ s.id :=
    Nat.ne_of_gt (Nat.lt_succ_of_le h.asked)
  refine ⟨Nat.le_succ_of_le h.asked, ?_, ?_⟩
  · rw [Table.get?_insert, if_neg hOther]
    exact h.greeting
  · intro n x hn hFound
    rw [Table.get?_insert] at hFound
    split at hFound
    · cases hFound
      exact hOwn
    · exact h.own n x hn hFound

/- A reply takes its request off the table. -/
theorem answer
    (h : s.Waits p b)
    {n : Nat}
    (calls : List Signal)
    (hGreeting : Table.get? (Table.erase b.awaiting n) s.id =
      if q = .greeting then
        some ⟨"initialize", .finishHandshake⟩
      else none) :
    s.Waits q
      { b with
        awaiting := Table.erase b.awaiting n
        calls := calls } := by
  refine ⟨h.asked, hGreeting, ?_⟩
  intro m x hm hFound
  rw [Table.get?_erase] at hFound
  split at hFound
  · cases hFound
  · exact h.own m x hm hFound

/- The greeting is asked; no request has the id zero. -/
theorem greet
    {sent : List Json}
    {none greeting : Json}
    (h : Waits ⟨sent, 0, none⟩ .launched b) :
    Waits ⟨sent, b.lastId + 1, greeting⟩ .greeting
      { b with
        lastId := b.lastId + 1
        awaiting := Table.insert b.awaiting (b.lastId + 1)
          ⟨"initialize", .finishHandshake⟩ } := by
  refine ⟨Nat.le_refl _, ?_, ?_⟩
  · rw [Table.get?_insert, if_pos rfl, if_pos rfl]
  · intro n a hn hFound
    rw [Table.get?_insert, if_neg (Ne.symm hn)] at hFound
    by_cases hZero : n = 0
    · have hNone := h.greeting
      rw [← hZero, hFound] at hNone
      cases hNone
    · exact h.own n a hZero hFound

end Session.Waits

----
-- The line
----

section Lines

variable (c : Client)

theorem line_emit
    {e : ClientEffect}
    (h : written? e = none) :
    (c.emit e).line = c.line := by
  simp [line, emit, originated, h]

@[simp] theorem line_log
    (r : LogRecord) :
    (c.log r).line = c.line :=
  c.line_emit rfl

@[simp] theorem line_signal
    (s : Signal) :
    (c.signal s).line = c.line :=
  c.line_emit rfl

theorem line_signals
    (ss : List Signal) :
    (ss.foldl signal c).line = c.line := by
  induction ss generalizing c with
  | nil => rfl
  | cons s ss ih => rw [List.foldl_cons, ih, line_signal]

theorem writes_of_live
    (h : c.line.live = true) :
    c.process.isAlive = true ∧
      c.process.writeFails = false := by
  simpa [line] using h

/- What is written shows, unless it is a reply. -/
theorem line_write
    (h : c.line.live = true)
    (m : Json) :
    (c.write m).line =
      { c.line with
        originated :=
          c.originated ++ [m].filter (!isReply ·) } := by
  have hLive := c.writes_of_live h
  have hCall :
      (c.call (.write m)).originated =
        c.originated ++ [m].filter (!isReply ·) := by
    simp [originated, call, written?]
  rw [write, if_neg (by simp [hLive.1]),
    if_neg (by simp [hLive.2]), line_log]
  simp only [line, hCall]
  rfl

theorem line_writeAll
    (h : c.line.live = true)
    (ms : List Json) :
    (c.writeAll ms).line =
      { c.line with
        originated :=
          c.originated ++ ms.filter (!isReply ·) } := by
  unfold writeAll
  induction ms generalizing c with
  | nil => simp [line]
  | cons m ms ih =>
      have hFirst := c.line_write h m
      have hSent := congrArg Line.originated hFirst
      rw [List.foldl_cons, ih _ (by rw [hFirst]; exact h),
        hFirst]
      change (c.write m).originated = _ at hSent
      rw [hSent, List.append_assoc, ← List.filter_append]
      rfl

/- A reply does not show. -/
theorem line_write_reply
    (h : c.line.live = true)
    {m : Json}
    (hReply : isReply m = true) :
    (c.write m).line = c.line := by
  rw [line_write c h]
  simp [hReply, line]

theorem line_reply
    (h : c.line.live = true)
    (id : Json)
    (method : String)
    (outcome : Outcome Json) :
    (c.reply id method outcome).line = c.line := by
  unfold reply
  split
  · exact c.line_write_reply h rfl
  · rw [line_write_reply _ (by simpa using h) rfl, line_log]
  · rw [line_write_reply _ (by simpa using h) rfl, line_log]

theorem line_answerCall
    (h : c.line.live = true)
    (id : Json)
    (method : String)
    (params : Json) :
    (c.answerCall id method params).line = c.line := by
  unfold answerCall
  split
  · exact c.line_write_reply h rfl
  · rw [line_reply _ (by rw [line_signals]; exact h),
      line_signals]

@[simp] theorem line_onNotification
    (method : String)
    (params : Json) :
    (c.onNotification method params).line = c.line := by
  unfold onNotification
  dsimp only
  split <;> simp

theorem line_callBack
    {action : ReplyAction}
    (h : action.isOwn = true)
    (v : Except Json Json) :
    (c.callBack action v).line = c.line := by
  cases action with
  | ignore => cases v <;> rfl
  | report tag => cases v <;> exact c.line_signal _
  | finishHandshake => cases h
  | sendExit => cases h

@[simp] theorem line_takeBytes
    (bs : List UInt8) :
    (c.takeBytes bs).1.line = c.line := by
  have hLogs : ∀ (fs : List Rpc.FrameFault) (c : Client),
      (fs.foldl (fun c f => c.log (.warning f.message))
        c).line = c.line := by
    intro fs
    induction fs with
    | nil => exact fun _ => rfl
    | cons f fs ih =>
        intro c
        rw [List.foldl_cons, ih, line_log]
  exact hLogs _ _

@[simp] theorem line_readErrors
    (bs : List UInt8) :
    (c.readErrors bs).line = c.line := by
  unfold readErrors
  dsimp only
  split <;> simp

@[simp] theorem line_graceExpired :
    c.graceExpired.line = c.line := by
  have hKill : ∀ c : Client,
      (c.call .kill).line = c.line := by
    intro c
    simp [line, call, originated, written?, Process.apply,
      Process.isAlive]
  unfold graceExpired
  split
  · rfl
  · dsimp only
    split
    · rw [hKill, line_log]
      rfl
    · rfl

theorem line_processFailed
    {fault : ProcessFault}
    (h : fault ≠ .failedToStart) :
    (c.processFailed fault).line = c.line := by
  unfold processFailed onProcessFault
  simp only [h, if_false]
  split
  · rfl
  · rw [line_signal, line_log]

end Lines

----
-- The launch
----

/- Nothing was written, and writing fails as it did. -/
structure Mute
    (c d : Client) : Prop where
  originated : d.originated = c.originated
  writeFails : d.process.writeFails = c.process.writeFails

namespace Mute

variable {b c d : Client}

theorem trans
    (h : Mute b c)
    (h' : Mute c d) :
    Mute b d :=
  ⟨h'.originated.trans h.originated,
    h'.writeFails.trans h.writeFails⟩

theorem emit
    {e : ClientEffect}
    (h : written? e = none) :
    Mute c (c.emit e) :=
  ⟨congrArg Line.originated (c.line_emit h), rfl⟩

theorem call
    {p : ProcessCall}
    (h : written? (.process p) = none) :
    Mute c (c.call p) := by
  refine ⟨?_, ?_⟩
  · exact (emit h).originated
  · unfold Client.call Process.apply
    cases p <;> rfl

theorem exited
    (code : Int) :
    Mute c (c.exited code) := by
  unfold Client.exited onExited
  dsimp only
  split
  · exact ⟨(emit rfl).originated, rfl⟩
  · refine ⟨?_, rfl⟩
    exact ((emit rfl).trans (emit rfl)).originated

theorem waitForEnd :
    Mute c c.waitForEnd.1 := by
  unfold Client.waitForEnd
  dsimp only
  split
  · exact (call rfl).trans (exited 15)
  · exact call rfl

theorem endProcess :
    Mute c c.endProcess := by
  unfold Client.endProcess
  split
  · exact ⟨rfl, rfl⟩
  · dsimp only
    split
    · exact (call rfl).trans waitForEnd
    · exact (((call rfl).trans waitForEnd).trans
        (call rfl)).trans waitForEnd

theorem configure
    (launch : Launch)
    (program : String) :
    Mute c (c.configure launch program) := by
  unfold Client.configure
  dsimp only
  split
  · exact ((call rfl).trans (call rfl)).trans (call rfl)
  · exact (((call rfl).trans (call rfl)).trans
      (call rfl)).trans (call rfl)

end Mute

/- A launch writes nothing and empties the outbox. -/
theorem line_start
    {c : Client}
    (h : c.process.writeFails = false)
    (env : Environment)
    (launch : Launch) :
    (c.start env launch).line =
      ⟨true, .starting, [], c.originated⟩ := by
  let cleared : Client :=
    { c.endProcess.forgetSession with
      rootPath := rootOf env launch
      trace := traceOf launch.trace }
  let program := resolveProgram launch.program env.serverPath
  have hCleared : Mute c cleared :=
    ⟨Mute.endProcess.originated, Mute.endProcess.writeFails⟩
  let logged : Client :=
    (cleared.configure launch program).log
      (.info ("Starting stylesheet backend " ++ program))
  have hLogged : Mute c logged :=
    (hCleared.trans (Mute.configure launch program)).trans
      (Mute.emit rfl)
  have hOutbox :
      (cleared.configure launch program).outbox = [] := by
    unfold configure
    dsimp only
    split <;> rfl
  have hStart : Mute c (c.start env launch) :=
    Mute.trans (c := { logged with state := .starting })
      ⟨hLogged.originated, hLogged.writeFails⟩
      (Mute.call rfl)
  have hLive :
      (c.start env launch).process.isAlive = true := rfl
  simp only [line, hStart.originated, hStart.writeFails, h,
    hLive]
  exact congrArg
    (fun outbox => Line.mk true .starting outbox _) hOutbox

----
-- Standing in a phase
----

namespace Stands

variable {s : Session} {p : Phase} {posted : List Json}
variable {c d : Client}

theorem live
    (h : Stands s p posted c) :
    c.line.live = true := by
  rw [h.line]
  cases p <;> rfl

theorem queueing
    (h : Stands s p posted c)
    (hPhase : p ≠ .accepted) :
    c.state.isQueueing = true := by
  have hState := congrArg Line.state h.line
  change c.state = _ at hState
  rw [hState]
  cases p with
  | accepted => exact absurd rfl hPhase
  | launched => rfl
  | greeting => rfl
  | refused => rfl

/- What shows neither on the line nor in the books. -/
theorem silent
    (h : Stands s p posted c)
    (hLine : d.line = c.line)
    (hBook : d.book = c.book) :
    Stands s p posted d := by
  refine ⟨hLine.trans h.line, ?_, h.posts⟩
  rw [hBook]
  exact h.waits

/- A post waits its turn, or is written at once. -/
theorem post
    (h : Stands s p posted c)
    {m : Json}
    (hm : isReply m = false) :
    Stands s p (posted ++ [m]) (c.post m) := by
  refine ⟨?_, by rw [book_post]; exact h.waits, ?_⟩
  · by_cases hPhase : p = .accepted
    · subst hPhase
      have hState : c.state = .ready :=
        congrArg Line.state h.line
      have hSent : c.originated = _ :=
        congrArg Line.originated h.line
      rw [Client.post, hState]
      change (c.write m).line = _
      rw [line_write c h.live, h.line, hSent]
      simp [Session.line, hm]
    · have hQueue := h.queueing hPhase
      have hOutbox : c.outbox = _ :=
        congrArg Line.outbox h.line
      rw [Client.post, if_pos hQueue]
      change { c.line with outbox := c.outbox ++ [m] } = _
      rw [hOutbox, h.line]
      cases p with
      | accepted => exact absurd rfl hPhase
      | launched => rfl
      | greeting => rfl
      | refused => rfl
  · intro x hx
    rcases List.mem_append.mp hx with hOld | hNew
    · exact h.posts x hOld
    · rw [List.mem_singleton.mp hNew]
      exact hm

/- A request takes an id that the greeting has not. -/
theorem request
    (h : Stands s p posted c)
    {method : String}
    {action : ReplyAction}
    (hMethod : isLifecycle method = false)
    (hAction : action.isOwn = true)
    (params : Json) :
    Stands s p
      (posted ++ [Rpc.request (c.lastId + 1) method
        (paramsOrEmpty params)])
      (c.request method params action).1 := by
  have hAccepting : c.state.isAccepting = true := by
    by_cases hPhase : p = .accepted
    · subst hPhase
      have hState : c.state = .ready :=
        congrArg Line.state h.line
      rw [hState]
      rfl
    · simp [ClientState.isAccepting, h.queueing hPhase]
  let asked : Client :=
    { c with
      lastId := c.lastId + 1
      awaiting :=
        Table.insert c.awaiting (c.lastId + 1)
          ⟨method, action⟩ }
  have hAsked : Stands s p posted asked :=
    ⟨h.line, h.waits.ask hAction, h.posts⟩
  have hPost := hAsked.post (m := Rpc.request (c.lastId + 1)
    method (paramsOrEmpty params)) rfl
  simpa [Client.request, hMethod, hAccepting] using hPost

theorem notify
    (h : Stands s p posted c)
    (method : String)
    (params : Json) :
    Stands s p
      (posted ++
        [Rpc.notification method (paramsOrEmpty params)])
      (c.notify method params) :=
  h.post rfl

/- Versions of documents show only in what is posted. -/
theorem report
    (h : Stands s p posted c)
    (versions : Table String Nat)
    (method : String)
    (params : Json) :
    Stands s p
      (posted ++
        [Rpc.notification method (paramsOrEmpty params)])
      (({ c with versions := versions } : Client).notify
        method params) :=
  notify (c := { c with versions := versions })
    (h.silent rfl rfl) method params

theorem didChange
    (h : Stands s p posted c)
    (uri text : String) :
    Stands s p (posted ++ c.changePosts uri text)
      (c.didChange uri text).1 := by
  unfold Client.didChange changePosts
  cases Table.get? c.versions uri with
  | none =>
      rw [List.append_nil]
      exact h
  | some v =>
      exact h.report _ "textDocument/didChange"
        (changeParams uri (v + 1) text)

theorem didOpen
    (h : Stands s p posted c)
    (uri language text : String) :
    Stands s p
      (posted ++ c.posts (.didOpen uri language text))
      (c.didOpen uri language text).1 := by
  simp only [Client.didOpen, Client.posts]
  split
  · rw [List.append_nil]
    exact h
  · split
    · exact h.didChange uri text
    · exact h.report _ "textDocument/didOpen"
        (openParams uri language text)

theorem didClose
    (h : Stands s p posted c)
    (uri : String) :
    Stands s p (posted ++ c.posts (.didClose uri))
      (c.didClose uri) := by
  simp only [Client.didClose, Client.posts]
  split
  · exact h.report _ "textDocument/didClose"
      (.obj [("textDocument", .obj [("uri", .str uri)])])
  · rw [List.append_nil]
    exact h

/- The greeting is accepted: the line opens. -/
theorem line_onInitialized
    (h : Stands s .greeting posted c)
    (hSame : d.line = c.line) :
    d.onInitialized.line = s.line posted .accepted := by
  have hLine := hSame.trans h.line
  have hState : d.state = .initializing :=
    congrArg Line.state hLine
  have hSent : d.originated = s.sent ++ [s.greeting] :=
    congrArg Line.originated hLine
  have hPosts :
      posted.filter (!isReply ·) = posted := by
    apply List.filter_eq_self.mpr
    intro m hm
    simp [h.posts m hm]
  let opened : Client := { d with state := .ready }
  have hOpened : opened.line =
      ⟨true, .ready, posted, s.sent ++ [s.greeting]⟩ := by
    change { d.line with state := .ready } = _
    rw [hLine]
    rfl
  let greeted : Client :=
    opened.write (Rpc.notification "initialized" (.obj []))
  have hGreeted : greeted.line =
      ⟨true, .ready, posted,
        s.sent ++ [s.greeting] ++
          [Rpc.notification "initialized" (.obj [])]⟩ := by
    change (opened.write _).line = _
    rw [line_write opened (by rw [hOpened]), hOpened]
    change Line.mk _ _ _ (d.originated ++ _) = _
    rw [hSent]
    rfl
  have hOutbox : greeted.outbox = posted :=
    congrArg Line.outbox hGreeted
  let cleared : Client := { greeted with outbox := [] }
  have hCleared : cleared.line =
      { greeted.line with outbox := [] } := rfl
  have hWritten : (cleared.writeAll greeted.outbox).line =
      s.line posted .accepted := by
    rw [line_writeAll cleared (by rw [hCleared, hGreeted]),
      hCleared, hGreeted, hOutbox, hPosts]
    change Line.mk _ _ _ (greeted.line.originated ++ _) = _
    rw [hGreeted]
    simp [Session.line]
  rw [onInitialized, if_neg (by simp [hState])]
  exact (line_signal _ _).trans hWritten

/- A reply to a request of the owner shows on no line. -/
theorem answered_other
    (h : Stands s p posted c)
    {n : Nat}
    {a : Awaiting}
    (hn : n ≠ s.id)
    (hFound : Table.get? c.awaiting n = some a)
    (v : Except Json Json) :
    Stands s p posted
      (({ c with awaiting := Table.erase c.awaiting n }
        ).callBack a.action v) := by
  have hOwn := h.waits.own n a hn hFound
  refine ⟨?_, ?_, h.posts⟩
  · exact (line_callBack _ hOwn v).trans h.line
  · rw [book_callBack _ n]
    apply h.waits.answer
    rw [Table.get?_erase, if_neg hn]
    exact h.waits.greeting

/- A reply to the greeting opens the line or leaves it. -/
theorem answered_greeting
    (h : Stands s .greeting posted c)
    (v : Except Json Json) :
    Stands s
      (match v with
        | .ok _ => .accepted
        | .error _ => .refused)
      posted
      (({ c with awaiting := Table.erase c.awaiting s.id }
        ).callBack .finishHandshake v) := by
  refine ⟨?_, ?_, h.posts⟩
  · cases v with
    | ok value => exact h.line_onInitialized rfl
    | error value =>
        change (onInitializeFailed _ value).line = _
        rw [onInitializeFailed, line_signal, line_log]
        exact h.line
  · rw [book_callBack _ s.id ⟨"initialize", .finishHandshake⟩]
    apply h.waits.answer
    rw [Table.get?_erase, if_pos rfl]
    cases v <;> rfl

/- What is no reply shows on no line. -/
theorem handleMessage_of_not_isResponse
    (h : Stands s p posted c)
    {fs : Table String Json}
    (hFields : Rpc.isResponse fs = false) :
    Stands s p posted (c.handleMessage fs).1 := by
  unfold Client.handleMessage
  cases hClass : classify fs with
  | reply =>
      simp only [classify, hFields, Bool.false_eq_true,
        if_false] at hClass
      split at hClass
      · cases hClass
      · split at hClass <;> cases hClass
  | call id method params =>
      exact h.silent (line_answerCall _ h.live _ _ _)
        (book_answerCall _ _ _ _)
  | notice method params =>
      exact h.silent (line_onNotification _ _ _)
        (book_onNotification _ _ _)
  | nothing => exact h

/- A reply finds the greeting, another request or none. -/
theorem resolve
    (h : Stands s p posted c)
    {fs : Table String Json}
    (hFields : Rpc.isResponse fs = true) :
    Stands s (p.hear s.id fs) posted (c.resolve fs).1 := by
  by_cases hFor : ∃ n a,
      c.awaitingFor (Json.pick fs ["id"]) = .ok (some (n, a))
  · rcases hFor with ⟨n, a, hFor⟩
    rcases awaitingFor_eq_some_iff.mp hFor with
      ⟨hFound, hSame⟩
    rw [resolve_found hFor]
    by_cases hn : n = s.id
    · subst hn
      have hOpen : some a = _ :=
        hFound.symm.trans h.waits.greeting
      split at hOpen
      next hPhase =>
        subst hPhase
        cases hOpen
        have hReply : repliesTo s.id fs = true := by
          simp [repliesTo, hFields, hSame]
        simp only [Phase.hear, hReply, and_self, if_true]
        exact h.answered_greeting (verdictOf fs)
      next => cases hOpen
    · have hNot : repliesTo s.id fs = false := by
        rw [repliesTo, hFields, Bool.true_and,
          Bool.eq_false_iff]
        intro hId
        rw [← Json.wholeKey_eq_iff] at hId hSame
        rw [hId] at hSame
        cases hSame
        exact hn rfl
      rw [Phase.hear_of_not_repliesTo hNot]
      exact h.answered_other hn hFound _
  · have hNone : ∀ n a,
        c.awaitingFor (Json.pick fs ["id"]) ≠
          .ok (some (n, a)) := by
      intro n a hEq
      exact hFor ⟨n, a, hEq⟩
    have hPhase : p.hear s.id fs = p := by
      by_cases hGreeting : p = .greeting
      · apply Phase.hear_of_not_repliesTo
        rw [repliesTo, hFields, Bool.true_and,
          Bool.eq_false_iff]
        intro hSame
        have hOpen := h.waits.greeting
        rw [if_pos hGreeting] at hOpen
        exact hNone _ _
          (awaitingFor_eq_some_iff.mpr ⟨hOpen, hSame⟩)
      · exact Phase.hear_of_ne hGreeting fs
    rw [hPhase]
    rcases resolve_unknown hNone with hSame | ⟨text, hLog⟩
    · rw [hSame]
      exact h
    · rw [hLog]
      exact h.silent (line_log _ _) (book_log _ _)

/- A message moves a session on by what it replies to. -/
theorem handleMessage
    (h : Stands s p posted c)
    (fs : Table String Json) :
    Stands s (p.hear s.id fs) posted
      (c.handleMessage fs).1 := by
  cases hFields : Rpc.isResponse fs with
  | false =>
      rw [Phase.hear_of_not_repliesTo
        (by simp [repliesTo, hFields])]
      exact h.handleMessage_of_not_isResponse hFields
  | true =>
      rw [handleMessage_of_isResponse hFields]
      exact h.resolve hFields

theorem handleAll
    (h : Stands s p posted c)
    (ms : List (Table String Json)) :
    Stands s ((c.handledOf ms).foldl (Phase.hear s.id) p)
      posted (c.handleAll ms).1 := by
  induction ms generalizing c p with
  | nil => exact h
  | cons fs ms ih =>
      have hFirst := h.handleMessage fs
      unfold handledOf Client.handleAll
      rcases hHandled : c.handleMessage fs with ⟨c₁, failure⟩
      rw [hHandled] at hFirst
      cases failure with
      | some e => exact hFirst
      | none => exact ih hFirst

/- An event of the traffic adds its posts in order. -/
theorem step
    (h : Stands s p posted c)
    (env : Environment)
    {e : Event}
    (hTraffic : e.isTraffic = true) :
    Stands s ((c.handles e).foldl (Phase.hear s.id) p)
      (posted ++ c.posts e) (c.step env e).1 := by
  cases e with
  | request method params action =>
      simp only [Event.isTraffic, Bool.and_eq_true,
        Bool.not_eq_true'] at hTraffic
      exact h.request hTraffic.1 hTraffic.2 params
  | notify method params => exact h.notify method params
  | didOpen uri language text =>
      exact h.didOpen uri language text
  | didChange uri text => exact h.didChange uri text
  | didClose uri => exact h.didClose uri
  | message fs =>
      simp only [Client.step, risky_fst, Client.posts,
        List.append_nil]
      exact h.handleMessage fs
  | output bs =>
      simp only [Client.step, risky_fst, Client.posts,
        List.append_nil]
      apply handleAll
      exact h.silent (line_takeBytes _ _) (book_takeBytes _ _)
  | failed fault =>
      have hFault : fault ≠ .failedToStart := by
        simpa [Event.isTraffic] using hTraffic
      have hBook := c.book_processFailed fault
      rw [if_neg hFault] at hBook
      simp only [Client.posts, List.append_nil]
      exact h.silent (line_processFailed c hFault) hBook
  | writeFails value =>
      cases value with
      | true => cases hTraffic
      | false =>
          simp only [Client.posts, List.append_nil]
          refine h.silent ?_ rfl
          simp only [Client.line,
            (c.writes_of_live h.live).2]
          rfl
  | register method handler =>
      simp only [Client.posts, List.append_nil]
      exact h.silent rfl rfl
  | errors bs =>
      simp only [Client.posts, List.append_nil]
      exact h.silent (c.line_readErrors bs)
        (c.book_readErrors bs)
  | timer =>
      simp only [Client.posts, List.append_nil]
      exact h.silent c.line_graceExpired c.book_graceExpired
  | obey value =>
      simp only [Client.posts, List.append_nil]
      exact h.silent rfl rfl
  | start launch => cases hTraffic
  | stop => cases hTraffic
  | started => cases hTraffic
  | exited code => cases hTraffic

theorem run
    (h : Stands s p posted c)
    (env : Environment)
    {events : List Event}
    (hTraffic : ∀ e ∈ events, e.isTraffic = true) :
    Stands s
      ((handledAlong env c events).foldl
        (Phase.hear s.id) p)
      (posted ++ postedAlong env c events)
      (Client.run env c events) := by
  induction events generalizing c p posted with
  | nil =>
      simpa [handledAlong, postedAlong, Client.run] using h
  | cons e events ih =>
      have hStep :=
        h.step env (hTraffic e List.mem_cons_self)
      have hRest := ih hStep
        fun x hx => hTraffic x (List.mem_cons_of_mem _ hx)
      simpa [handledAlong, postedAlong, Client.run,
        List.foldl_append] using hRest

/- A launch begins a session; no request has the id zero. -/
theorem launch
    (hWrites : c.process.writeFails = false)
    (env : Environment)
    (l : Launch)
    (greeting : Json) :
    Stands ⟨c.originated, 0, greeting⟩ .launched []
      (c.start env l) := by
  refine ⟨line_start hWrites env l, ?_, ?_⟩
  · rw [book_start]
    refine ⟨Nat.zero_le _, rfl, ?_⟩
    intro n a _ hFound
    cases hFound
  · intro m hm
    cases hm

/- The greeting is written as soon as the process runs. -/
theorem greet
    {greeting : Json}
    {sent : List Json}
    (h : Stands ⟨sent, 0, greeting⟩ .launched posted c)
    (env : Environment) :
    Stands
      ⟨sent, c.lastId + 1,
        Rpc.request (c.lastId + 1) "initialize"
          (handshakeParams env.processId c.rootPath c.trace)⟩
      .greeting posted (c.started env) := by
  have hWrites := (c.writes_of_live h.live).2
  have hOutbox : c.outbox = posted :=
    congrArg Line.outbox h.line
  have hSent : c.originated = sent :=
    congrArg Line.originated h.line
  let asked : Client :=
    { c with
      process := { c.process with state := .running }
      state := .initializing
      lastId := c.lastId + 1
      awaiting := Table.insert c.awaiting (c.lastId + 1)
        ⟨"initialize", .finishHandshake⟩ }
  have hAsked : asked.line =
      ⟨true, .initializing, posted, sent⟩ := by
    change Line.mk (!c.process.writeFails) _ c.outbox
      c.originated = _
    rw [hWrites, hOutbox, hSent]
    rfl
  change Stands _ _ _ (asked.write
    (Rpc.request (c.lastId + 1) "initialize"
      (handshakeParams env.processId c.rootPath c.trace)))
  refine ⟨?_, ?_, h.posts⟩
  · rw [line_write asked (by rw [hAsked]), hAsked]
    change Line.mk _ _ _ (asked.line.originated ++ _) = _
    rw [hAsked]
    rfl
  · rw [book_write]
    exact h.waits.greet

end Stands

/-
  The line of a session, from the launch of the process on.
  Before the process has started nothing is written but
  replies.  Then the greeting is written, and nothing else of
  the client's own accord until the greeting is accepted.
  From there on the greeting, `initialized` and all that was
  posted since the launch have been written, each once and in
  this order.
-/
theorem handshake_orders_writes
    (env : Environment)
    (c : Client)
    (launch : Launch)
    (before after : List Event)
    (hWrites : c.process.writeFails = false)
    (hBefore : ∀ e ∈ before, e.isTraffic = true)
    (hAfter : ∀ e ∈ after, e.isTraffic = true) :
    let launched := (c.step env (.start launch)).1
    let waited := run env launched before
    let greeted := (waited.step env .started).1
    let last := run env greeted after
    let id := waited.lastId + 1
    let greeting := Rpc.request id "initialize"
      (handshakeParams env.processId waited.rootPath
        waited.trace)
    let posted := postedAlong env launched before ++
      postedAlong env greeted after
    let handled := handledAlong env greeted after
    waited.originated = c.originated ∧
      (¬ Accepted id handled →
        last.originated = c.originated ++ [greeting]) ∧
      (Accepted id handled →
        last.originated =
          c.originated ++ greeting ::
            Rpc.notification "initialized" (.obj []) ::
              posted) := by
  intro launched waited greeted last id greeting posted handled
  have hLaunched : Stands ⟨c.originated, 0, greeting⟩
      .launched [] launched :=
    Stands.launch hWrites env launch greeting
  have hWaited := hLaunched.run env hBefore
  rw [Phase.hearAll_of_ne (by decide)] at hWaited
  have hGreeted : Stands ⟨c.originated, id, greeting⟩
      .greeting (postedAlong env launched before) greeted :=
    hWaited.greet env
  have hLast := hGreeted.run env hAfter
  rw [Phase.hearAll_greeting] at hLast
  refine ⟨congrArg Line.originated hWaited.line, ?_, ?_⟩
  · intro hNot
    cases hVerdict :
        (handled.find? (repliesTo id)).map verdictOf with
    | none =>
        rw [hVerdict] at hLast
        exact congrArg Line.originated hLast.line
    | some verdict =>
        cases verdict with
        | ok value => exact absurd ⟨value, hVerdict⟩ hNot
        | error value =>
            rw [hVerdict] at hLast
            exact congrArg Line.originated hLast.line
  · intro hAccepted
    rcases hAccepted with ⟨value, hVerdict⟩
    rw [hVerdict] at hLast
    exact congrArg Line.originated hLast.line

/-
  Posts from before the start, from before the reply and from
  after it, in one row.
-/
theorem handshake_orders_writes_across_the_reply :
    let env : Environment := ⟨none, 7, fun _ => false⟩
    let before : List Event := [.notify "ping" .null]
    let after : List Event :=
      [.didOpen "a.css" "css" "",
        .message [("id", .int 1), ("result", .null)],
        .request "hover" .null .ignore]
    (run env (.new "")
        (.start .default :: before ++
          .started :: after)).originated =
      [Rpc.request 1 "initialize" (handshakeParams 7 "" "off"),
        Rpc.notification "initialized" (.obj []),
        Rpc.notification "ping" (.obj []),
        Rpc.notification "textDocument/didOpen"
          (openParams "a.css" "css" ""),
        Rpc.request 2 "hover" (.obj [])] := by
  intro env before after
  have hOrder := handshake_orders_writes env (.new "") .default
    before after rfl (by decide) (by decide)
  have hLast := hOrder.2.2 ⟨.null, by rfl⟩
  refine Eq.trans ?_ (hLast.trans ?_)
  · simp only [run, List.cons_append, List.foldl_cons,
      List.foldl_append]
  · rfl

end Client

end StyleCompanion
