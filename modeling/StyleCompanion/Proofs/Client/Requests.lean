import StyleCompanion.Proofs.Client.History
import StyleCompanion.Proofs.Number.Whole

/-
  Requests of the client and their replies.

  The books of a client, its last id, the table of requests
  that wait and the callbacks it has made, are those that the
  history of its run leads to.  What holds of ids and
  callbacks is then read off the history.

  A callback is the last thing that the handling of a reply
  does.  What it does in turn is the next event of the run.

  Main declarations:
    * `Json.wholeKey_eq_iff`
    * `Client.awaitingFor_eq_some_iff`
    * `Client.keeps_run`
    * `Client.replies_match_requests`
-/

namespace StyleCompanion

----
-- Ids
----

namespace Json

/- A value is looked up as the whole number that it equals. -/
theorem wholeKey_eq_iff
    (x : Json)
    (n : Int) :
    x.wholeKey = .ok (some n) ↔ x.same (.int n) = true := by
  cases x with
  | null => simp [wholeKey, same, agrees]
  | bool b =>
      simp [wholeKey, same, agrees, sameNumeral, numeral?,
        Numeral.same]
  | int m =>
      simp [wholeKey, same, agrees, sameNumeral, numeral?,
        Numeral.same]
  | str s => simp [wholeKey, same, agrees]
  | arr xs => simp [wholeKey, same, agrees]
  | obj fs => simp [wholeKey, same, agrees]
  | float x =>
      cases x with
      | nan => simp [wholeKey, same]
      | infinite s =>
          simp [wholeKey, same, agrees, sameNumeral, numeral?,
            Numeral.same, Binary64.isInt]
      | finite s u =>
          have hSame :
              (Json.float (.finite s u)).same (.int n) =
                (Binary64.finite s u).isInt n := by
            simp [same, agrees, sameNumeral, numeral?,
              Numeral.same]
          rw [hSame, Binary64.isInt_finite_iff, wholeKey]
          split
          next hWhole => simp [hWhole]
          next hPart => simp [hPart]

end Json

namespace Client

/- A reply finds the request whose number its id equals. -/
theorem awaitingFor_eq_some_iff
    {c : Client}
    {id : Json}
    {n : Nat}
    {a : Awaiting} :
    c.awaitingFor id = .ok (some (n, a)) ↔
      Table.get? c.awaiting n = some a ∧
        id.same (.int n) = true := by
  rw [← Json.wholeKey_eq_iff]
  unfold awaitingFor
  split
  next hEmpty =>
    rw [List.isEmpty_iff.mp hEmpty]
    simp
  next hSome =>
    cases hKey : id.wholeKey with
    | error e => simp
    | ok key =>
        cases key with
        | none => simp
        | some k =>
            cases k with
            | negSucc m => simp
            | ofNat m =>
                simp only [Except.ok.injEq, Option.some.injEq,
                  Option.map_eq_some_iff, Prod.mk.injEq]
                constructor
                · intro h
                  rcases h with ⟨b, hb, rfl, rfl⟩
                  exact ⟨hb, rfl⟩
                · intro h
                  rcases h with ⟨hFound, hEq⟩
                  cases hEq
                  exact ⟨a, hFound, rfl, rfl⟩

----
-- Books of a client
----

section Books

variable (c : Client)

/- An effect adds at most a callback to the books. -/
theorem book_emit
    (e : ClientEffect) :
    (c.emit e).book =
      { c.book with
        calls := c.book.calls ++ (callback? e).toList } := by
  have hCalls :
      (c.journal ++ [e]).filterMap callback? =
        c.journal.filterMap callback? ++
          (callback? e).toList := by
    rw [List.filterMap_append]
    cases h : callback? e <;> simp [h]
  simp [emit, book, hCalls]

theorem book_state
    (s : ClientState) :
    ({ c with state := s } : Client).book = c.book := rfl

@[simp] theorem book_log
    (r : LogRecord) :
    (c.log r).book = c.book := by
  simp [log, book_emit, callback?]

@[simp] theorem book_call
    (p : ProcessCall) :
    (c.call p).book = c.book := by
  simp [call, book, callback?]

@[simp] theorem book_status
    (text : String) :
    (c.signal (.status text)).book = c.book := by
  simp [signal, book_emit, callback?]

@[simp] theorem book_write
    (m : Json) :
    (c.write m).book = c.book := by
  unfold write
  split
  · rfl
  · split <;> simp

@[simp] theorem book_writeAll
    (ms : List Json) :
    (c.writeAll ms).book = c.book := by
  unfold writeAll
  induction ms generalizing c with
  | nil => rfl
  | cons m ms ih => rw [List.foldl_cons, ih, book_write]

@[simp] theorem book_post
    (m : Json) :
    (c.post m).book = c.book := by
  unfold post
  split
  · rfl
  · split <;> simp

@[simp] theorem book_notify
    (method : String)
    (params : Json) :
    (c.notify method params).book = c.book :=
  c.book_post _

@[simp] theorem book_onInitialized :
    c.onInitialized.book = c.book := by
  unfold onInitialized
  split
  · rfl
  · simp only [signal, book_emit, book_writeAll, callback?,
      Option.toList_none, List.append_nil]
    exact book_write { c with state := .ready } _

@[simp] theorem book_onInitializeFailed
    (error : Json) :
    (c.onInitializeFailed error).book = c.book := by
  simp [onInitializeFailed]

@[simp] theorem book_sendExit :
    c.sendExit.book = c.book :=
  c.book_write _

/- A callback is all that a verdict adds to the books. -/
theorem book_callBack
    (n : Nat)
    (a : Awaiting)
    (v : Except Json Json) :
    (c.callBack a.action v).book =
      { c.book with
        calls := c.book.calls ++
          (Entry.answered n a v).callback?.toList } := by
  rcases a with ⟨method, action⟩
  cases v with
  | ok value =>
      cases action with
      | report tag => exact c.book_emit _
      | ignore => simp [callBack, onResult, Entry.callback?]
      | finishHandshake =>
          simp [callBack, onResult, Entry.callback?]
      | sendExit => simp [callBack, onResult, Entry.callback?]
  | error value =>
      cases action with
      | report tag => exact c.book_emit _
      | ignore => simp [callBack, onError, Entry.callback?]
      | finishHandshake =>
          simp [callBack, onError, Entry.callback?]
      | sendExit => simp [callBack, onError, Entry.callback?]

theorem book_refuseRequest
    (method : String)
    (action : ReplyAction) :
    (c.refuseRequest method action).book =
      { c.book with
        calls := c.book.calls ++
          (Entry.refused
            ⟨method, action⟩).callback?.toList } := by
  unfold refuseRequest
  cases action with
  | report tag =>
      simp [signal, book_emit, callback?, Entry.callback?]
  | ignore => simp [Entry.callback?]
  | finishHandshake => simp [Entry.callback?]
  | sendExit => simp [Entry.callback?]

@[simp] theorem book_reply
    (id : Json)
    (method : String)
    (outcome : Outcome Json) :
    (c.reply id method outcome).book = c.book := by
  unfold reply
  split <;> simp

/- Handlers make no callback. -/
theorem callback?_of_mem_run
    {h : Handler}
    {params : Json}
    {s : Signal}
    (hMem : s ∈ (h.run params).2) :
    callback? (.signal s) = none := by
  cases h with
  | answer f => simp [Handler.run] at hMem
  | announce =>
      simp only [Handler.run] at hMem
      split at hMem
      · cases List.mem_singleton.mp hMem
        rfl
      · cases hMem
  | application =>
      simp only [Handler.run] at hMem
      split at hMem <;> cases hMem

@[simp] theorem book_answerCall
    (id : Json)
    (method : String)
    (params : Json) :
    (c.answerCall id method params).book = c.book := by
  have hSignals : ∀ (ss : List Signal) (c : Client),
      (∀ s ∈ ss, callback? (.signal s) = none) →
        (ss.foldl signal c).book = c.book := by
    intro ss
    induction ss with
    | nil => exact fun _ _ => rfl
    | cons s ss ih =>
        intro c hNone
        rw [List.foldl_cons,
          ih _ fun x hx => hNone x (List.mem_cons_of_mem _ hx)]
        simp [signal, book_emit, hNone s List.mem_cons_self]
  unfold answerCall
  split
  · exact c.book_write _
  · rw [book_reply]
    exact hSignals _ c fun s hs => callback?_of_mem_run hs

@[simp] theorem book_onNotification
    (method : String)
    (params : Json) :
    (c.onNotification method params).book = c.book := by
  unfold onNotification
  dsimp only
  split <;> simp [signal, book_emit, callback?]

@[simp] theorem book_exited
    (code : Int) :
    (c.exited code).book = c.book.forget := by
  unfold exited onExited
  dsimp only
  split
  · exact book_log _ _
  · simp only [signal, book_emit, book_log, callback?,
      Option.toList_none, List.append_nil]
    rfl

/- What is forgotten does not hang on how a process ends. -/
theorem book_endProcess :
    c.endProcess.book.forget = c.book.forget := by
  have hWait : ∀ c : Client,
      c.waitForEnd.1.book.forget = c.book.forget := by
    intro c
    unfold waitForEnd
    dsimp only
    split <;> simp [Book.forget]
  unfold endProcess
  split
  · rfl
  · dsimp only
    split
    · rw [hWait, book_call]
    · rw [hWait, book_call, hWait, book_call]

@[simp] theorem book_start
    (env : Environment)
    (launch : Launch) :
    (c.start env launch).book = c.book.forget := by
  have hConfigure : ∀ (c : Client) (program : String),
      (c.configure launch program).book = c.book := by
    intro c program
    unfold configure
    dsimp only
    split <;> simp
  unfold start
  dsimp only
  rw [book_call, book_state, book_log, hConfigure]
  exact c.book_endProcess

@[simp] theorem book_takeBytes
    (bs : List UInt8) :
    (c.takeBytes bs).1.book = c.book := by
  have hLogs : ∀ (fs : List Rpc.FrameFault) (c : Client),
      (fs.foldl (fun c f => c.log (.warning f.message))
        c).book = c.book := by
    intro fs
    induction fs with
    | nil => exact fun _ => rfl
    | cons f fs ih =>
        intro c
        rw [List.foldl_cons, ih, book_log]
  exact hLogs _ _

@[simp] theorem book_didChange
    (uri text : String) :
    (c.didChange uri text).1.book = c.book := by
  unfold didChange
  split
  · rfl
  · exact book_notify { c with versions := _ } _ _

@[simp] theorem book_didOpen
    (uri language text : String) :
    (c.didOpen uri language text).1.book = c.book := by
  unfold didOpen
  split
  · rfl
  · split
    · exact c.book_didChange uri text
    · exact book_notify { c with versions := _ } _ _

@[simp] theorem book_didClose
    (uri : String) :
    (c.didClose uri).book = c.book := by
  unfold didClose
  split
  · exact book_notify { c with versions := _ } _ _
  · rfl

@[simp] theorem book_readErrors
    (bs : List UInt8) :
    (c.readErrors bs).book = c.book := by
  unfold readErrors
  dsimp only
  split <;> simp

@[simp] theorem book_graceExpired :
    c.graceExpired.book = c.book := by
  unfold graceExpired
  split
  · rfl
  · dsimp only
    split
    · rw [book_call, book_log]
      rfl
    · rfl

/- Only a failed start makes the client forget. -/
theorem book_processFailed
    (fault : ProcessFault) :
    (c.processFailed fault).book =
      if fault = .failedToStart then c.book.forget
      else c.book := by
  unfold processFailed onProcessFault
  by_cases hFault : fault = .failedToStart
  · simp only [hFault, ne_eq, not_true_eq_false, and_false,
      if_false, if_true, book_status, book_log]
    rfl
  · simp only [hFault, if_false]
    split
    · rfl
    · rw [book_status, book_log]

end Books

----
-- Runs
----

section Runs

variable {c : Client} {es : List Entry}

/- A request is refused, or it gets the next id. -/
theorem Book.Keeps.request
    (h : Book.Keeps es c.book)
    (method : String)
    (params : Json)
    (action : ReplyAction) :
    Book.Keeps
      (es ++ [asking ⟨method, action⟩
        (c.request method params action).2])
      (c.request method params action).1.book := by
  have hAsked := h.asked ⟨method, action⟩
  unfold Client.request
  split
  next =>
    rw [asking, if_pos rfl, book_refuseRequest]
    exact h.refused ⟨method, action⟩
  next =>
    dsimp only
    split
    · rw [asking, if_neg (Nat.succ_ne_zero _), book_write]
      exact hAsked
    · rw [asking, if_neg (Nat.succ_ne_zero _), book_post]
      exact hAsked

/- A request of the session's life is never refused. -/
theorem asking_of_isLifecycle
    {method : String}
    (h : isLifecycle method = true)
    (params : Json)
    (action : ReplyAction) :
    asking ⟨method, action⟩
        (c.request method params action).2 =
      .asked (c.request method params action).1.lastId
        ⟨method, action⟩ := by
  have hId : ∀ (d : Client) (m : Json),
      (d.write m).lastId = d.lastId := by
    intro d m
    exact congrArg Book.lastId (d.book_write m)
  simp [Client.request, h, asking, hId]

/- A reply to an open request closes it and calls back. -/
theorem resolve_found
    {fs : Table String Json}
    {n : Nat}
    {a : Awaiting}
    (h : c.awaitingFor (Json.pick fs ["id"]) =
      .ok (some (n, a))) :
    c.resolve fs =
      (({ c with awaiting := Table.erase c.awaiting n }
        ).callBack a.action (verdictOf fs), none) := by
  unfold resolve verdictOf callBack
  simp only [h]
  cases Table.get? fs "error" <;> rfl

/- A reply to no open request is at most logged. -/
theorem resolve_unknown
    {fs : Table String Json}
    (h : ∀ n a, c.awaitingFor (Json.pick fs ["id"]) ≠
      .ok (some (n, a))) :
    (c.resolve fs).1 = c ∨
      ∃ text, (c.resolve fs).1 = c.log (.debug text) := by
  unfold resolve
  dsimp only
  split
  next => exact Or.inl rfl
  next => exact Or.inr ⟨_, rfl⟩
  next n a hFor => exact absurd hFor (h n a)

theorem Book.Keeps.handleMessage
    (h : Book.Keeps es c.book)
    (fs : Table String Json) :
    Book.Keeps (es ++ c.heard fs)
      (c.handleMessage fs).1.book := by
  unfold Client.handleMessage heard
  cases hClass : classify fs with
  | call id method params => simpa using h
  | notice method params => simpa using h
  | nothing => simpa using h
  | reply =>
      dsimp only
      split
      next n a hFor =>
        rw [resolve_found hFor, book_callBack _ n]
        exact h.answered (awaitingFor_eq_some_iff.mp hFor).1 _
      next hNone =>
        rw [List.append_nil]
        rcases resolve_unknown hNone with hSame | ⟨text, hLog⟩
        · rw [hSame]
          exact h
        · rw [hLog, book_log]
          exact h

theorem Book.Keeps.handleAll
    (h : Book.Keeps es c.book)
    (ms : List (Table String Json)) :
    Book.Keeps (es ++ c.heardAll ms)
      (c.handleAll ms).1.book := by
  induction ms generalizing c es with
  | nil => simpa [heardAll, Client.handleAll] using h
  | cons fs ms ih =>
      have hFirst := h.handleMessage fs
      unfold heardAll Client.handleAll
      rcases hHandled : c.handleMessage fs with ⟨c₁, failure⟩
      rw [hHandled] at hFirst
      cases failure with
      | some e => exact hFirst
      | none =>
          dsimp only
          rw [← List.append_assoc]
          exact ih hFirst

theorem risky_fst
    (r : Client × Option Failure) :
    (risky r).1 = r.1 := by
  unfold risky
  split <;> rfl

/- What does not show in the books keeps them. -/
theorem Book.Keeps.silent
    (h : Book.Keeps es c.book)
    {more : List Entry}
    {d : Client}
    (hNone : more = [])
    (hSame : d.book = c.book) :
    Book.Keeps (es ++ more) d.book := by
  rw [hNone, List.append_nil, hSame]
  exact h

/- Every event keeps the books. -/
theorem Book.Keeps.step
    (h : Book.Keeps es c.book)
    (env : Environment)
    (e : Event) :
    Book.Keeps (es ++ c.entries env e)
      (c.step env e).1.book := by
  cases e with
  | request method params action =>
      exact h.request method params action
  | start launch =>
      simp only [entries, Client.step, quiet, book_start]
      exact h.forgotten
  | exited code =>
      simp only [entries, Client.step, quiet, book_exited]
      exact h.forgotten
  | message fs =>
      simp only [entries, Client.step, risky_fst]
      exact h.handleMessage fs
  | output bs =>
      simp only [entries, Client.step, risky_fst]
      apply Book.Keeps.handleAll
      rw [book_takeBytes]
      exact h
  | started =>
      have hAsked := h.request (c := { c with
          process := { c.process with state := .running }
          state := .initializing }) "initialize"
        (handshakeParams env.processId c.rootPath c.trace)
        .finishHandshake
      rw [asking_of_isLifecycle rfl] at hAsked
      exact hAsked
  | stop =>
      simp only [entries, Client.step, quiet, Client.stop]
      split
      · exact h.forgotten
      · split
        · have hAsked := h.request
            (c := { c with state := .stopping })
            "shutdown" .null .sendExit
          rw [asking_of_isLifecycle rfl] at hAsked
          exact hAsked
        · have hCall :=
            book_call { c with state := .stopping } .terminate
          exact h.silent rfl hCall
  | failed fault =>
      simp only [entries, Client.step, quiet,
        book_processFailed]
      split
      · exact h.forgotten
      · rw [List.append_nil]
        exact h
  | register method handler => exact h.silent rfl rfl
  | notify method params =>
      exact h.silent rfl (c.book_notify method params)
  | didOpen uri language text =>
      exact h.silent rfl (c.book_didOpen uri language text)
  | didChange uri text =>
      exact h.silent rfl (c.book_didChange uri text)
  | didClose uri => exact h.silent rfl (c.book_didClose uri)
  | errors bs => exact h.silent rfl (c.book_readErrors bs)
  | timer => exact h.silent rfl c.book_graceExpired
  | obey b => exact h.silent rfl rfl
  | writeFails b => exact h.silent rfl rfl

/- The books of a run are those of its history. -/
theorem Book.Keeps.run
    (h : Book.Keeps es c.book)
    (env : Environment)
    (events : List Event) :
    Book.Keeps (es ++ history env c events)
      (Client.run env c events).book := by
  induction events generalizing c es with
  | nil => simpa [history, Client.run] using h
  | cons e events ih =>
      unfold history
      rw [← List.append_assoc]
      exact ih (h.step env e)

/- A new client has not asked for anything. -/
theorem keeps_run
    (env : Environment)
    (errorText : String)
    (events : List Event) :
    Book.Keeps (history env (.new errorText) events)
      (Client.run env (.new errorText) events).book :=
  Book.Keeps.run (c := .new errorText) .start env events

theorem handleMessage_of_isResponse
    {fs : Table String Json}
    (h : Rpc.isResponse fs = true) :
    c.handleMessage fs = c.resolve fs := by
  simp [Client.handleMessage, classify, h]

/-
  Over the whole life of a client, through any starts, stops,
  exits and failed starts, the ids of the requests that were
  asked go up.  None of them is answered twice, and each that
  is answered was asked in the same session.  The callbacks
  that were made are those of the history.

  A reply closes the open request whose number its id equals
  and calls back with the error, if it has one, or else with
  the result.  A reply whose id equals that of no open request
  changes nothing but the log.
-/
theorem replies_match_requests
    (env : Environment)
    (errorText : String)
    (events : List Event) :
    let c := Client.run env (.new errorText) events
    let es := history env (.new errorText) events
    (es.filterMap Entry.askedId?).Pairwise (· < ·) ∧
      (es.filterMap Entry.answeredId?).Nodup ∧
      (∀ before n a v after,
        es = before ++ .answered n a v :: after →
          Pending before n a) ∧
      c.journal.filterMap callback? =
        es.filterMap Entry.callback? ∧
      ∀ fs, Rpc.isResponse fs = true →
        (∀ n a, Pending es n a →
          (Json.pick fs ["id"]).same (.int n) = true →
            c.handleMessage fs =
              (({ c with
                  awaiting := Table.erase c.awaiting n }
                ).callBack a.action (verdictOf fs), none)) ∧
        ((∀ n a, Pending es n a →
            (Json.pick fs ["id"]).same (.int n) = false) →
          (c.handleMessage fs).1 = c ∨
            ∃ text,
              (c.handleMessage fs).1 =
                c.log (.debug text)) := by
  intro c es
  have hKeeps : Book.Keeps es c.book :=
    keeps_run env errorText events
  refine ⟨hKeeps.asked_increasing, hKeeps.answered_nodup, ?_,
    hKeeps.calls_eq, ?_⟩
  · intro before n a v after hSplit
    exact hKeeps.pending_of_answered hSplit
  · intro fs hResponse
    rw [handleMessage_of_isResponse hResponse]
    constructor
    · intro n a hPending hSame
      apply resolve_found
      exact awaitingFor_eq_some_iff.mpr
        ⟨hKeeps.get?_awaiting_iff.mpr hPending, hSame⟩
    · intro hNone
      apply resolve_unknown
      intro n a hFor
      rcases awaitingFor_eq_some_iff.mp hFor with
        ⟨hFound, hSame⟩
      rw [hNone n a (hKeeps.get?_awaiting_iff.mp hFound)]
        at hSame
      cases hSame

end Runs

end Client

end StyleCompanion
