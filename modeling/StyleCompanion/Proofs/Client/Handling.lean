import StyleCompanion.Proofs.Client.Requests

/-
  What a message makes of a client.

  The handling of a message is told in two parts: what the
  client turns into, and the effects that are appended to the
  journal.  Neither part reads the journal or the framer.
  Only a reply turns the client into another one, and only a
  reply whose id cannot be looked up fails.

  Main declarations:
    * `Client.after`
    * `Process.writing`
    * `Client.effects`
    * `Client.turned`
    * `Client.chokes`
    * `Client.handleMessage_fst`
    * `Client.handleMessage_snd`
    * `Client.takeBytes_eq`
    * `Client.bare`
    * `Client.backend`
-/

namespace StyleCompanion

/- What a message does that is written to a process. -/
def Process.writing
    (p : Process)
    (m : Json) : List ClientEffect :=
  if !p.isAlive then []
  else if p.writeFails then
    [.signal
      (.status ("Backend write failed: " ++ p.errorText))]
  else
    [.process (.write m),
      .log (.debug ("--> " ++ Client.subject m))]

namespace Client

/- A client with more effects in its journal. -/
def after
    (c : Client)
    (es : List ClientEffect) : Client :=
  { c with journal := c.journal ++ es }

/- A client with another framer. -/
def withFramer
    (c : Client)
    (f : Rpc.Framer) : Client :=
  { c with framer := f }

section Growth

variable (c : Client)

@[simp] theorem after_nil :
    c.after [] = c := by
  simp [after]

@[simp] theorem withFramer_after
    (es : List ClientEffect)
    (f : Rpc.Framer) :
    (c.after es).withFramer f = (c.withFramer f).after es := rfl

@[simp] theorem withFramer_withFramer
    (f g : Rpc.Framer) :
    (c.withFramer f).withFramer g = c.withFramer g := rfl

@[simp] theorem after_after
    (es fs : List ClientEffect) :
    (c.after es).after fs = c.after (es ++ fs) := by
  simp [after]

theorem log_eq
    (r : LogRecord) :
    c.log r = c.after [.log r] := rfl

theorem signal_eq
    (s : Signal) :
    c.signal s = c.after [.signal s] := rfl

theorem signals_eq
    (ss : List Signal) :
    ss.foldl signal c = c.after (ss.map .signal) := by
  induction ss generalizing c with
  | nil => simp
  | cons s ss ih =>
      rw [List.foldl_cons, ih, signal_eq, after_after]
      rfl

/- Writing does no more than to append to the journal. -/
theorem write_eq
    (m : Json) :
    c.write m = c.after (c.process.writing m) := by
  unfold write Process.writing
  split
  · simp
  · split
    · rfl
    · exact after_after c [.process (.write m)] _

theorem writeAll_eq
    (ms : List Json) :
    c.writeAll ms = c.after (ms.flatMap c.process.writing) := by
  unfold writeAll
  induction ms generalizing c with
  | nil => simp
  | cons m ms ih =>
      rw [List.foldl_cons, ih, write_eq, after_after]
      rfl

end Growth

----
-- Effects of messages
----

/- What answering a request does. -/
def replyEffects
    (p : Process)
    (id : Json)
    (method : String)
    (outcome : Outcome Json) : List ClientEffect :=
  match outcome with
  | .ok result => p.writing (Rpc.response id result)
  | .error (.refused cause) =>
      .log
          (.warning
            ("Rejected " ++ method ++ ": " ++ cause.message)) ::
        p.writing
          (Rpc.errorResponse id Rpc.invalidParams cause.message)
  | .error e =>
      .log (.error ("Handler for " ++ method ++ " failed")) ::
        p.writing
          (Rpc.errorResponse id Rpc.internalError e.message)

/- What a request does. -/
def callEffects
    (c : Client)
    (id : Json)
    (method : String)
    (params : Json) : List ClientEffect :=
  match Table.get? c.handlers method with
  | none =>
      c.process.writing
        (Rpc.errorResponse id Rpc.methodNotFound
          ("Method not supported: " ++ method))
  | some h =>
      (h.run params).2.map .signal ++
        replyEffects c.process id method (h.run params).1

/- What a notification does. -/
def noticeEffects
    (method : String)
    (params : Json) : List ClientEffect :=
  let text := noticeText method params
  (if text.isEmpty then []
    else
      [.log (.info ("backend: " ++ text)),
        .signal (.status text)]) ++
    [.signal (.notification method params)]

/- What the reply to an open request does. -/
def verdictEffects
    (c : Client)
    (action : ReplyAction)
    (verdict : Except Json Json) : List ClientEffect :=
  match action, verdict with
  | .ignore, _ => []
  | .report tag, .ok value => [.signal (.replied tag value)]
  | .report tag, .error value => [.signal (.failed tag value)]
  | .sendExit, _ =>
      c.process.writing (Rpc.notification "exit" (.obj []))
  | .finishHandshake, .ok _ =>
      if c.state = .initializing then
        (Rpc.notification "initialized" (.obj []) ::
            c.outbox).flatMap c.process.writing ++
          [.signal .ready]
      else []
  | .finishHandshake, .error value =>
      let text := "Backend initialize failed: " ++ value.text
      [.log (.error text), .signal (.status text)]

/- What a message does. -/
def effects
    (c : Client)
    (fs : Table String Json) : List ClientEffect :=
  match classify fs with
  | .reply =>
      match c.awaitingFor (Json.pick fs ["id"]) with
      | .error _ => []
      | .ok none =>
          [.log
            (.debug
              ("Reply to unknown request id " ++
                (Json.pick fs ["id"]).display))]
      | .ok (some (_, a)) =>
          c.verdictEffects a.action (verdictOf fs)
  | .call id method params => c.callEffects id method params
  | .notice method params => noticeEffects method params
  | .nothing => []

----
-- What a client turns into
----

/- The client after the reply to an open request. -/
def concluded
    (c : Client)
    (action : ReplyAction)
    (verdict : Except Json Json) : Client :=
  match action, verdict with
  | .finishHandshake, .ok _ =>
      if c.state = .initializing then
        { c with state := .ready, outbox := [] }
      else c
  | _, _ => c

/- The client after a message, its journal apart. -/
def turned
    (c : Client)
    (fs : Table String Json) : Client :=
  match classify fs with
  | .reply =>
      match c.awaitingFor (Json.pick fs ["id"]) with
      | .ok (some (n, a)) =>
          ({ c with awaiting := Table.erase c.awaiting n }
            ).concluded a.action (verdictOf fs)
      | _ => c
  | _ => c

/-
  Whether a message fails: a reply with a list or an object
  for its id, while requests are open.
-/
def chokes
    (c : Client)
    (fs : Table String Json) : Bool :=
  Rpc.isResponse fs && !(Json.pick fs ["id"]).isKey &&
    !c.awaiting.isEmpty

section Handling

variable (c : Client)

theorem reply_eq
    (id : Json)
    (method : String)
    (outcome : Outcome Json) :
    c.reply id method outcome =
      c.after (replyEffects c.process id method outcome) := by
  unfold reply
  split
  · exact c.write_eq _
  · rw [write_eq, log_eq, after_after]
    rfl
  · next e hOther =>
      rw [replyEffects, write_eq, log_eq, after_after]
      · rfl
      · exact hOther

theorem answerCall_eq
    (id : Json)
    (method : String)
    (params : Json) :
    c.answerCall id method params =
      c.after (c.callEffects id method params) := by
  unfold answerCall callEffects
  cases Table.get? c.handlers method with
  | none => exact c.write_eq _
  | some h =>
      dsimp only
      rw [signals_eq, reply_eq, after_after]
      rfl

theorem onNotification_eq
    (method : String)
    (params : Json) :
    c.onNotification method params =
      c.after (noticeEffects method params) := by
  unfold onNotification noticeEffects
  dsimp only
  split
  · rfl
  · rw [log_eq, signal_eq, signal_eq, after_after, after_after]
    rfl

/- The handshake ends with all that waited being written. -/
theorem onInitialized_eq
    (value : Json) :
    c.onInitialized =
      (c.concluded .finishHandshake (.ok value)).after
        (c.verdictEffects .finishHandshake (.ok value)) := by
  unfold onInitialized concluded verdictEffects
  dsimp only
  by_cases hState : c.state = .initializing
  · rw [if_neg (by simp [hState]), if_pos hState, if_pos hState,
      write_eq, writeAll_eq, signal_eq]
    simp [after]
  · rw [if_pos hState, if_neg hState, if_neg hState, after_nil]

theorem callBack_eq
    (action : ReplyAction)
    (verdict : Except Json Json) :
    c.callBack action verdict =
      (c.concluded action verdict).after
        (c.verdictEffects action verdict) := by
  cases action with
  | ignore =>
      cases verdict <;> exact (after_nil _).symm
  | report tag => cases verdict <;> rfl
  | sendExit => cases verdict <;> exact c.write_eq _
  | finishHandshake =>
      cases verdict with
      | ok value => exact c.onInitialized_eq value
      | error value =>
          exact after_after c
            [.log (.error
              ("Backend initialize failed: " ++ value.text))] _

/- Nothing but the state, the open requests and the outbox
  changes. -/
theorem turned_eq
    (fs : Table String Json) :
    ∃ state awaiting outbox,
      c.turned fs =
        { c with
          state := state
          awaiting := awaiting
          outbox := outbox } := by
  unfold turned
  split
  · split
    · next n a hFor =>
        unfold concluded
        split
        · split
          · exact ⟨_, _, _, rfl⟩
          · exact ⟨_, _, _, rfl⟩
        · exact ⟨_, _, _, rfl⟩
    · exact ⟨_, _, _, rfl⟩
  · exact ⟨_, _, _, rfl⟩

/- A message is handled by what it does and turns into. -/
theorem handleMessage_fst
    (fs : Table String Json) :
    (c.handleMessage fs).1 =
      (c.turned fs).after (c.effects fs) := by
  unfold handleMessage turned effects
  cases hClass : classify fs with
  | call id method params =>
      exact c.answerCall_eq id method params
  | notice method params =>
      exact c.onNotification_eq method params
  | nothing => exact (after_nil c).symm
  | reply =>
      dsimp only
      cases hFor : c.awaitingFor (Json.pick fs ["id"]) with
      | error e =>
          simp only [resolve, hFor, after_nil]
      | ok found =>
          cases found with
          | none =>
              simp only [resolve, hFor]
              rfl
          | some p =>
              rw [resolve_found hFor, callBack_eq]
              rfl

/- A look-up fails for what is no key, if there is a table. -/
theorem awaitingFor_isOk
    (id : Json) :
    (c.awaitingFor id).isOk =
      (id.isKey || c.awaiting.isEmpty) := by
  unfold awaitingFor
  split
  next hEmpty => simp [hEmpty, Except.isOk, Except.toBool]
  next hSome =>
    have hKey : id.wholeKey.isOk = id.isKey := by
      unfold Json.wholeKey
      split
      · rfl
      · rfl
      · rfl
      · rfl
      · split <;> rfl
      · next hArr hObj _ _ _ =>
          cases id with
          | arr items => exact absurd rfl (hArr items)
          | obj fields => exact absurd rfl (hObj fields)
          | _ => rfl
    rw [← hKey, Bool.eq_false_iff.mpr hSome, Bool.or_false]
    split <;> simp [*, Except.isOk, Except.toBool]

/- A message is classified as a reply if it is one. -/
theorem classify_eq_reply_iff
    (fs : Table String Json) :
    classify fs = .reply ↔ Rpc.isResponse fs = true := by
  unfold classify
  dsimp only
  split
  next hReply => simp [hReply]
  next hOther =>
    refine ⟨?_, fun hReply => absurd hReply hOther⟩
    intro hClass
    split at hClass
    · cases hClass
    · split at hClass <;> cases hClass

/- Exactly the replies with such an id fail. -/
theorem handleMessage_snd
    (fs : Table String Json) :
    (c.handleMessage fs).2.isSome = c.chokes fs := by
  have hReply := classify_eq_reply_iff fs
  unfold handleMessage chokes
  cases hClass : classify fs with
  | reply =>
      rw [hReply.mp hClass, Bool.true_and, ← Bool.not_or,
        ← awaitingFor_isOk]
      cases hFor : c.awaitingFor (Json.pick fs ["id"]) with
      | error e =>
          simp [resolve, hFor, Except.isOk, Except.toBool]
      | ok found =>
          cases found with
          | none =>
              simp [resolve, hFor, Except.isOk, Except.toBool]
          | some p =>
              rw [resolve_found hFor]
              rfl
  | _ =>
      have hOther : Rpc.isResponse fs = false := by
        rw [Bool.eq_false_iff, ne_eq, ← hReply, hClass]
        exact fun h => nomatch h
      rw [hOther]
      rfl

end Handling

----
-- Bytes
----

/- Taking in bytes sets the framer and logs the faults. -/
theorem takeBytes_eq
    (c : Client)
    (bs : List UInt8) :
    c.takeBytes bs =
      ((c.withFramer (c.framer.feed bs).1).after
        ((Rpc.faults (c.framer.feed bs).2).map fun f =>
          .log (.warning f.message)),
        Rpc.messages (c.framer.feed bs).2) := by
  have hLogs : ∀ (fs : List Rpc.FrameFault) (c : Client),
      fs.foldl (fun c f => c.log (.warning f.message)) c =
        c.after (fs.map fun f => .log (.warning f.message)) := by
    intro fs
    induction fs with
    | nil => simp
    | cons f fs ih =>
        intro c
        rw [List.foldl_cons, ih, log_eq, after_after]
        rfl
  unfold takeBytes
  dsimp only
  rw [hLogs]
  rfl

----
-- What talking leaves alone
----

/-
  A client without what talking changes: its phase, requests,
  outbox, documents and journal.
-/
def bare
    (c : Client) : Client :=
  { c with
    state := .stopped
    lastId := 0
    awaiting := []
    outbox := []
    versions := []
    journal := [] }

/- The framer, the process and the timer of a client. -/
structure Backend where
  framer : Rpc.Framer
  process : Process
  killTimer : Bool

def backend
    (c : Client) : Backend :=
  ⟨c.framer, c.process, c.killTimer⟩

theorem backend_of_bare
    {c d : Client}
    (h : d.bare = c.bare) :
    d.backend = c.backend := by
  have hSame : d.bare.backend = c.bare.backend := by rw [h]
  exact hSame

section Talking

variable (c : Client)

theorem bare_write
    (m : Json) :
    (c.write m).bare = c.bare := by
  rw [write_eq]
  rfl

theorem bare_post
    (m : Json) :
    (c.post m).bare = c.bare := by
  unfold post
  split
  · rfl
  · split
    · exact c.bare_write m
    · rfl

theorem bare_request
    (method : String)
    (params : Json)
    (action : ReplyAction) :
    (c.request method params action).1.bare = c.bare := by
  unfold request
  split
  · unfold refuseRequest
    dsimp only
    split <;> rfl
  · dsimp only
    split
    · exact bare_write _ _
    · exact bare_post _ _

theorem bare_didChange
    (uri text : String) :
    (c.didChange uri text).1.bare = c.bare := by
  unfold didChange
  split
  · rfl
  · exact bare_post _ _

theorem bare_didOpen
    (uri language text : String) :
    (c.didOpen uri language text).1.bare = c.bare := by
  unfold didOpen
  split
  · rfl
  · split
    · exact c.bare_didChange uri text
    · exact bare_post _ _

theorem bare_didClose
    (uri : String) :
    (c.didClose uri).bare = c.bare := by
  unfold didClose
  split
  · exact bare_post _ _
  · rfl

theorem bare_handleMessage
    (fs : Table String Json) :
    (c.handleMessage fs).1.bare = c.bare := by
  rcases c.turned_eq fs with ⟨state, awaiting, outbox, hTurned⟩
  rw [handleMessage_fst, hTurned]
  rfl

theorem bare_handleAll
    (ms : List (Table String Json)) :
    (c.handleAll ms).1.bare = c.bare := by
  induction ms generalizing c with
  | nil => rfl
  | cons fs ms ih =>
      have hFirst := c.bare_handleMessage fs
      unfold handleAll
      rcases hHandled : c.handleMessage fs with ⟨d, failure⟩
      rw [hHandled] at hFirst
      cases failure with
      | some e => exact hFirst
      | none => exact (ih d).trans hFirst

theorem bare_readErrors
    (bs : List UInt8) :
    (c.readErrors bs).bare = c.bare := by
  unfold readErrors
  dsimp only
  split <;> rfl

theorem backend_post
    (m : Json) :
    (c.post m).backend = c.backend :=
  backend_of_bare (c.bare_post m)

theorem backend_request
    (method : String)
    (params : Json)
    (action : ReplyAction) :
    (c.request method params action).1.backend =
      c.backend :=
  backend_of_bare (c.bare_request method params action)

theorem backend_didChange
    (uri text : String) :
    (c.didChange uri text).1.backend = c.backend :=
  backend_of_bare (c.bare_didChange uri text)

theorem backend_didOpen
    (uri language text : String) :
    (c.didOpen uri language text).1.backend = c.backend :=
  backend_of_bare (c.bare_didOpen uri language text)

theorem backend_didClose
    (uri : String) :
    (c.didClose uri).backend = c.backend :=
  backend_of_bare (c.bare_didClose uri)

theorem backend_handleMessage
    (fs : Table String Json) :
    (c.handleMessage fs).1.backend = c.backend :=
  backend_of_bare (c.bare_handleMessage fs)

theorem backend_handleAll
    (ms : List (Table String Json)) :
    (c.handleAll ms).1.backend = c.backend :=
  backend_of_bare (c.bare_handleAll ms)

theorem backend_readErrors
    (bs : List UInt8) :
    (c.readErrors bs).backend = c.backend :=
  backend_of_bare (c.bare_readErrors bs)

end Talking

end Client

end StyleCompanion
