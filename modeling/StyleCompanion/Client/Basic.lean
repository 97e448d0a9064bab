import StyleCompanion.Attribution.Payload
import StyleCompanion.Client.Process
import StyleCompanion.Log
import StyleCompanion.Rpc.Framer

/-
  The client of the stylesheet backend.

  Requests and notifications posted before the handshake is
  over wait in an outbox.  Replies are matched to requests by
  their ids, which are never used twice.  What the client does
  to the outside, calls of the process, signals and log
  records, is appended to its journal.

  Key definitions include:
    * `ClientState`
    * `ReplyAction`
    * `Handler`
    * `Client`
    * `Client.write`
    * `Client.post`
    * `Client.request`
    * `Client.notify`
-/

namespace StyleCompanion

----
-- Types
----

/- The phases of a session with the backend. -/
inductive ClientState where
  | stopped
  | starting
  | initializing
  | ready
  | stopping
  deriving DecidableEq, Repr

namespace ClientState

/- The name of a phase. -/
def name : ClientState → String
  | .stopped => "stopped"
  | .starting => "starting"
  | .initializing => "initializing"
  | .ready => "ready"
  | .stopping => "stopping"

/- Whether messages wait in the outbox. -/
def isQueueing : ClientState → Bool
  | .starting => true
  | .initializing => true
  | _ => false

/- Whether requests are taken. -/
def isAccepting
    (s : ClientState) : Bool :=
  s.isQueueing || s == .ready

end ClientState

/- What is done with the reply to a request. -/
inductive ReplyAction where
  | ignore
  | report (tag : Json)
  | finishHandshake
  | sendExit

/- A request that waits for its reply. -/
structure Awaiting where
  method : String
  action : ReplyAction

/- What the client tells those who listen. -/
inductive Signal where
  | ready
  | stopped
  | status (text : String)
  | notification (method : String) (params : Json)
  | replied (tag value : Json)
  | failed (tag value : Json)
  | shown (uri : String) (model : Attribution.Model)

/-
  What answers a request of the backend: a function of its
  parameters, a reader of companion requests that announces
  them, or the application, which shows companions.
-/
inductive Handler where
  | answer (f : Json → Outcome Json)
  | announce
  | application

namespace Handler

/-
  The answer of a handler and the signals it gives.  What the
  application does is not the client's to know; here it only
  checks the request.
-/
def run
    (h : Handler)
    (params : Json) : Outcome Json × List Signal :=
  match h with
  | .answer f => (f params, [])
  | .announce =>
      match Attribution.ShowRequest.ofParams params with
      | .ok r => (.ok .null, [.shown r.companionUri r.model])
      | .error e => (.error (Failure.ofDecodeError e), [])
  | .application =>
      match Attribution.ShowRequest.ofParams params with
      | .ok _ => (.ok .null, [])
      | .error e => (.error (Failure.ofDecodeError e), [])

end Handler

/- What the client does to the outside. -/
inductive ClientEffect where
  | process (call : ProcessCall)
  | signal (signal : Signal)
  | log (record : LogRecord)

/- The client. -/
structure Client where
  state : ClientState
  framer : Rpc.Framer
  lastId : Nat
  awaiting : Table Nat Awaiting
  outbox : List Json
  versions : Table String Nat
  handlers : Table String Handler
  rootPath : String
  trace : String
  process : Process
  killTimer : Bool
  journal : List ClientEffect

namespace Client

/-
  A client before its first session, with what its process
  will say about a fault.
-/
def new
    (errorText : String) : Client :=
  { state := .stopped
    framer := .new
    lastId := 0
    awaiting := []
    outbox := []
    versions := []
    handlers := []
    rootPath := ""
    trace := "off"
    process := .new errorText
    killTimer := false
    journal := [] }

----
-- The journal
----

/- Append an effect. -/
def emit
    (c : Client)
    (e : ClientEffect) : Client :=
  { c with journal := c.journal ++ [e] }

/- Give a signal. -/
def signal
    (c : Client)
    (s : Signal) : Client :=
  c.emit (.signal s)

/- Log a record. -/
def log
    (c : Client)
    (r : LogRecord) : Client :=
  c.emit (.log r)

/- Call the process. -/
def call
    (c : Client)
    (p : ProcessCall) : Client :=
  { c with
    process := c.process.apply p
    journal := c.journal ++ [.process p] }

----
-- Outgoing messages
----

/- What a message is called in the log. -/
def subject
    (message : Json) : String :=
  let method := (message.field? "method").getD .null
  if method.isTruthy then method.text
  else
    "reply " ++ ((message.field? "id").getD .null).text

/- Write a message to the process, if it runs. -/
def write
    (c : Client)
    (message : Json) : Client :=
  if !c.process.isAlive then c
  else if c.process.writeFails then
    c.signal
      (.status
        ("Backend write failed: " ++ c.process.errorText))
  else
    (c.call (.write message)).log
      (.debug ("--> " ++ subject message))

/- Write messages in order. -/
def writeAll
    (c : Client)
    (messages : List Json) : Client :=
  messages.foldl write c

/- Send a message now, later or never, by the phase. -/
def post
    (c : Client)
    (message : Json) : Client :=
  if c.state.isQueueing then
    { c with outbox := c.outbox ++ [message] }
  else if c.state == .ready then c.write message
  else c

/- Parameters that are nothing become an empty object. -/
def paramsOrEmpty
    (params : Json) : Json :=
  params.orElse (.obj [])

/- Post a notification. -/
def notify
    (c : Client)
    (method : String)
    (params : Json) : Client :=
  c.post (Rpc.notification method (paramsOrEmpty params))

/- Whether a method belongs to the life of the session. -/
def isLifecycle
    (method : String) : Bool :=
  method == "initialize" || method == "shutdown"

/- Tell the one who asked that the backend does not run. -/
def refuseRequest
    (c : Client)
    (method : String)
    (action : ReplyAction) : Client :=
  let c₁ := c.log
    (.debug
      ("Not sending " ++ method ++ "; backend is " ++
        c.state.name))
  match action with
  | .report tag =>
      c₁.signal
        (.failed tag
          (Rpc.errorValue Rpc.serverNotInitialized
            "Backend is not running"))
  | _ => c₁

/-
  Send a request and give its id, or zero when the backend
  does not run.  Requests of the session's life are written at
  once.
-/
def request
    (c : Client)
    (method : String)
    (params : Json)
    (action : ReplyAction) : Client × Nat :=
  if !isLifecycle method && !c.state.isAccepting then
    (c.refuseRequest method action, 0)
  else
    let id := c.lastId + 1
    let c₁ :=
      { c with
        lastId := id
        awaiting := Table.insert c.awaiting id ⟨method, action⟩ }
    let message :=
      Rpc.request id method (paramsOrEmpty params)
    if isLifecycle method then (c₁.write message, id)
    else (c₁.post message, id)

end Client

end StyleCompanion
