import StyleCompanion.Client.Lifecycle

/-
  Messages of the backend.

  A reply goes to the request with its id, a request to the
  handler of its method, and a notification to all who listen.
  Every request is answered once.

  Key definitions include:
    * `Client.resolve`
    * `Client.reply`
    * `Client.answerCall`
    * `Client.onNotification`
    * `Client.handleMessage`
    * `Client.readOutput`
    * `Client.readErrors`
-/

namespace StyleCompanion

namespace Client

----
-- Replies
----

/- Do what a request wanted done with its result. -/
def onResult
    (c : Client)
    (action : ReplyAction)
    (value : Json) : Client :=
  match action with
  | .ignore => c
  | .report tag => c.signal (.replied tag value)
  | .finishHandshake => c.onInitialized
  | .sendExit => c.sendExit

/- Do what a request wanted done with an error. -/
def onError
    (c : Client)
    (action : ReplyAction)
    (value : Json) : Client :=
  match action with
  | .ignore => c
  | .report tag => c.signal (.failed tag value)
  | .finishHandshake => c.onInitializeFailed value
  | .sendExit => c.sendExit

/- The request that a reply's id belongs to. -/
def awaitingFor
    (c : Client)
    (id : Json) : Outcome (Option (Nat × Awaiting)) :=
  if c.awaiting.isEmpty then .ok none
  else
    match id.wholeKey with
    | .error e => .error e
    | .ok (some (.ofNat n)) =>
        .ok ((Table.get? c.awaiting n).map fun a => (n, a))
    | .ok _ => .ok none

/- Handle a reply.  An id that cannot be looked up fails. -/
def resolve
    (c : Client)
    (fs : Table String Json) : Client × Option Failure :=
  let id := Json.pick fs ["id"]
  match c.awaitingFor id with
  | .error e => (c, some e)
  | .ok none =>
      (c.log
        (.debug
          ("Reply to unknown request id " ++ id.display)),
        none)
  | .ok (some (n, a)) =>
      let c₁ :=
        { c with awaiting := Table.erase c.awaiting n }
      match Table.get? fs "error" with
      | some e => (c₁.onError a.action e, none)
      | none =>
          (c₁.onResult a.action (Json.pick fs ["result"]),
            none)

----
-- Requests and notifications
----

/- Answer a request by what its handler came to. -/
def reply
    (c : Client)
    (id : Json)
    (method : String)
    (outcome : Outcome Json) : Client :=
  match outcome with
  | .ok result => c.write (Rpc.response id result)
  | .error (.refused cause) =>
      (c.log
        (.warning
          ("Rejected " ++ method ++ ": " ++ cause.message))
        ).write
        (Rpc.errorResponse id Rpc.invalidParams cause.message)
  | .error e =>
      (c.log
        (.error ("Handler for " ++ method ++ " failed"))
        ).write
        (Rpc.errorResponse id Rpc.internalError e.message)

/- Answer a request that no handler takes. -/
def refuseCall
    (c : Client)
    (id : Json)
    (method : String) : Client :=
  c.write
    (Rpc.errorResponse id Rpc.methodNotFound
      ("Method not supported: " ++ method))

/- Answer a request. -/
def answerCall
    (c : Client)
    (id : Json)
    (method : String)
    (params : Json) : Client :=
  match Table.get? c.handlers method with
  | none => c.refuseCall id method
  | some h =>
      let r := h.run params
      (r.2.foldl signal c).reply id method r.1

/- The text of a message that is meant for the user. -/
def noticeText
    (method : String)
    (params : Json) : String :=
  match params with
  | .obj fs =>
      if method == "window/logMessage" ||
          method == "window/showMessage" then
        Text.trim (Json.pick fs ["message"]).textOrEmpty
      else ""
  | _ => ""

/- Pass on a notification. -/
def onNotification
    (c : Client)
    (method : String)
    (params : Json) : Client :=
  let text := noticeText method params
  let c₁ :=
    if text.isEmpty then c
    else
      (c.log (.info ("backend: " ++ text))).signal
        (.status text)
  c₁.signal (.notification method params)

/- What a message is. -/
inductive Incoming where
  | reply
  | call (id : Json) (method : String) (params : Json)
  | notice (method : String) (params : Json)
  | nothing

/- Tell what a message is. -/
def classify
    (fs : Table String Json) : Incoming :=
  let method := Json.pick fs ["method"]
  let params := Json.pick fs ["params"]
  if Rpc.isResponse fs then .reply
  else if Rpc.isRequest fs then
    .call (Json.pick fs ["id"]) method.text params
  else if method.isTruthy then .notice method.text params
  else .nothing

/- Handle a message. -/
def handleMessage
    (c : Client)
    (fs : Table String Json) : Client × Option Failure :=
  match classify fs with
  | .reply => c.resolve fs
  | .call id method params =>
      (c.answerCall id method params, none)
  | .notice method params =>
      (c.onNotification method params, none)
  | .nothing => (c, none)

----
-- Streams
----

/- Handle messages until one fails. -/
def handleAll
    (c : Client)
    (ms : List (Table String Json)) :
    Client × Option Failure :=
  match ms with
  | [] => (c, none)
  | fs :: rest =>
      match c.handleMessage fs with
      | (c₁, none) => handleAll c₁ rest
      | (c₁, some e) => (c₁, some e)

/-
  Take in bytes: the messages they complete, after the faults
  are logged.
-/
def takeBytes
    (c : Client)
    (bs : List UInt8) :
    Client × List (Table String Json) :=
  let r := c.framer.feed bs
  let c₁ := { c with framer := r.1 }
  ((Rpc.faults r.2).foldl
      (fun c f => c.log (.warning f.message)) c₁,
    Rpc.messages r.2)

/- Read what the backend wrote. -/
def readOutput
    (c : Client)
    (bs : List UInt8) : Client × Option Failure :=
  let r := c.takeBytes bs
  r.1.handleAll r.2

/- Log what the backend complained about. -/
def readErrors
    (c : Client)
    (bs : List UInt8) : Client :=
  let text := Text.trimChars (Utf8.decodeLossy bs)
  if text.isEmpty then c
  else
    c.log
      (.debug
        ("backend stderr: " ++ String.ofList text))

end Client

end StyleCompanion
