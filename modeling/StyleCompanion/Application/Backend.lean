import StyleCompanion.Application.Documents

/-
  The backend and the openings that wait.

  A request to show a companion is read, carried out by the
  pairing and answered; all other messages are the client's
  own.  Openings run one after the other; one that fails ends
  the run and the rest goes on waiting.

  Key definitions include:
    * `Application.handleShow`
    * `Application.handleMessage`
    * `Application.clientEvent`
    * `Application.runTask`
    * `Application.pump`
    * `Application.shutdown`
-/

namespace StyleCompanion

open Pairing

namespace Application

----
-- Companions
----

/- The log record of a request. -/
def requestLog
    (r : Attribution.ShowRequest) : LogRecord :=
  .debug
    ("Companion " ++ r.companionUri ++ ": " ++
      toString r.model.sources.size ++ " sources, " ++
      toString r.model.lineCount ++ " lines")

/- Read a request to show a companion and carry it out. -/
def handleShow
    (a : Application)
    (params : Json) : Application × Outcome Unit :=
  match Attribution.ShowRequest.ofParams params with
  | .error e => (a, .error (Failure.ofDecodeError e))
  | .ok r =>
      let q :=
        (a.log (requestLog r)).showCompanion
          r.companionUri r.model none
      match q.2 with
      | none => (q.1, .ok ())
      | some e => (q.1, .error e)

----
-- Messages of the backend
----

/- Carry out a step of the client that may fail. -/
def onClient
    (a : Application)
    (c : Client)
    (f : Client → Client × Option Failure) :
    Application × Option Failure :=
  let r := f c
  (a.onDesktop (·.absorb r.1), r.2)

/- Whether a request is answered by the application. -/
def isOwnCall
    (c : Client)
    (method : String) : Bool :=
  match Table.get? c.handlers method with
  | some .application => true
  | _ => false

/- Carry out a request of the backend and answer it. -/
def answerCall
    (a : Application)
    (id : Json)
    (method : String)
    (params : Json) : Application :=
  let r := a.handleShow params
  r.1.onDesktop (·.onClient fun c =>
    c.reply id method (r.2.map fun _ => .null))

/- Handle a message of the backend. -/
def handleMessage
    (a : Application)
    (fs : Table String Json) : Application × Option Failure :=
  match a.host.client with
  | none => (a, none)
  | some c =>
      match Client.classify fs with
      | .call id method params =>
          if isOwnCall c method then
            (a.answerCall id method params, none)
          else a.onClient c (·.handleMessage fs)
      | _ => a.onClient c (·.handleMessage fs)

/- Handle messages until one fails. -/
def handleAll
    (a : Application)
    (ms : List (Table String Json)) :
    Application × Option Failure :=
  match ms with
  | [] => (a, none)
  | fs :: rest =>
      match a.handleMessage fs with
      | (a₁, none) => handleAll a₁ rest
      | (a₁, some e) => (a₁, some e)

/- Read what the backend wrote. -/
def readOutput
    (a : Application)
    (c : Client)
    (bytes : List UInt8) : Application × Option Failure :=
  let r := c.takeBytes bytes
  (a.onDesktop (·.absorb r.1)).handleAll r.2

/- An operation that may fail, with its answer. -/
def answered
    (r : Application × Option Failure) :
    Application × Outcome Client.Answer :=
  match r.2 with
  | none => (r.1, .ok .done)
  | some e => (r.1, .error e)

/- Something happens to the client, if there is one. -/
def clientEvent
    (a : Application)
    (event : Client.Event) :
    Application × Outcome Client.Answer :=
  match a.host.client with
  | none => (a, .error .missingObject)
  | some c =>
      match event with
      | .message fs => answered (a.handleMessage fs)
      | .output bytes => answered (a.readOutput c bytes)
      | e =>
          let r := c.step a.host.environment e
          (a.onDesktop (·.absorb r.1), r.2)

----
-- Openings that wait
----

/- Carry out an opening. -/
def runTask
    (a : Application)
    (t : Desktop.Task) : Application × Option Failure :=
  match t with
  | .companion p =>
      match a.openDocument p.companion .secondary true with
      | (a₁, .ok ok) => (a₁.companionOpened p ok, none)
      | (a₁, .error e) => (a₁, some e)
  | .report uri region preserveFocus =>
      match a.openDocument uri region preserveFocus with
      | (a₁, .ok ok) =>
          (a₁.onDesktop (·.note (.completed uri ok)), none)
      | (a₁, .error e) => (a₁, some e)

/- Take the first opening off the list. -/
def dropTask
    (a : Application) : Application :=
  a.onDesktop fun d => { d with tasks := d.tasks.tail }

/- Carry out openings in order until one fails. -/
def runTasks
    (ts : List Desktop.Task)
    (a : Application) : Application × Option Failure :=
  match ts with
  | [] => (a, none)
  | t :: rest =>
      match a.dropTask.runTask t with
      | (a₁, none) => runTasks rest a₁
      | (a₁, some e) => (a₁, some e)

/- Carry out all openings that wait. -/
def pump
    (a : Application) : Application × Option Failure :=
  runTasks a.host.tasks a

/- Let an opening wait whose end is only reported. -/
def requestReport
    (a : Application)
    (uri : String)
    (region : Region)
    (preserveFocus : Bool) : Application :=
  a.onDesktop fun d =>
    { d with
      tasks := d.tasks ++ [.report uri region preserveFocus] }

----
-- The end
----

/- Forget all pairs and stop the backend. -/
def shutdown
    (a : Application) : Application :=
  onDesktop a.teardown (·.onClient (·.stop))

end Application

end StyleCompanion
