import StyleCompanion.Client.Documents
import StyleCompanion.Client.Incoming

/-
  Whole runs of the client.

  An event is anything that happens to the client: a call of
  its owner, a signal of the process, bytes of the backend or
  the end of the timer.

  Key definitions include:
    * `Client.Event`
    * `Client.Answer`
    * `Client.step`
    * `Client.run`
-/

namespace StyleCompanion

namespace Client

/- What can happen to a client. -/
inductive Event where
  | register (method : String) (handler : Handler)
  | start (launch : Launch)
  | stop
  | request (method : String) (params : Json)
      (action : ReplyAction)
  | notify (method : String) (params : Json)
  | didOpen (uri language text : String)
  | didChange (uri text : String)
  | didClose (uri : String)
  | message (fields : Table String Json)
  | started
  | failed (fault : ProcessFault)
  | exited (code : Int)
  | output (bytes : List UInt8)
  | errors (bytes : List UInt8)
  | timer
  | obey (value : Bool)
  | writeFails (value : Bool)

/- What an event gives back. -/
inductive Answer where
  | done
  | number (n : Nat)
  deriving DecidableEq, Repr

/- Register a handler for a method. -/
def register
    (c : Client)
    (method : String)
    (handler : Handler) : Client :=
  { c with
    handlers := Table.insert c.handlers method handler }

/- An operation that gives nothing back. -/
def quiet
    (c : Client) : Client × Outcome Answer :=
  (c, .ok .done)

/- An operation that gives a number back. -/
def numbered
    (r : Client × Nat) : Client × Outcome Answer :=
  (r.1, .ok (.number r.2))

/- An operation that may fail. -/
def risky
    (r : Client × Option Failure) :
    Client × Outcome Answer :=
  match r.2 with
  | none => (r.1, .ok .done)
  | some e => (r.1, .error e)

/- The client after an event. -/
def step
    (env : Environment)
    (c : Client)
    (event : Event) : Client × Outcome Answer :=
  match event with
  | .register method handler =>
      (c.register method handler).quiet
  | .start launch => (c.start env launch).quiet
  | .stop => c.stop.quiet
  | .request method params action =>
      numbered (c.request method params action)
  | .notify method params => (c.notify method params).quiet
  | .didOpen uri language text =>
      numbered (c.didOpen uri language text)
  | .didChange uri text => numbered (c.didChange uri text)
  | .didClose uri => (c.didClose uri).quiet
  | .message fs => risky (c.handleMessage fs)
  | .started => (c.started env).quiet
  | .failed fault => (c.processFailed fault).quiet
  | .exited code => (c.exited code).quiet
  | .output bs => risky (c.readOutput bs)
  | .errors bs => (c.readErrors bs).quiet
  | .timer => c.graceExpired.quiet
  | .obey b =>
      ({ c with process := { c.process with obeys := b } }
        ).quiet
  | .writeFails b =>
      ({ c with process :=
          { c.process with writeFails := b } }).quiet

/- The client after events in order. -/
def run
    (env : Environment)
    (c : Client)
    (events : List Event) : Client :=
  events.foldl (fun c e => (c.step env e).1) c

end Client

end StyleCompanion
