import StyleCompanion.Client.Basic
import StyleCompanion.Text.Path

/-
  The life of a session with the backend.

  Starting ends a process that is still alive, forgets the
  session before, configures the process and launches it.  The
  handshake follows when the process has started.  Stopping a
  ready backend asks it to shut down and arms a timer that
  kills a backend which ignores the request.

  Key definitions include:
    * `Environment`
    * `Launch`
    * `resolveProgram`
    * `Client.start`
    * `Client.stop`
    * `Client.started`
    * `Client.exited`
    * `Client.processFailed`
    * `Client.graceExpired`
-/

namespace StyleCompanion

/- What the surroundings of the client decide. -/
structure Environment where
  serverPath : Option String
  processId : Nat
  isDirectory : String → Bool

/- How a backend is to be launched. -/
structure Launch where
  program : Json
  args : List Json
  cwd : String
  env : Table String Json
  trace : Json

namespace Launch

/- A launch that asks for nothing special. -/
def default : Launch :=
  { program := .str ""
    args := []
    cwd := ""
    env := []
    trace := .str "off" }

end Launch

/- The name of the backend's program. -/
def defaultProgram : String := "bhc-language-server"

/-
  The program to run: the configured one, or else the one that
  the surroundings name, or else the default.
-/
def resolveProgram
    (configured : Json)
    (serverPath : Option String) : String :=
  let first := Text.trim configured.textOrEmpty
  let second := Text.trim (serverPath.getD "")
  if !first.isEmpty then first
  else if !second.isEmpty then second
  else defaultProgram

/- How long a backend may take to end, in milliseconds. -/
def exitGrace : Nat := 1200

namespace Client

----
-- The end of a session
----

/- Forget all that belongs to one session. -/
def forgetSession
    (c : Client) : Client :=
  { c with
    framer := .new
    awaiting := []
    outbox := []
    versions := [] }

/- React to the end of the process. -/
def onExited
    (c : Client)
    (code : Int) : Client :=
  let c₁ :=
    ({ c with killTimer := false, state := .stopped }
      ).forgetSession
  let c₂ := c₁.log
    (.info
      ("Stylesheet backend exited with code " ++
        toString code))
  if c.state = .stopped then c₂ else c₂.signal .stopped

/- The process ends by itself. -/
def exited
    (c : Client)
    (code : Int) : Client :=
  ({ c with process := c.process.ended }).onExited code

/-
  Wait for the process, which may end meanwhile; says whether
  it did.
-/
def waitForEnd
    (c : Client) : Client × Bool :=
  let c₁ := c.call (.wait exitGrace)
  if c₁.process.endsWhenWaitedFor then (c₁.exited 15, true)
  else (c₁, false)

/- End a process that is still alive. -/
def endProcess
    (c : Client) : Client :=
  if !c.process.isAlive then c
  else
    let r := (c.call .terminate).waitForEnd
    if r.2 then r.1
    else ((r.1.call .kill).waitForEnd).1

----
-- Start and handshake
----

/- The trace setting of a launch. -/
def traceOf
    (trace : Json) : String :=
  let text := Text.trim (trace.orElse (.str "off")).text
  if text.isEmpty then "off" else text

/- The directory of a launch, if it exists. -/
def rootOf
    (env : Environment)
    (launch : Launch) : String :=
  if !launch.cwd.isEmpty && env.isDirectory launch.cwd then
    launch.cwd
  else ""

/- Configure the process for a launch. -/
def configure
    (c : Client)
    (launch : Launch)
    (program : String) : Client :=
  let c₁ := c.call
    (.environment
      (launch.env.map fun p => (p.1, p.2.text)))
  let c₂ := c₁.call (.program program)
  let c₃ := c₂.call (.arguments (launch.args.map Json.text))
  if c₃.rootPath.isEmpty then c₃
  else c₃.call (.workingDirectory c₃.rootPath)

/- Launch the backend. -/
def start
    (c : Client)
    (env : Environment)
    (launch : Launch) : Client :=
  let c₁ := c.endProcess.forgetSession
  let c₂ :=
    { c₁ with
      rootPath := rootOf env launch
      trace := traceOf launch.trace }
  let program := resolveProgram launch.program env.serverPath
  let c₃ := (c₂.configure launch program).log
    (.info ("Starting stylesheet backend " ++ program))
  ({ c₃ with state := .starting }).call .start

/- The uri of a local path. -/
def uriOfPath
    (path : String) : String :=
  "file://" ++ path

/- What the client says it can do. -/
def capabilities : Json :=
  .obj
    [("textDocument", .obj
      [("synchronization", .obj
        [("didSave", .bool false),
          ("willSave", .bool false)])]),
      ("window", .obj
        [("showDocument", .obj
          [("support", .bool true)])])]

/- The parameters of the handshake. -/
def handshakeParams
    (processId : Nat)
    (rootPath trace : String) : Json :=
  let rootUri : Json :=
    if rootPath.isEmpty then .null
    else .str (uriOfPath rootPath)
  let folders : List (String × Json) :=
    if rootPath.isEmpty then []
    else
      [("workspaceFolders", .arr
        [.obj
          [("uri", rootUri),
            ("name", .str (Path.basename rootPath))]])]
  .obj
    ([("processId", .int processId),
      ("clientInfo", .obj [("name", .str "csslens")]),
      ("rootUri", rootUri),
      ("trace", .str trace),
      ("capabilities", capabilities)] ++ folders)

/- The process has started: begin the handshake. -/
def started
    (c : Client)
    (env : Environment) : Client :=
  let c₁ :=
    { c with
      process := { c.process with state := .running }
      state := .initializing }
  (c₁.request "initialize"
    (handshakeParams env.processId c₁.rootPath c₁.trace)
    .finishHandshake).1

/- The handshake is over: send what waited. -/
def onInitialized
    (c : Client) : Client :=
  if c.state ≠ .initializing then c
  else
    let c₁ := ({ c with state := .ready }).write
      (Rpc.notification "initialized" (.obj []))
    let c₂ := ({ c₁ with outbox := [] }).writeAll c₁.outbox
    c₂.signal .ready

/- The backend refused the handshake. -/
def onInitializeFailed
    (c : Client)
    (error : Json) : Client :=
  let text := "Backend initialize failed: " ++ error.text
  (c.log (.error text)).signal (.status text)

----
-- Stop and faults
----

/- Ask the backend to leave. -/
def sendExit
    (c : Client) : Client :=
  c.write (Rpc.notification "exit" (.obj []))

/- Arm the timer that kills a backend. -/
def armTimer
    (c : Client) : Client :=
  { c with killTimer := true }

/- End the session. -/
def stop
    (c : Client) : Client :=
  if !c.process.isAlive then c.forgetSession
  else
    let c₁ := { c with state := .stopping }
    if c.state = .ready then
      (c₁.request "shutdown" .null .sendExit).1.armTimer
    else (c₁.call .terminate).armTimer

/- The timer has run out. -/
def graceExpired
    (c : Client) : Client :=
  if !c.killTimer then c
  else
    let c₁ := { c with killTimer := false }
    if c₁.process.isAlive then
      (c₁.log
        (.warning "Backend ignored shutdown; killing it")
        ).call .kill
    else c₁

/- React to a fault of the process. -/
def onProcessFault
    (c : Client)
    (fault : ProcessFault) : Client :=
  if c.state = .stopping ∧ fault ≠ .failedToStart then c
  else
    let c₁ :=
      if fault = .failedToStart then
        ({ c with state := .stopped }).forgetSession
      else c
    let text :=
      "Backend process error: " ++ c.process.errorText
    (c₁.log (.error text)).signal (.status text)

/- A fault of the process; a failed start ends it. -/
def processFailed
    (c : Client)
    (fault : ProcessFault) : Client :=
  let p :=
    if fault = .failedToStart then
      { c.process with state := .notRunning }
    else c.process
  ({ c with process := p }).onProcessFault fault

end Client

end StyleCompanion
