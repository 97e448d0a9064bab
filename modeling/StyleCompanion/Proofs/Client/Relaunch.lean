import StyleCompanion.Proofs.Client.Handling
import StyleCompanion.Proofs.Client.Ledger

/-
  What a launch takes over from the launches before it.

  A launch sets the program, its arguments and its environment
  anew, and what the greeting will say about the root and the
  trace.  Nothing else changes any of these, so they depend on
  the launch alone.  The working directory is set only by a
  launch with a directory that exists; any other launch runs
  in the directory that the last such launch has left.

  Main declarations:
    * `Client.Rig`
    * `Client.rig_start`
    * `Client.rig_step`
    * `Client.lived`
    * `Client.lastDirectory`
    * `Client.workingDirectory_lived`
    * `Client.Greets`
    * `Client.greets_launched`
    * `Client.launches_agree_iff`
    * `Client.directory_outlives_session`
-/

namespace StyleCompanion

namespace Client

----
-- What a launch sets
----

/-
  What a process is launched with, and what its greeting tells
  about the root and the trace.  The environment is given by
  what is put on top of that of the surroundings.
-/
structure Rig where
  program : String
  arguments : List String
  environment : List (String × String)
  workingDirectory : String
  rootPath : String
  trace : String

/- How a client is rigged. -/
def rig
    (c : Client) : Rig :=
  { program := c.process.program
    arguments := c.process.arguments
    environment := c.process.environment
    workingDirectory := c.process.workingDirectory
    rootPath := c.rootPath
    trace := c.trace }

/- The directory of a launch, if it has one that exists. -/
def launchDirectory?
    (env : Environment)
    (launch : Launch) : Option String :=
  if (rootOf env launch).isEmpty then none
  else some (rootOf env launch)

/- The rig that a launch leaves, after one before it. -/
def Rig.launched
    (r : Rig)
    (env : Environment)
    (launch : Launch) : Rig :=
  { program := resolveProgram launch.program env.serverPath
    arguments := launch.args.map Json.text
    environment := launch.env.map fun p => (p.1, p.2.text)
    workingDirectory :=
      (launchDirectory? env launch).getD r.workingDirectory
    rootPath := rootOf env launch
    trace := traceOf launch.trace }

/- What an event does to the rig. -/
def Rig.hear
    (r : Rig)
    (env : Environment) : Event → Rig
  | .start launch => r.launched env launch
  | _ => r

/- Talking does not touch the rig. -/
theorem rig_of_bare
    {c d : Client}
    (h : d.bare = c.bare) :
    d.rig = c.rig := by
  have hSame : d.bare.rig = c.bare.rig := by rw [h]
  exact hSame

section Rigs

variable (c : Client)

theorem rig_exited
    (code : Int) :
    (c.exited code).rig = c.rig := by
  unfold exited onExited
  dsimp only
  split <;> rfl

theorem rig_waitForEnd :
    c.waitForEnd.1.rig = c.rig := by
  unfold waitForEnd
  dsimp only
  split
  · exact rig_exited _ _
  · rfl

theorem rig_endProcess :
    c.endProcess.rig = c.rig := by
  unfold endProcess
  split
  · rfl
  · dsimp only
    split
    · exact rig_waitForEnd _
    · exact (rig_waitForEnd _).trans (rig_waitForEnd _)

/- The working directory is set if there is a root. -/
theorem rig_configure
    (launch : Launch)
    (program : String) :
    (c.configure launch program).rig =
      { program := program
        arguments := launch.args.map Json.text
        environment := launch.env.map fun p => (p.1, p.2.text)
        workingDirectory :=
          if c.rootPath.isEmpty then c.process.workingDirectory
          else c.rootPath
        rootPath := c.rootPath
        trace := c.trace } := by
  have hRoot : ∀ d : Client, d.rootPath = c.rootPath →
      (if d.rootPath.isEmpty then d
        else d.call (.workingDirectory d.rootPath)).rig =
        { d.rig with
          workingDirectory :=
            if c.rootPath.isEmpty then d.process.workingDirectory
            else c.rootPath } := by
    intro d hSame
    rw [hSame]
    split <;> rfl
  exact hRoot _ rfl

/- A launch without a directory leaves the one there was. -/
theorem rig_start
    (env : Environment)
    (launch : Launch) :
    (c.start env launch).rig = c.rig.launched env launch := by
  have hEnded := congrArg Rig.workingDirectory c.rig_endProcess
  unfold start Rig.launched launchDirectory?
  -- the rest of the launch sees the ended process only
  rw [← hEnded]
  generalize c.endProcess = d
  have hConfigured := rig_configure
    { d.forgetSession with
      rootPath := rootOf env launch
      trace := traceOf launch.trace }
    launch (resolveProgram launch.program env.serverPath)
  refine Eq.trans hConfigured ?_
  dsimp only
  split <;> rfl

theorem rig_stop :
    c.stop.rig = c.rig := by
  unfold stop
  split
  · rfl
  · dsimp only
    split
    · change (request { c with state := .stopping } "shutdown"
        .null .sendExit).1.rig = c.rig
      exact rig_of_bare (bare_request _ _ _ _)
    · rfl

theorem rig_graceExpired :
    c.graceExpired.rig = c.rig := by
  unfold graceExpired
  split
  · rfl
  · dsimp only
    split <;> rfl

theorem rig_processFailed
    (fault : ProcessFault) :
    (c.processFailed fault).rig = c.rig := by
  unfold processFailed onProcessFault
  cases fault <;> dsimp only <;> split <;> rfl

theorem rig_readOutput
    (bs : List UInt8) :
    (c.readOutput bs).1.rig = c.rig := by
  unfold readOutput
  rw [takeBytes_eq]
  dsimp only
  rw [rig_of_bare (bare_handleAll _ _)]
  rfl

end Rigs

/- Only a launch changes the rig. -/
theorem rig_step
    (env : Environment)
    (c : Client)
    (e : Event) :
    (c.step env e).1.rig = c.rig.hear env e := by
  cases e with
  | register method handler => rfl
  | start launch => exact c.rig_start env launch
  | stop => exact c.rig_stop
  | request method params action =>
      exact rig_of_bare (c.bare_request method params action)
  | notify method params => exact rig_of_bare (c.bare_post _)
  | didOpen uri language text =>
      exact rig_of_bare (c.bare_didOpen uri language text)
  | didChange uri text =>
      exact rig_of_bare (c.bare_didChange uri text)
  | didClose uri => exact rig_of_bare (c.bare_didClose uri)
  | message fs =>
      simp only [step, risky_fst]
      exact rig_of_bare (c.bare_handleMessage fs)
  | started =>
      change (c.started env).rig = c.rig
      unfold started
      dsimp only
      rw [rig_of_bare (bare_request _ _ _ _)]
      rfl
  | failed fault => exact c.rig_processFailed fault
  | exited code => exact c.rig_exited code
  | output bs =>
      simp only [step, risky_fst]
      exact c.rig_readOutput bs
  | errors bs => exact rig_of_bare (c.bare_readErrors bs)
  | timer => exact c.rig_graceExpired
  | obey value => rfl
  | writeFails value => rfl

----
-- Histories
----

/- An event, with the surroundings as they are at its time. -/
structure Moment where
  env : Environment
  event : Event

/- The client after what it has lived through. -/
def lived
    (c : Client)
    (past : List Moment) : Client :=
  past.foldl (fun c m => (c.step m.env m.event).1) c

/- The directory that is set at a moment. -/
def Moment.directory?
    (m : Moment) : Option String :=
  match m.event with
  | .start launch => launchDirectory? m.env launch
  | _ => none

/- The directory of the last launch that had one. -/
def lastDirectory
    (past : List Moment) : String :=
  ((past.filterMap Moment.directory?).getLast?).getD ""

theorem lived_concat
    (c : Client)
    (past : List Moment)
    (m : Moment) :
    c.lived (past ++ [m]) =
      ((c.lived past).step m.env m.event).1 :=
  List.foldl_append

/- Without a launch the rig stays as it is. -/
theorem rig_lived
    (c : Client)
    {later : List Moment}
    (h : ∀ m ∈ later, m.event.launches = false) :
    (c.lived later).rig = c.rig := by
  induction later generalizing c with
  | nil => rfl
  | cons m later ih =>
      rw [List.forall_mem_cons] at h
      have hKept : (c.step m.env m.event).1.rig = c.rig := by
        rw [rig_step]
        cases hEvent : m.event with
        | start launch =>
            rw [hEvent] at h
            cases h.1
        | _ => rfl
      exact (ih _ h.2).trans hKept

/- A moment that sets no directory leaves the one there was. -/
theorem workingDirectory_step
    (c : Client)
    (m : Moment) :
    (c.step m.env m.event).1.process.workingDirectory =
      m.directory?.getD c.process.workingDirectory := by
  have hRig := congrArg Rig.workingDirectory
    (rig_step m.env c m.event)
  refine hRig.trans ?_
  unfold Moment.directory?
  cases m.event <;> rfl

theorem lastDirectory_concat
    (past : List Moment)
    (m : Moment) :
    lastDirectory (past ++ [m]) =
      m.directory?.getD (lastDirectory past) := by
  unfold lastDirectory
  rw [List.filterMap_append, List.filterMap_cons,
    List.filterMap_nil]
  cases m.directory? with
  | none =>
      dsimp only
      rw [List.append_nil, Option.getD_none]
  | some path =>
      dsimp only
      rw [List.getLast?_concat, Option.getD_some,
        Option.getD_some]

/- A new client works where its last directory was set. -/
theorem workingDirectory_lived
    (errorText : String)
    (past : List Moment) :
    ((new errorText).lived past).process.workingDirectory =
      lastDirectory past := by
  induction past using List.reverseRecOn with
  | nil => rfl
  | append_singleton past m ih =>
      rw [lived_concat, workingDirectory_step,
        lastDirectory_concat, ih]

----
-- Greetings
----

/-
  What a greeting says about the root, the folders and the
  trace.
-/
structure Greeting where
  rootUri : Option Json
  folders : Option Json
  trace : Option Json

namespace Greeting

/- What the parameters of a greeting say. -/
def ofParams
    (params : Json) : Greeting :=
  { rootUri := params.field? "rootUri"
    folders := params.field? "workspaceFolders"
    trace := params.field? "trace" }

/- The greeting for a root, which may be missing. -/
def forRoot
    (rootPath trace : String) : Greeting :=
  if rootPath.isEmpty then
    ⟨some .null, none, some (.str trace)⟩
  else
    { rootUri := some (.str (uriOfPath rootPath))
      folders := some (.arr
        [.obj
          [("uri", .str (uriOfPath rootPath)),
            ("name", .str (Path.basename rootPath))]])
      trace := some (.str trace) }

theorem ofParams_handshakeParams
    (processId : Nat)
    (rootPath trace : String) :
    ofParams (handshakeParams processId rootPath trace) =
      forRoot rootPath trace := by
  unfold handshakeParams forRoot
  split <;> rfl

end Greeting

/- The greeting that an effect writes. -/
def greeting? : ClientEffect → Option Greeting
  | .process (.write m) =>
      if textAt m "method" = some "initialize" then
        (m.field? "params").map Greeting.ofParams
      else none
  | _ => none

/- The greetings when the process reports its start. -/
def greetings
    (c : Client)
    (env : Environment) : List Greeting :=
  ((c.step env .started).1.journal.drop c.journal.length
    ).filterMap greeting?

/-
  Until it is launched again, whatever happens, the client
  greets every backend that starts with one greeting, unless
  it cannot write.
-/
def Greets
    (c : Client)
    (g : Greeting) : Prop :=
  ∀ later now,
    (∀ m ∈ later, m.event.launches = false) →
      greetings (c.lived later) now =
        if (c.lived later).process.writeFails then [] else [g]

theorem greetings_eq
    (c : Client)
    (env : Environment) :
    greetings c env =
      if c.process.writeFails then []
      else [.forRoot c.rootPath c.trace] := by
  have hJournal : (c.step env .started).1.journal =
      c.journal ++
        ({ c.process with state := .running } : Process
          ).writing
          (Rpc.request (c.lastId + 1) "initialize"
            (handshakeParams env.processId c.rootPath
              c.trace)) :=
    congrArg journal (write_eq _ _)
  unfold greetings
  rw [hJournal, List.drop_left]
  unfold Process.writing
  rw [if_neg (by simp [Process.isAlive])]
  split
  next => rfl
  next =>
    rw [← Greeting.ofParams_handshakeParams env.processId]
    rfl

/- The greeting tells what the last launch has set. -/
theorem greets_rig
    (c : Client) :
    Greets c (.forRoot c.rootPath c.trace) := by
  intro later now hLater
  have hRig := rig_lived c hLater
  have hRoot : (c.lived later).rootPath = c.rootPath :=
    congrArg Rig.rootPath hRig
  have hTrace : (c.lived later).trace = c.trace :=
    congrArg Rig.trace hRig
  rw [greetings_eq, hRoot, hTrace]

theorem greets_launched
    (c : Client)
    (env : Environment)
    (launch : Launch) :
    Greets (c.start env launch)
      (.forRoot (rootOf env launch)
        (traceOf launch.trace)) := by
  have hRig := c.rig_start env launch
  simp only [rig, Rig.launched, Rig.mk.injEq] at hRig
  rcases hRig with ⟨-, -, -, -, hRoot, hTrace⟩
  rw [← hRoot, ← hTrace]
  exact greets_rig _

----
-- Two histories
----

/-
  After any two histories a launch runs the same program, with
  the same arguments and environment, and leads to the same
  greeting.  It runs in the same directory exactly if it has
  one that exists, or the last such directory was the same in
  both histories.
-/
theorem launches_agree_iff
    (env : Environment)
    (launch : Launch)
    (errorText otherText : String)
    (past other : List Moment) :
    let c := ((new errorText).lived past).start env launch
    let d := ((new otherText).lived other).start env launch
    (c.process.program = d.process.program ∧
        c.process.arguments = d.process.arguments ∧
        c.process.environment = d.process.environment) ∧
      (∃ g, Greets c g ∧ Greets d g) ∧
      (c.process.workingDirectory =
          d.process.workingDirectory ↔
        launchDirectory? env launch ≠ none ∨
          lastDirectory past = lastDirectory other) := by
  intro c d
  have hRig := ((new errorText).lived past).rig_start env launch
  have hOther :=
    ((new otherText).lived other).rig_start env launch
  simp only [rig, Rig.launched, Rig.mk.injEq,
    workingDirectory_lived] at hRig hOther
  rcases hRig with
    ⟨hProgram, hArguments, hEnvironment, hDirectory, -⟩
  rcases hOther with
    ⟨hProgram', hArguments', hEnvironment', hDirectory', -⟩
  refine ⟨⟨hProgram.trans hProgram'.symm,
      hArguments.trans hArguments'.symm,
      hEnvironment.trans hEnvironment'.symm⟩,
    ⟨_, greets_launched _ env launch,
      greets_launched _ env launch⟩, ?_⟩
  rw [hDirectory, hDirectory']
  cases launchDirectory? env launch with
  | none => simp
  | some path => simp

/-
  A launch without a directory runs in the one that a backend
  before it was launched in, long after that one has ended.
-/
theorem directory_outlives_session :
    let env : Environment :=
      ⟨none, 7, fun path => path == "/tmp"⟩
    let past : List Moment :=
      [⟨env, .start { Launch.default with cwd := "/tmp" }⟩,
        ⟨env, .started⟩, ⟨env, .stop⟩, ⟨env, .exited 0⟩]
    let fresh := (new "").start env .default
    let again := ((new "").lived past).start env .default
    fresh.process.workingDirectory = "" ∧
      again.process.workingDirectory = "/tmp" := by
  decide +kernel

end Client

end StyleCompanion
