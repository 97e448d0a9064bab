import StyleCompanion.Rpc.Message

/-
  The process that runs the backend.

  A process is configured, started, and asked to end.  It
  keeps its configuration when it is started again.  Being
  asked to terminate, it may or may not obey; being killed, it
  always ends.

  Key definitions include:
    * `Process`
    * `ProcessCall`
    * `Process.endsWhenWaitedFor`
-/

namespace StyleCompanion

/- Whether a process runs. -/
inductive ProcessState where
  | notRunning
  | starting
  | running
  deriving DecidableEq, Repr

/- How a process was last asked to end. -/
inductive EndRequest where
  | terminate
  | kill
  deriving DecidableEq, Repr

/- What can go wrong with a process. -/
inductive ProcessFault where
  | failedToStart
  | crashed
  | timedOut
  | readError
  | writeError
  | unknown
  deriving DecidableEq, Repr

/- What is asked of a process. -/
inductive ProcessCall where
  | environment (pairs : List (String × String))
  | program (path : String)
  | arguments (args : List String)
  | workingDirectory (path : String)
  | start
  | terminate
  | kill
  | wait (milliseconds : Nat)
  | write (message : Json)

/- A process with its configuration. -/
structure Process where
  state : ProcessState
  asked : Option EndRequest
  obeys : Bool
  writeFails : Bool
  environment : List (String × String)
  program : String
  arguments : List String
  workingDirectory : String
  errorText : String
  deriving DecidableEq, Repr

namespace Process

/-
  A process before its first start, with what it will say
  about a fault.
-/
def new
    (errorText : String) : Process :=
  { state := .notRunning
    asked := none
    obeys := true
    writeFails := false
    environment := []
    program := ""
    arguments := []
    workingDirectory := ""
    errorText := errorText }

/- Whether a process has been started and has not ended. -/
def isAlive
    (p : Process) : Bool :=
  p.state != .notRunning

/- Whether a process ends when it is waited for. -/
def endsWhenWaitedFor
    (p : Process) : Bool :=
  match p.asked with
  | none => false
  | some .terminate => p.obeys
  | some .kill => true

/- The process after its end. -/
def ended
    (p : Process) : Process :=
  { p with state := .notRunning, asked := none }

/- The effect of a call on the process. -/
def apply
    (p : Process)
    (call : ProcessCall) : Process :=
  match call with
  | .environment pairs => { p with environment := pairs }
  | .program path => { p with program := path }
  | .arguments args => { p with arguments := args }
  | .workingDirectory path =>
      { p with workingDirectory := path }
  | .start => { p with state := .starting }
  | .terminate => { p with asked := some .terminate }
  | .kill => { p with asked := some .kill }
  | .wait _ => p
  | .write _ => p

end Process

end StyleCompanion
