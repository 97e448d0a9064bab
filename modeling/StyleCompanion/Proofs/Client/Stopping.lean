import StyleCompanion.Proofs.Client.Ledger

/-
  A client that is stopping.

  Once it was told to stop, a client that is not started again
  winds down: whatever arrives, it stays stopping or stopped
  and writes no more than `shutdown`, `exit` and replies.  One
  signal breaks this.  A process that was still starting when
  it was asked to end may report that it has started, and that
  report begins a handshake in any state.

  Main declarations:
    * `ClientState.isWinding`
    * `Client.isFarewell`
    * `Client.OnlyFarewells`
    * `Client.WindsDown`
    * `Client.winding_down_ends_with_started`
    * `Client.started_revives_stopping`
-/

namespace StyleCompanion

/- Whether the client has been told to stop. -/
def ClientState.isWinding : ClientState → Bool
  | .stopping => true
  | .stopped => true
  | _ => false

namespace Client

/- Whether a message belongs to a client that winds down. -/
def isFarewell
    (m : Json) : Bool :=
  isReply m || textAt m "method" == some "shutdown" ||
    textAt m "method" == some "exit"

/- The messages that were written. -/
def written
    (c : Client) : List Json :=
  c.journal.filterMap written?

/- Whether the owner greets the backend on its own. -/
def Event.greets : Event → Bool
  | .request method _ _ => method == "initialize"
  | _ => false

/- Only farewells were written from one client to another. -/
def OnlyFarewells
    (b c : Client) : Prop :=
  ∃ ms, c.written = b.written ++ ms ∧
    ∀ m ∈ ms, isFarewell m = true

/- A client has come to wind down, with farewells only. -/
structure WindsDown
    (b c : Client) : Prop where
  state : c.state.isWinding = true
  writes : OnlyFarewells b c

namespace WindsDown

variable {b c d : Client}

/- Nothing more was written. -/
theorem of_onlyFarewells
    (h : OnlyFarewells b c)
    (hState : d.state.isWinding = true)
    (hWritten : d.written = c.written) :
    WindsDown b d := by
  refine ⟨hState, ?_⟩
  rw [OnlyFarewells, hWritten]
  exact h

theorem silent
    (h : WindsDown b c)
    (hState : d.state.isWinding = true)
    (hWritten : d.written = c.written) :
    WindsDown b d :=
  of_onlyFarewells h.writes hState hWritten

----
-- Operations
----

theorem emit
    (h : WindsDown b c)
    {e : ClientEffect}
    (hWritten : written? e = none) :
    WindsDown b (c.emit e) := by
  refine h.silent h.state ?_
  simp [written, Client.emit, hWritten]

theorem log
    (h : WindsDown b c)
    (r : LogRecord) :
    WindsDown b (c.log r) :=
  h.emit rfl

theorem signal
    (h : WindsDown b c)
    (s : Signal) :
    WindsDown b (c.signal s) :=
  h.emit rfl

theorem signals
    (h : WindsDown b c)
    (ss : List Signal) :
    WindsDown b (ss.foldl Client.signal c) := by
  induction ss generalizing c with
  | nil => exact h
  | cons s ss ih => exact ih (h.signal s)

theorem call
    (h : WindsDown b c)
    {p : ProcessCall}
    (hWritten : written? (.process p) = none) :
    WindsDown b (c.call p) := by
  refine h.silent h.state ?_
  simp [written, Client.call, hWritten]

theorem write
    (h : WindsDown b c)
    {m : Json}
    (hFarewell : isFarewell m = true) :
    WindsDown b (c.write m) := by
  unfold Client.write
  split
  · exact h
  · split
    · exact h.signal _
    · apply log
      rcases h.writes with ⟨ms, hMs, hAll⟩
      refine ⟨h.state, ms ++ [m], ?_, ?_⟩
      · rw [← List.append_assoc, ← hMs]
        simp [written, Client.call, written?]
      · intro x hx
        rcases List.mem_append.mp hx with hOld | hNew
        · exact hAll x hOld
        · rw [List.mem_singleton.mp hNew]
          exact hFarewell

/- Nothing is posted in these phases. -/
theorem post
    (h : WindsDown b c)
    (m : Json) :
    WindsDown b (c.post m) := by
  have hState := h.state
  unfold Client.post
  cases hPhase : c.state with
  | stopped => exact h
  | stopping => exact h
  | _ =>
      rw [hPhase] at hState
      cases hState

/- Of requests, only those of the session's life go out. -/
theorem request
    (h : WindsDown b c)
    {method : String}
    (hMethod : method ≠ "initialize")
    (params : Json)
    (action : ReplyAction) :
    WindsDown b (c.request method params action).1 := by
  have hRefuses : c.state.isAccepting = false := by
    have hState := h.state
    cases hPhase : c.state with
    | stopped => rfl
    | stopping => rfl
    | _ =>
        rw [hPhase] at hState
        cases hState
  unfold Client.request
  by_cases hShutdown : method = "shutdown"
  · subst hShutdown
    apply write _ rfl
    exact h.silent h.state rfl
  · rw [if_pos (by simp [isLifecycle, hMethod, hShutdown,
      hRefuses])]
    unfold refuseRequest
    dsimp only
    split
    · exact (h.log _).signal _
    · exact h.log _

/- Versions are kept, but no document is told about. -/
theorem report
    (h : WindsDown b c)
    (versions : Table String Nat)
    (method : String)
    (params : Json) :
    WindsDown b
      (({ c with versions := versions } : Client).notify
        method params) := by
  apply post
  exact h.silent h.state rfl

theorem didChange
    (h : WindsDown b c)
    (uri text : String) :
    WindsDown b (c.didChange uri text).1 := by
  unfold Client.didChange
  split
  · exact h
  · exact h.report _ _ _

theorem didOpen
    (h : WindsDown b c)
    (uri language text : String) :
    WindsDown b (c.didOpen uri language text).1 := by
  unfold Client.didOpen
  split
  · exact h
  · split
    · exact h.didChange uri text
    · exact h.report _ _ _

theorem didClose
    (h : WindsDown b c)
    (uri : String) :
    WindsDown b (c.didClose uri) := by
  unfold Client.didClose
  split
  · exact h.report _ _ _
  · exact h

theorem exited
    (h : WindsDown b c)
    (code : Int) :
    WindsDown b (c.exited code) := by
  let ended : Client :=
    ({ c with
      process := c.process.ended
      killTimer := false
      state := .stopped } : Client).forgetSession
  have hEnded : WindsDown b ended := h.silent rfl rfl
  unfold Client.exited onExited
  dsimp only
  split
  · exact hEnded.log _
  · exact (hEnded.log _).signal _

theorem processFailed
    (h : WindsDown b c)
    (fault : ProcessFault) :
    WindsDown b (c.processFailed fault) := by
  unfold Client.processFailed onProcessFault
  dsimp only
  split
  · exact h.silent h.state rfl
  · apply signal
    apply log
    split
    · exact h.silent rfl rfl
    · exact h.silent h.state rfl

/- Told to stop, a client winds down from any phase. -/
theorem of_stop
    (h : OnlyFarewells b c)
    (hState : c.stop.state.isWinding = true) :
    WindsDown b c.stop := by
  revert hState
  unfold Client.stop
  split
  · intro hState
    exact of_onlyFarewells h hState rfl
  · intro _
    have hStopping :
        WindsDown b { c with state := .stopping } :=
      of_onlyFarewells h rfl rfl
    dsimp only
    split
    · have hAsked :
          WindsDown b (Client.request
            { c with state := .stopping } "shutdown" .null
            .sendExit).1 :=
        hStopping.request (by decide) .null .sendExit
      exact hAsked.silent hAsked.state rfl
    · have hAsked := hStopping.call (p := .terminate) rfl
      exact hAsked.silent hAsked.state rfl

theorem stop
    (h : WindsDown b c) :
    WindsDown b c.stop := by
  apply of_stop h.writes
  have hState : c.stop.state = _ :=
    congrArg Ledger.state (ledger_stop [] c)
  rw [hState]
  split
  · rfl
  · exact h.state

theorem graceExpired
    (h : WindsDown b c) :
    WindsDown b c.graceExpired := by
  have hDisarmed : WindsDown b { c with killTimer := false } :=
    h.silent h.state rfl
  unfold Client.graceExpired
  split
  · exact h
  · dsimp only
    split
    · exact (hDisarmed.log _).call rfl
    · exact hDisarmed

----
-- Messages of the backend
----

theorem reply
    (h : WindsDown b c)
    (id : Json)
    (method : String)
    (outcome : Outcome Json) :
    WindsDown b (c.reply id method outcome) := by
  unfold Client.reply
  split
  · exact h.write rfl
  · exact (h.log _).write rfl
  · exact (h.log _).write rfl

theorem answerCall
    (h : WindsDown b c)
    (id : Json)
    (method : String)
    (params : Json) :
    WindsDown b (c.answerCall id method params) := by
  unfold Client.answerCall
  split
  · exact h.write rfl
  · exact (h.signals _).reply _ _ _

theorem onNotification
    (h : WindsDown b c)
    (method : String)
    (params : Json) :
    WindsDown b (c.onNotification method params) := by
  unfold Client.onNotification
  dsimp only
  split
  · exact h.signal _
  · exact ((h.log _).signal _).signal _

/- A greeting that is accepted too late opens nothing. -/
theorem callBack
    (h : WindsDown b c)
    (action : ReplyAction)
    (v : Except Json Json) :
    WindsDown b (c.callBack action v) := by
  cases action with
  | ignore => cases v <;> exact h
  | report tag => cases v <;> exact h.signal _
  | sendExit => cases v <;> exact h.write rfl
  | finishHandshake =>
      cases v with
      | error value => exact (h.log _).signal _
      | ok value =>
          have hLate : c.state ≠ .initializing := by
            intro hPhase
            have hState := h.state
            rw [hPhase] at hState
            cases hState
          change WindsDown b c.onInitialized
          rw [onInitialized, if_pos hLate]
          exact h

theorem resolve
    (h : WindsDown b c)
    (fs : Table String Json) :
    WindsDown b (c.resolve fs).1 := by
  by_cases hFor : ∃ n a,
      c.awaitingFor (Json.pick fs ["id"]) = .ok (some (n, a))
  · rcases hFor with ⟨n, a, hFor⟩
    rw [resolve_found hFor]
    apply callBack
    exact h.silent h.state rfl
  · have hNone : ∀ n a,
        c.awaitingFor (Json.pick fs ["id"]) ≠
          .ok (some (n, a)) := by
      intro n a hEq
      exact hFor ⟨n, a, hEq⟩
    rcases resolve_unknown hNone with hSame | ⟨text, hLog⟩
    · rw [hSame]
      exact h
    · rw [hLog]
      exact h.log _

theorem handleMessage
    (h : WindsDown b c)
    (fs : Table String Json) :
    WindsDown b (c.handleMessage fs).1 := by
  unfold Client.handleMessage
  cases classify fs with
  | reply => exact h.resolve fs
  | call id method params => exact h.answerCall id method params
  | notice method params => exact h.onNotification method params
  | nothing => exact h

theorem handleAll
    (h : WindsDown b c)
    (ms : List (Table String Json)) :
    WindsDown b (c.handleAll ms).1 := by
  induction ms generalizing c with
  | nil => exact h
  | cons fs ms ih =>
      have hFirst := h.handleMessage fs
      unfold Client.handleAll
      rcases hHandled : c.handleMessage fs with ⟨c₁, failure⟩
      rw [hHandled] at hFirst
      cases failure with
      | some e => exact hFirst
      | none => exact ih hFirst

theorem takeBytes
    (h : WindsDown b c)
    (bs : List UInt8) :
    WindsDown b (c.takeBytes bs).1 := by
  have hLogs : ∀ (fs : List Rpc.FrameFault) (c : Client),
      WindsDown b c →
        WindsDown b
          (fs.foldl (fun c f => c.log (.warning f.message))
            c) := by
    intro fs
    induction fs with
    | nil => exact fun _ h => h
    | cons f fs ih => exact fun c h => ih _ (h.log _)
  apply hLogs
  exact h.silent h.state rfl

theorem readErrors
    (h : WindsDown b c)
    (bs : List UInt8) :
    WindsDown b (c.readErrors bs) := by
  unfold Client.readErrors
  dsimp only
  split
  · exact h
  · exact h.log _

----
-- Runs
----

/- Only a launch and a report of a start are left out. -/
theorem step
    (h : WindsDown b c)
    (env : Environment)
    {e : Event}
    (hLaunch : e.launches = false)
    (hGreets : e.greets = false)
    (hStarted : e ≠ .started) :
    WindsDown b (c.step env e).1 := by
  cases e with
  | start launch => cases hLaunch
  | started => exact absurd rfl hStarted
  | register method handler => exact h.silent h.state rfl
  | stop => exact h.stop
  | request method params action =>
      exact h.request
        (by simpa [Event.greets] using hGreets) params action
  | notify method params => exact h.post _
  | didOpen uri language text =>
      exact h.didOpen uri language text
  | didChange uri text => exact h.didChange uri text
  | didClose uri => exact h.didClose uri
  | message fs =>
      simp only [Client.step, risky_fst]
      exact h.handleMessage fs
  | failed fault => exact h.processFailed fault
  | exited code => exact h.exited code
  | output bs =>
      simp only [Client.step, risky_fst, readOutput]
      exact (h.takeBytes bs).handleAll _
  | errors bs => exact h.readErrors bs
  | timer => exact h.graceExpired
  | obey value => exact h.silent h.state rfl
  | writeFails value => exact h.silent h.state rfl

theorem run
    (h : WindsDown b c)
    (env : Environment)
    {events : List Event}
    (hOwner : ∀ e ∈ events,
      e.launches = false ∧ e.greets = false)
    (hStarted : .started ∉ events) :
    WindsDown b (Client.run env c events) := by
  induction events generalizing c with
  | nil => exact h
  | cons e events ih =>
      rcases hOwner e List.mem_cons_self with
        ⟨hLaunch, hGreets⟩
      have hOther : e ≠ .started := by
        rintro rfl
        exact hStarted List.mem_cons_self
      exact ih (h.step env hLaunch hGreets hOther)
        (fun x hx => hOwner x (List.mem_cons_of_mem _ hx))
        (fun hx => hStarted (List.mem_cons_of_mem _ hx))

end WindsDown

/- A report of the start begins a handshake in any state. -/
theorem started_state
    (c : Client)
    (env : Environment) :
    (c.started env).state = .initializing :=
  congrArg Ledger.state (ledger_started [] c env)

theorem run_append
    (env : Environment)
    (c : Client)
    (before after : List Event) :
    run env c (before ++ after) =
      run env (run env c before) after :=
  List.foldl_append

/-
  A client that was told to stop, and is neither started again
  nor made to greet by its owner, stays stopping or stopped
  for good exactly if its process does not report a start.
  Until it does, only `shutdown`, `exit` and replies are
  written.
-/
theorem winding_down_ends_with_started
    (env : Environment)
    (c : Client)
    (events : List Event)
    (hStop : (c.step env .stop).1.state = .stopping)
    (hOwner : ∀ e ∈ events,
      e.launches = false ∧ e.greets = false) :
    ((∀ k, (run env c (.stop :: events.take k)
        ).state.isWinding = true) ↔
      .started ∉ events) ∧
    ∀ k, .started ∉ events.take k →
      OnlyFarewells c
        (run env c (.stop :: events.take k)) := by
  have hWinds : c.stop.state.isWinding = true := by
    rw [show c.stop.state = .stopping from hStop]
    rfl
  have hNothing : OnlyFarewells c c := by
    refine ⟨[], by simp, ?_⟩
    intro m hm
    cases hm
  have hStopped := WindsDown.of_stop hNothing hWinds
  have hRun : ∀ k, .started ∉ events.take k →
      WindsDown c (run env c (.stop :: events.take k)) := by
    intro k hStarted
    refine hStopped.run env ?_ hStarted
    intro e he
    exact hOwner e (List.mem_of_mem_take he)
  refine ⟨⟨?_, ?_⟩, fun k hStarted => (hRun k hStarted).writes⟩
  · intro hWinding hStarted
    rcases List.append_of_mem hStarted with
      ⟨before, after, hEvents⟩
    have hTake : events.take (before.length + 1) =
        before ++ [.started] := by
      rw [hEvents, List.take_length_add_append]
      rfl
    have hLast := hWinding (before.length + 1)
    rw [hTake, ← List.cons_append, run_append] at hLast
    change ((run env c (.stop :: before)).started env
      ).state.isWinding = true at hLast
    rw [started_state] at hLast
    cases hLast
  · intro hStarted k
    exact (hRun k
      (fun h => hStarted (List.mem_of_mem_take h))).state

/- A backend that is shut down while a request comes in. -/
theorem winding_down_ends_with_started_shutdown :
    let env : Environment := ⟨none, 7, fun _ => false⟩
    let ready := run env (.new "")
      [.start .default, .started,
        .message [("id", .int 1), ("result", .null)]]
    let events : List Event :=
      [.didOpen "a" "" "",
        .message [("id", .int 5), ("method", .str "m")],
        .message [("id", .int 2), ("result", .null)],
        .exited 0]
    ready.state = .ready ∧
      (ready.step env .stop).1.state = .stopping ∧
      ∀ k, (run env ready (.stop :: events.take k)
        ).state.isWinding = true := by
  intro env ready events
  have hReady : ready.state = .ready := by decide +kernel
  have hStop : (ready.step env .stop).1.state = .stopping := by
    decide +kernel
  have hLasts := winding_down_ends_with_started env ready events
    hStop (by decide)
  exact ⟨hReady, hStop, hLasts.1.mpr (by simp [events])⟩

/-
  A client that is stopped while its process starts greets the
  backend when the process reports its start.
-/
theorem started_revives_stopping :
    let env : Environment := ⟨none, 7, fun _ => false⟩
    let stopping := run env (.new "") [.start .default, .stop]
    let revived := (stopping.step env .started).1
    stopping.state = .stopping ∧
      revived.state = .initializing ∧
      revived.written.map (textAt · "method") =
        [some "initialize"] := by
  decide +kernel

end Client

end StyleCompanion
