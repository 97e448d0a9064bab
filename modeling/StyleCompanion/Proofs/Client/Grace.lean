import StyleCompanion.Proofs.Client.Handling
import StyleCompanion.Proofs.Client.Stopping

/-
  The timer that kills a backend.

  A stop that finds a process arms the timer.  The end of the
  process disarms it, so a launch that ends a process leaves
  no timer behind.  A process that could not be started ends
  without disarming the timer, and a backend that is launched
  then is killed for the sake of the one before it.

  Main declarations:
    * `Client.Watch`
    * `Client.watch_step`
    * `Client.LastArming`
    * `Client.Overlooks`
    * `Client.grace_ends_by_launch_iff`
    * `Client.grace_kills_later_backend`
-/

namespace StyleCompanion

namespace Client

----
-- Process and timer
----

/- Whether there is a process, and whether the timer runs. -/
structure Watch where
  alive : Bool
  armed : Bool
  deriving DecidableEq

/- The process and the timer of a client. -/
def watch
    (c : Client) : Watch :=
  ⟨c.process.isAlive, c.killTimer⟩

/- What an event does to the process and the timer. -/
def Watch.hear
    (w : Watch) : Event → Watch
  | .start _ => ⟨true, w.armed && !w.alive⟩
  | .stop => ⟨w.alive, w.armed || w.alive⟩
  | .started => ⟨true, w.armed⟩
  | .failed .failedToStart => ⟨false, w.armed⟩
  | .exited _ => ⟨false, false⟩
  | .timer => ⟨w.alive, false⟩
  | _ => w

/-
  Whether an event may bring a process to life or disarm the
  timer.
-/
def Event.stirs : Event → Bool
  | .start _ => true
  | .started => true
  | .exited _ => true
  | .timer => true
  | _ => false

/- Talking moves neither the process nor the timer. -/
theorem watch_of_backend
    {c d : Client}
    (h : d.backend = c.backend) :
    d.watch = c.watch :=
  congrArg
    (fun b : Backend => Watch.mk b.process.isAlive b.killTimer) h

section Watches

variable (c : Client)

/- The end of a process disarms the timer. -/
theorem watch_exited
    (code : Int) :
    (c.exited code).watch = ⟨false, false⟩ := by
  unfold exited onExited
  dsimp only
  split <;> rfl

theorem watch_stop :
    c.stop.watch = c.watch.hear .stop := by
  unfold stop
  cases hAlive : c.process.isAlive with
  | false => simp [watch, Watch.hear, forgetSession, hAlive]
  | true =>
      have hArmed : ∀ d : Client, d.watch = c.watch →
          d.armTimer.watch = c.watch.hear .stop := by
        intro d hSame
        have hLives : d.process.isAlive = true :=
          (congrArg Watch.alive hSame).trans hAlive
        simp [watch, Watch.hear, armTimer, hLives, hAlive]
      rw [if_neg (by simp)]
      dsimp only
      split
      · apply hArmed
        exact watch_of_backend (backend_request _ _ _ _)
      · exact hArmed _ rfl

theorem watch_graceExpired :
    c.graceExpired.watch = c.watch.hear .timer := by
  unfold graceExpired
  split
  next hOff =>
    have hDisarmed : c.killTimer = false := by simpa using hOff
    simp [watch, Watch.hear, hDisarmed]
  next =>
    dsimp only
    split <;> rfl

/- A fault disarms nothing, not even a failed start. -/
theorem watch_processFailed
    (fault : ProcessFault) :
    (c.processFailed fault).watch =
      c.watch.hear (.failed fault) := by
  unfold processFailed onProcessFault
  dsimp only
  cases fault with
  | failedToStart =>
      rw [if_neg (by simp)]
      rfl
  | _ =>
      split <;> rfl

----
-- Launches
----

/-
  A process that is alive is ended by a launch at the latest
  when it is killed, and its end disarms the timer.
-/
theorem watch_endProcess :
    c.endProcess.watch =
      ⟨false, c.killTimer && !c.process.isAlive⟩ := by
  unfold endProcess
  cases hAlive : c.process.isAlive with
  | false => simp [watch, hAlive]
  | true =>
      have hKilled : ∀ d : Client,
          (d.call .kill).waitForEnd.1.watch = ⟨false, false⟩ := by
        intro d
        have hEnds : ((d.call .kill).call (.wait exitGrace)
            ).process.endsWhenWaitedFor = true := rfl
        unfold waitForEnd
        dsimp only
        rw [if_pos hEnds]
        exact watch_exited _ _
      rw [if_neg (by simp)]
      dsimp only
      split
      next hEnded =>
        revert hEnded
        unfold waitForEnd
        dsimp only
        split
        · intro _
          simpa using watch_exited _ _
        · intro hNot
          cases hNot
      next => simpa using hKilled _

theorem watch_start
    (env : Environment)
    (launch : Launch) :
    (c.start env launch).watch =
      c.watch.hear (.start launch) := by
  have hConfigure : ∀ (d : Client) (program : String),
      (d.configure launch program).killTimer = d.killTimer := by
    intro d program
    unfold configure
    dsimp only
    split <;> rfl
  have hEnd := congrArg Watch.armed c.watch_endProcess
  unfold start
  dsimp only
  simp only [watch, call, log, emit, hConfigure,
    forgetSession, Watch.hear, Watch.mk.injEq]
  exact ⟨rfl, hEnd⟩

end Watches

/- Every event moves process and timer as said. -/
theorem watch_step
    (env : Environment)
    (c : Client)
    (e : Event) :
    (c.step env e).1.watch = c.watch.hear e := by
  cases e with
  | register method handler => rfl
  | start launch => exact c.watch_start env launch
  | stop => exact c.watch_stop
  | request method params action =>
      exact watch_of_backend
        (c.backend_request method params action)
  | notify method params =>
      exact watch_of_backend (c.backend_post _)
  | didOpen uri language text =>
      exact watch_of_backend (c.backend_didOpen uri language text)
  | didChange uri text =>
      exact watch_of_backend (c.backend_didChange uri text)
  | didClose uri =>
      exact watch_of_backend (c.backend_didClose uri)
  | message fs =>
      simp only [step, risky_fst]
      exact watch_of_backend (c.backend_handleMessage fs)
  | started =>
      change (c.started env).watch = ⟨true, c.killTimer⟩
      exact watch_of_backend (backend_request _ _ _ _)
  | failed fault => exact c.watch_processFailed fault
  | exited code => exact c.watch_exited code
  | output bs =>
      simp only [step, risky_fst, readOutput]
      rw [watch_of_backend (backend_handleAll _ _), takeBytes_eq]
      rfl
  | errors bs => exact watch_of_backend (c.backend_readErrors bs)
  | timer => exact c.watch_graceExpired
  | obey value => rfl
  | writeFails value => rfl

namespace Watch

/- Only a stop that finds a process arms the timer. -/
theorem armed_of_hear
    {w : Watch}
    {e : Event}
    (h : (w.hear e).armed = true) :
    w.armed = true ∨ e = .stop ∧ w.alive = true := by
  cases e with
  | start launch =>
      have hBoth : (w.armed && !w.alive) = true := h
      simp only [Bool.and_eq_true] at hBoth
      exact .inl hBoth.1
  | stop =>
      have hEither : (w.armed || w.alive) = true := h
      simp only [Bool.or_eq_true] at hEither
      exact hEither.imp_right fun hAlive => ⟨rfl, hAlive⟩
  | failed fault => cases fault <;> exact .inl h
  | exited code => cases h
  | timer => cases h
  | _ => exact .inl h

/-
  Only a failed start leaves a timer without a process, and
  only what does not stir leaves it that way.
-/
theorem deserted_of_hear
    {w : Watch}
    {e : Event}
    (h : w.hear e = ⟨false, true⟩) :
    w.armed = true ∧
      (e = .failed .failedToStart ∨
        w = ⟨false, true⟩ ∧ e.stirs = false) := by
  cases e with
  | start launch => cases congrArg alive h
  | stop =>
      have hAlive : w.alive = false := congrArg alive h
      have hEither : (w.armed || w.alive) = true :=
        congrArg armed h
      rw [hAlive, Bool.or_false] at hEither
      refine ⟨hEither, .inr ⟨?_, rfl⟩⟩
      rw [← hAlive, ← hEither]
  | started => cases congrArg alive h
  | failed fault =>
      have hArmed : w.armed = true := by
        cases fault <;> exact congrArg armed h
      cases fault with
      | failedToStart => exact ⟨hArmed, .inl rfl⟩
      | _ => exact ⟨hArmed, .inr ⟨h, rfl⟩⟩
  | exited code => cases congrArg armed h
  | timer => cases congrArg armed h
  | _ => exact ⟨congrArg armed h, .inr ⟨h, rfl⟩⟩

/- What does not stir leaves a timer without a process. -/
theorem hear_deserted
    {e : Event}
    (h : e.stirs = false) :
    hear ⟨false, true⟩ e = ⟨false, true⟩ := by
  cases e with
  | failed fault => cases fault <;> rfl
  | start launch => cases h
  | started => cases h
  | exited code => cases h
  | timer => cases h
  | _ => rfl

end Watch

----
-- Runs
----

/- The last event of a run. -/
theorem watch_concat
    (env : Environment)
    (c : Client)
    (events : List Event)
    (e : Event) :
    (run env c (events ++ [e])).watch =
      (run env c events).watch.hear e := by
  rw [run_append]
  exact watch_step env _ e

/-
  The stop between two lists of events found a process, and
  no stop since then did: if the timer runs, that stop has
  armed it.
-/
structure LastArming
    (env : Environment)
    (c : Client)
    (before after : List Event) : Prop where
  found : (run env c before).process.isAlive = true
  last : ∀ mid, mid ++ [.stop] <+: after →
    (run env c (before ++ .stop :: mid)).process.isAlive =
      false

namespace LastArming

variable {env : Environment} {c : Client}
variable {before after : List Event}

/- The stop is followed by nothing yet. -/
theorem nil
    (h : (run env c before).process.isAlive = true) :
    LastArming env c before [] := by
  refine ⟨h, ?_⟩
  intro mid hPrefix
  simp at hPrefix

/- One more event follows. -/
theorem concat
    (h : LastArming env c before after)
    {e : Event}
    (hStop : e = .stop →
      (run env c (before ++ .stop :: after)
        ).process.isAlive = false) :
    LastArming env c before (after ++ [e]) := by
  refine ⟨h.found, ?_⟩
  intro mid hPrefix
  rcases List.prefix_concat_iff.mp hPrefix with hWhole | hPart
  · rcases List.append_inj' hWhole rfl with ⟨hMid, hLast⟩
    rw [hMid]
    exact hStop (List.singleton_inj.mp hLast).symm
  · exact h.last mid hPart

/- One event less follows. -/
theorem of_concat
    {e : Event}
    (h : LastArming env c before (after ++ [e])) :
    LastArming env c before after :=
  ⟨h.found, fun mid hPrefix =>
    h.last mid (hPrefix.trans (List.prefix_append _ _))⟩

/- A timer that runs in the end has run since the stop. -/
theorem armed_of_prefix
    (h : LastArming env c before after)
    (hArmed : (run env c (before ++ .stop :: after)
      ).killTimer = true)
    {mid : List Event}
    (hMid : mid <+: after) :
    (run env c (before ++ .stop :: mid)).killTimer = true := by
  induction after using List.reverseRecOn with
  | nil =>
      rw [List.prefix_nil.mp hMid]
      exact hArmed
  | append_singleton after e ih =>
      rcases List.prefix_concat_iff.mp hMid with rfl | hPart
      · exact hArmed
      · have hStep := watch_concat env c
          (before ++ .stop :: after) e
        rw [List.append_assoc, List.cons_append] at hStep
        have hLast : ((run env c (before ++ .stop :: after)
            ).watch.hear e).armed = true := by
          rw [← hStep]
          exact hArmed
        refine ih h.of_concat ?_ hPart
        rcases Watch.armed_of_hear hLast with hOld | ⟨rfl, hFound⟩
        · exact hOld
        · have hNone := h.last after List.prefix_rfl
          have hSome : (run env c (before ++ .stop :: after)
              ).process.isAlive = true := hFound
          rw [hNone] at hSome
          cases hSome

end LastArming

section Runs

variable {env : Environment} {c : Client}
variable {events : List Event}

/- A timer that runs was armed by a stop of the run. -/
theorem exists_lastArming
    (hNew : c.killTimer = false)
    (h : (run env c events).killTimer = true) :
    ∃ before after, events = before ++ .stop :: after ∧
      LastArming env c before after := by
  induction events using List.reverseRecOn with
  | nil =>
      change c.killTimer = true at h
      rw [hNew] at h
      cases h
  | append_singleton events e ih =>
      have hStep := watch_concat env c events e
      have hArmed : ((run env c events).watch.hear e).armed =
          true := by
        rw [← hStep]
        exact h
      by_cases hFinds : e = .stop ∧
          (run env c events).process.isAlive = true
      · rcases hFinds with ⟨rfl, hAlive⟩
        exact ⟨events, [], rfl, .nil hAlive⟩
      · have hOld : (run env c events).killTimer = true :=
          (Watch.armed_of_hear hArmed).resolve_right hFinds
        rcases ih hOld with ⟨before, after, rfl, hLast⟩
        refine ⟨before, after ++ [e], by simp, ?_⟩
        apply hLast.concat
        intro hStop
        exact Bool.eq_false_iff.mpr fun hAlive =>
          hFinds ⟨hStop, hAlive⟩

/- A timer runs without a process since a failed start. -/
theorem exists_failure_of_deserted
    (hNew : c.killTimer = false)
    (h : (run env c events).watch = ⟨false, true⟩) :
    ∃ before mid,
      events = before ++ .failed .failedToStart :: mid ∧
        (run env c before).killTimer = true ∧
        ∀ e ∈ mid, e.stirs = false := by
  induction events using List.reverseRecOn with
  | nil =>
      have hArmed : c.killTimer = true := congrArg Watch.armed h
      rw [hNew] at hArmed
      cases hArmed
  | append_singleton events e ih =>
      rw [watch_concat] at h
      rcases Watch.deserted_of_hear h with
        ⟨hArmed, rfl | ⟨hSame, hStirs⟩⟩
      · exact ⟨events, [], rfl, hArmed, by simp⟩
      · rcases ih hSame with ⟨before, mid, rfl, hOld, hMid⟩
        refine ⟨before, mid ++ [e], by simp, hOld, ?_⟩
        intro x hx
        rcases List.mem_append.mp hx with hIn | hEnd
        · exact hMid x hIn
        · rw [List.mem_singleton.mp hEnd]
          exact hStirs

/- A timer without a process is kept by what does not stir. -/
theorem watch_run_deserted
    (h : (run env c events).watch = ⟨false, true⟩)
    {more : List Event}
    (hMore : ∀ e ∈ more, e.stirs = false) :
    (run env c (events ++ more)).watch = ⟨false, true⟩ := by
  induction more using List.reverseRecOn with
  | nil => simpa using h
  | append_singleton more e ih =>
      have hSame := ih fun x hx => hMore x (by simp [hx])
      rw [← List.append_assoc, watch_concat, hSame]
      exact Watch.hear_deserted (hMore e (by simp))

end Runs

/-
  A start fails while the timer runs, and the backend is
  launched again before the timer runs out or anything else
  is heard of the process.
-/
def Overlooks
    (env : Environment)
    (c : Client)
    (events : List Event) : Prop :=
  ∃ before mid launch rest,
    events = before ++ .failed .failedToStart ::
        (mid ++ .start launch :: rest) ∧
      (run env c before).killTimer = true ∧
      ∀ e ∈ mid, e.stirs = false

/-
  The timer was armed by a stop since the last launch, so it
  is meant for the process that was launched last.
-/
def ArmedSinceLaunch
    (env : Environment)
    (c : Client)
    (events : List Event) : Prop :=
  ∃ before after, events = before ++ .stop :: after ∧
    LastArming env c before after ∧
    ∀ e ∈ after, e.launches = false

/- The end of the timer would kill the process. -/
def ExpiryKills
    (env : Environment)
    (c : Client) : Prop :=
  ∃ es, (c.step env .timer).1.journal = c.journal ++ es ∧
    .process .kill ∈ es

/- A timer that runs out kills the process there is. -/
theorem expiryKills_iff
    (env : Environment)
    (c : Client) :
    ExpiryKills env c ↔ c.watch = ⟨true, true⟩ := by
  have hJournal : (c.step env .timer).1.journal =
      c.journal ++
        if c.watch = ⟨true, true⟩ then
          [.log
              (.warning
                "Backend ignored shutdown; killing it"),
            .process .kill]
        else [] := by
    change c.graceExpired.journal = _
    unfold graceExpired watch
    cases hArmed : c.killTimer with
    | false => simp
    | true =>
        cases hAlive : c.process.isAlive with
        | false => simp [hAlive]
        | true => simp [hAlive, log, emit, call]
  unfold ExpiryKills
  rw [hJournal]
  constructor
  · rintro ⟨es, hSame, hKill⟩
    rw [← List.append_cancel_left hSame] at hKill
    split at hKill
    · assumption
    · cases hKill
  · intro hBoth
    exact ⟨_, rfl, by simp [hBoth]⟩

section Grace

variable {env : Environment} {c : Client}
variable {events : List Event}

/-
  A launch that keeps the timer finds it without a process,
  as a failed start has left it.
-/
theorem armedSinceLaunch_of_armed
    (hNew : c.killTimer = false)
    (hArmed : (run env c events).killTimer = true)
    (h : ¬ Overlooks env c events) :
    ArmedSinceLaunch env c events := by
  rcases exists_lastArming hNew hArmed with
    ⟨before, after, rfl, hLast⟩
  refine ⟨before, after, rfl, hLast, ?_⟩
  intro e he
  cases e with
  | start launch =>
      rcases List.append_of_mem he with ⟨first, rest, rfl⟩
      have hPart : first ++ [.start launch] <+:
          first ++ .start launch :: rest :=
        ⟨rest, by simp⟩
      have hKept := hLast.armed_of_prefix hArmed hPart
      have hStep := watch_concat env c
        (before ++ .stop :: first) (.start launch)
      rw [List.append_assoc, List.cons_append] at hStep
      have hBoth : ((run env c (before ++ .stop :: first)
          ).killTimer && !(run env c (before ++ .stop :: first)
            ).process.isAlive) = true := by
        refine (congrArg Watch.armed hStep).symm.trans hKept
      simp only [Bool.and_eq_true, Bool.not_eq_true'] at hBoth
      have hDeserted :
          (run env c (before ++ .stop :: first)).watch =
            ⟨false, true⟩ := by
        rw [watch, hBoth.1, hBoth.2]
      rcases exists_failure_of_deserted hNew hDeserted with
        ⟨past, mid, hPast, hOld, hMid⟩
      refine absurd ⟨past, mid, launch, rest, ?_, hOld, hMid⟩ h
      rw [← List.cons_append, ← List.append_assoc, hPast]
      simp
  | _ => rfl

/- No stop stands between a launch and the end of the run. -/
theorem not_armedSinceLaunch_launch
    (launch : Launch) :
    ¬ ArmedSinceLaunch env c (events ++ [.start launch]) := by
  rintro ⟨first, after, hSplit, -, hAfter⟩
  cases after using List.reverseRecOn with
  | nil =>
      have hLast := (List.append_inj' hSplit rfl).2
      cases hLast
  | append_singleton after e =>
      rw [← List.cons_append, ← List.append_assoc] at hSplit
      have hLast := (List.append_inj' hSplit rfl).2
      have hNone := hAfter e (by simp)
      rw [← List.singleton_inj.mp hLast] at hNone
      cases hNone

/- What was overlooked stays so, whatever follows. -/
theorem Overlooks.of_prefix
    {past : List Event}
    (h : Overlooks env c past)
    (hPast : past <+: events) :
    Overlooks env c events := by
  rcases h with ⟨before, mid, launch, rest, rfl, hArmed, hMid⟩
  rcases hPast with ⟨more, rfl⟩
  exact ⟨before, mid, launch, rest ++ more, by simp, hArmed,
    hMid⟩

/- A failed start that is overlooked costs the next backend. -/
theorem exists_of_overlooks
    (h : Overlooks env c events) :
    ∃ past, past <+: events ∧
      (run env c past).watch = ⟨true, true⟩ ∧
      ¬ ArmedSinceLaunch env c past := by
  rcases h with
    ⟨before, mid, launch, rest, rfl, hArmed, hMid⟩
  let failed : List Event :=
    before ++ [.failed .failedToStart] ++ mid
  have hFailed : (run env c failed).watch = ⟨false, true⟩ := by
    apply watch_run_deserted _ hMid
    rw [watch_concat]
    exact congrArg (Watch.mk false) hArmed
  have hLaunched :
      (run env c (failed ++ [.start launch])).watch =
        ⟨true, true⟩ := by
    rw [watch_concat, hFailed]
    rfl
  exact ⟨_, ⟨rest, by simp [failed]⟩, hLaunched,
    not_armedSinceLaunch_launch launch⟩

end Grace

/-
  In every state of a run a timer that runs was armed since
  the last launch, exactly if no launch follows a failed start
  that the timer outlived.  The same decides whether the timer
  would ever kill a backend other than the one that it was
  armed for.
-/
theorem grace_ends_by_launch_iff
    (env : Environment)
    (errorText : String)
    (events : List Event) :
    ((∀ past, past <+: events →
        (run env (.new errorText) past).killTimer = true →
          ArmedSinceLaunch env (.new errorText) past) ↔
      ¬ Overlooks env (.new errorText) events) ∧
    ((∀ past, past <+: events →
        ExpiryKills env (run env (.new errorText) past) →
          ArmedSinceLaunch env (.new errorText) past) ↔
      ¬ Overlooks env (.new errorText) events) := by
  have hTimely : ¬ Overlooks env (.new errorText) events →
      ∀ past, past <+: events →
        (run env (.new errorText) past).killTimer = true →
          ArmedSinceLaunch env (.new errorText) past := by
    intro hNone past hPast hArmed
    exact armedSinceLaunch_of_armed rfl hArmed
      fun hSome => hNone (hSome.of_prefix hPast)
  refine ⟨⟨?_, hTimely⟩, ⟨?_, ?_⟩⟩
  · intro hAll hSome
    rcases exists_of_overlooks hSome with
      ⟨past, hPast, hWatch, hLate⟩
    exact hLate (hAll past hPast (congrArg Watch.armed hWatch))
  · intro hAll hSome
    rcases exists_of_overlooks hSome with
      ⟨past, hPast, hWatch, hLate⟩
    exact hLate (hAll past hPast
      ((expiryKills_iff env _).mpr hWatch))
  · intro hNone past hPast hKills
    have hWatch := (expiryKills_iff env _).mp hKills
    exact hTimely hNone past hPast
      (congrArg Watch.armed hWatch)

/-
  A backend that could not be started was told to stop before
  that was known.  The next backend is launched within the
  time, and killed when it is over.
-/
theorem grace_kills_later_backend :
    let env : Environment := ⟨none, 7, fun _ => false⟩
    let events : List Event :=
      [.start .default, .stop, .failed .failedToStart,
        .start .default]
    (run env (.new "") events).killTimer = true ∧
      ExpiryKills env (run env (.new "") events) ∧
      ¬ ArmedSinceLaunch env (.new "") events := by
  intro env events
  have hArmed :
      (run env (.new "") events).killTimer = true := by
    decide +kernel
  have hKills : ExpiryKills env (run env (.new "") events) := by
    rw [expiryKills_iff]
    decide +kernel
  have hLaunched : events =
      [.start .default, .stop, .failed .failedToStart] ++
        [.start .default] :=
    rfl
  refine ⟨hArmed, hKills, ?_⟩
  rw [hLaunched]
  exact not_armedSinceLaunch_launch .default

end Client

end StyleCompanion
