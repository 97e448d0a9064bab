import StyleCompanion.Proofs.Application.Reach

/-
  The openings that wait, and their ends.

  The pairing notes down every opening that it begins, and the
  desktop lets the opening wait for its turn.  As long as both
  go together no primary waits in vain.  They come apart at
  one place only.  A file that cannot be decoded ends its
  opening without a word to the pairing, and the primary goes
  on waiting.

  Main declarations:
    * `Arrangement.Booked`
    * `Application.areDue`
    * `Application.Begun`
    * `Application.begun_inWindow`
    * `Application.pump_eq_turns`
    * `Application.Scheduled`
    * `Application.Jams`
    * `Application.answers_iff_not_garbled`
    * `Application.scheduled_iff_not_jams`
-/

namespace StyleCompanion

open Pairing
open Arrangement (Move Path)

----
-- Tokens
----

/- The token of an opening of the pairing. -/
def Desktop.Task.token? : Desktop.Task → Option Nat
  | .companion p => some p.token
  | .report _ _ _ => none

namespace Pairing.PairRegistry.Filed

variable {r : PairRegistry}

/- What is noted down is waited for. -/
theorem awaits
    (h : r.Filed)
    {p : PendingOpen}
    (hMem : p ∈ r.pendingList) :
    r.Awaits p := by
  unfold Awaits
  rw [h.pendingFor hMem]
  rfl

end Pairing.PairRegistry.Filed

namespace Arrangement

variable {s t : Arrangement}

/- A move begins nothing, or one opening and its end. -/
theorem Move.books
    (hMove : Move s t)
    (hFiled : s.registry.Filed) :
    ((∀ q ∈ t.registry.pendingList,
          q ∈ s.registry.pendingList) ∧
        t.registry.nextToken = s.registry.nextToken ∧
        ∃ rs, t.tasks = s.tasks ++ rs ∧
          ∀ x ∈ rs, x.token? = none) ∨
      ∃ p : PendingOpen, p.token = s.registry.nextToken ∧
        (∀ q ∈ t.registry.pendingList,
          q ∈ s.registry.pendingList ∨ q = p) ∧
        t.registry.nextToken = s.registry.nextToken + 1 ∧
        t.tasks = s.tasks ++ [.companion p] := by
  have hNothing : ∀ {r : PairRegistry}, s.registry.Loses r →
      (∀ q ∈ r.pendingList, q ∈ s.registry.pendingList) ∧
        r.nextToken = s.registry.nextToken :=
    fun h => ⟨fun _ => h.mem_pendingList, h.nextToken⟩
  have hSame := hNothing (.refl s.registry)
  have hNone : ∃ rs, s.tasks = s.tasks ++ rs ∧
      ∀ x ∈ rs, x.token? = none := ⟨[], by simp, by simp⟩
  cases hMove with
  | shuffle h => exact Or.inl ⟨hSame.1, hSame.2, hNone⟩
  | add hClosed region e =>
      exact Or.inl ⟨hSame.1, hSame.2, hNone⟩
  | remove hPlain u => exact Or.inl ⟨hSame.1, hSame.2, hNone⟩
  | close hOpen hLeft hFrees =>
      have hLost := hNothing hFrees.loses
      exact Or.inl ⟨hLost.1, hLost.2, hNone⟩
  | lose h =>
      have hLost := hNothing h
      exact Or.inl ⟨hLost.1, hLost.2, hNone⟩
  | takeOver hPlaced hShared =>
      exact Or.inl ⟨hSame.1, hSame.2, hNone⟩
  | @begin p hPlaced hIdle c =>
      refine Or.inr ⟨⟨p, c, s.registry.nextToken⟩, rfl,
        fun q => hFiled.mem_pendingList_beginOpen, ?_, rfl⟩
      rw [PairRegistry.beginOpen_eq hIdle]
  | request uri region preserveFocus =>
      refine Or.inl ⟨hSame.1, hSame.2, _, rfl, ?_⟩
      intro x hx
      rw [List.mem_singleton.mp hx]
      rfl

----
-- Booked openings
----

/-
  Every opening has a token of its own.  One that is noted
  down and one that waits are the same if they share it.
-/
structure Booked
    (s : Arrangement) : Prop extends Sound s where
  tokens : (s.tasks.filterMap Desktop.Task.token?).Nodup
  taken : ∀ p, .companion p ∈ s.tasks →
    p.token < s.registry.nextToken
  noted : ∀ q ∈ s.registry.pendingList,
    q.token < s.registry.nextToken
  genuine : ∀ q ∈ s.registry.pendingList, ∀ p,
    .companion p ∈ s.tasks → p.token = q.token → p = q

theorem Booked.of_loses
    (h : s.Booked)
    {r : PairRegistry}
    (hLoses : s.registry.Loses r) :
    Booked { s with registry := r } where
  toSound := h.toSound.of_loses hLoses
  tokens := h.tokens
  taken p hp := by
    rw [hLoses.nextToken]
    exact h.taken p hp
  noted q hq := by
    rw [hLoses.nextToken]
    exact h.noted q (hLoses.mem_pendingList hq)
  genuine q hq := h.genuine q (hLoses.mem_pendingList hq)

/- What waits for its turn and is waited for is noted down. -/
theorem Booked.mem_pendingList
    (h : s.Booked)
    {p : PendingOpen}
    (hTask : .companion p ∈ s.tasks)
    (hAwaits : s.registry.Awaits p) :
    p ∈ s.registry.pendingList := by
  rcases Option.map_eq_some_iff.mp hAwaits with
    ⟨q, hq, hToken⟩
  have hNoted := PairRegistry.mem_pendingList_of_pendingFor hq
  rw [h.genuine q hNoted p hTask hToken.symm]
  exact hNoted

theorem Move.booked
    (hMove : Move s t)
    (h : s.Booked) :
    t.Booked := by
  have hSound := hMove.sound h.toSound
  rcases hMove.books h.filed with
    ⟨hNoted, hNext, rs, hTasks, hPlain⟩ |
      ⟨p, hToken, hNoted, hNext, hTasks⟩
  · -- Reports have no tokens.
    have hOld : ∀ p, .companion p ∈ t.tasks →
        .companion p ∈ s.tasks := by
      intro p hp
      rw [hTasks, List.mem_append] at hp
      rcases hp with hp | hNew
      · exact hp
      · cases hPlain _ hNew
    refine ⟨hSound, ?_, ?_, ?_, ?_⟩
    · rw [hTasks, List.filterMap_append,
        List.filterMap_eq_nil_iff.mpr hPlain, List.append_nil]
      exact h.tokens
    · intro p hp
      rw [hNext]
      exact h.taken p (hOld p hp)
    · intro q hq
      rw [hNext]
      exact h.noted q (hNoted q hq)
    · intro q hq p hp
      exact h.genuine q (hNoted q hq) p (hOld p hp)
  · -- The new token is above all others.
    have hCases : ∀ x, .companion x ∈ t.tasks →
        .companion x ∈ s.tasks ∨ x = p := by
      intro x hx
      rw [hTasks, List.mem_append, List.mem_singleton] at hx
      exact hx.imp_right Desktop.Task.companion.inj
    refine ⟨hSound, ?_, ?_, ?_, ?_⟩
    · have hNew : p.token ∉
          s.tasks.filterMap Desktop.Task.token? := by
        intro hMem
        rcases List.mem_filterMap.mp hMem with ⟨x, hx, hEq⟩
        cases x with
        | report uri region preserveFocus => cases hEq
        | companion x =>
            have hBelow := h.taken x hx
            have hSame : x.token = p.token :=
              Option.some.inj hEq
            omega
      have hNodup := List.nodup_cons.mpr ⟨hNew, h.tokens⟩
      rw [hTasks, List.filterMap_append]
      exact List.nodup_append_comm.mp hNodup
    · intro x hx
      rw [hNext]
      rcases hCases x hx with hOld | rfl
      · exact Nat.lt_succ_of_lt (h.taken x hOld)
      · omega
    · intro q hq
      rw [hNext]
      rcases hNoted q hq with hOld | rfl
      · exact Nat.lt_succ_of_lt (h.noted q hOld)
      · omega
    · intro q hq x hx hEq
      rcases hNoted q hq with hOldNote | rfl
      · rcases hCases x hx with hOld | rfl
        · exact h.genuine q hOldNote x hOld hEq
        · have hBelow := h.noted q hOldNote
          omega
      · rcases hCases x hx with hOld | hNew
        · have hBelow := h.taken x hOld
          omega
        · exact hNew

theorem Path.booked
    (hPath : Path s t)
    (h : s.Booked) :
    t.Booked :=
  hPath.keeps h fun _ _ hx hMove => hMove.booked hx

end Arrangement

namespace Application

variable {a : Application}

theorem booked_dropTask
    (h : a.arrangement.Booked) :
    a.dropTask.arrangement.Booked where
  toSound := sound_arrangement_dropTask h.toSound
  tokens := h.tokens.sublist
    ((List.tail_sublist _).filterMap _)
  taken p hp := h.taken p (List.mem_of_mem_tail hp)
  noted := h.noted
  genuine q hq p hp :=
    h.genuine q hq p (List.mem_of_mem_tail hp)

theorem booked_companionOpened
    (h : a.arrangement.Booked)
    (p : PendingOpen)
    (ok : Bool) :
    (Session.arrangement (a.companionOpened p ok)).Booked := by
  have hFinished := h.of_loses (a.registry.loses_finishOpen p)
  by_cases hJoins : Session.Joins a p ok
  · refine (eases_companionOpened hJoins).path.booked ?_
    exact ⟨hFinished.toSound.register (fun hAttached =>
      primary_placed_of_awaits h.toSound hAttached
        hJoins.2.1) _, hFinished.tokens, hFinished.taken,
      hFinished.noted, hFinished.genuine⟩
  · exact (path_companionOpened h.filed hJoins).booked hFinished

----
-- Turns that are due
----

/-
  Whether a turn can come next: a command that runs no
  openings, or the end of the first that waits.
-/
def isDue
    (a : Application) : Turn → Bool
  | .command c => c.isDirect
  | .complete t => a.host.tasks.head? = some t

/- Whether all turns of a run are due. -/
def areDue
    (a : Application)
    (ts : List Turn) : Bool :=
  match ts with
  | [] => true
  | t :: rest => a.isDue t && (a.turn t).areDue rest

/-
  A property of the states of a run holds throughout if and
  only if no turn is bad, where bad turns break it and others
  keep an invariant that implies it.
-/
theorem forall_turns_iff
    {I G : Application → Prop}
    {B : Application → Turn → Prop}
    (hGood : ∀ a, I a → G a)
    (hKeep : ∀ a t, I a → a.isDue t = true → ¬ B a t →
      I (a.turn t))
    (hBreak : ∀ a t, I a → a.isDue t = true → B a t →
      ¬ G (a.turn t))
    (hStart : I a)
    {ts : List Turn}
    (hDue : a.areDue ts = true) :
    (∀ k, G (a.turns (ts.take k))) ↔
      ∀ k t, ts[k]? = some t → ¬ B (a.turns (ts.take k)) t := by
  induction ts generalizing a with
  | nil =>
      refine iff_of_true (fun k => ?_) (by simp)
      rw [List.take_nil]
      exact hGood a hStart
  | cons first ts ih =>
      rcases Bool.and_eq_true_iff.mp hDue with
        ⟨hFirst, hRest⟩
      constructor
      · intro hAll
        have hFine : ¬ B a first := fun h =>
          hBreak a first hStart hFirst h (hAll 1)
        have hLater := (ih (hKeep a first hStart hFirst hFine)
          hRest).mp fun k => hAll (k + 1)
        intro k t ht
        cases k with
        | zero =>
            cases ht
            exact hFine
        | succ k => exact hLater k t ht
      · intro hNone k
        have hNext := hKeep a first hStart hFirst
          (hNone 0 first rfl)
        cases k with
        | zero => exact hGood a hStart
        | succ k =>
            exact (ih hNext hRest).mpr
              (fun k t ht => hNone (k + 1) t ht) k

/- The pairing was just attached to an editor. -/
structure Begun
    (a : Application) : Prop where
  reached : a.Reached
  attached : a.host.attached = true
  guard : a.host.guard = .pairing
  registry : a.registry = .new
  idle : a.host.tasks.filterMap Desktop.Task.token? = []

theorem begun_attach
    {b : Application}
    {s : SettingsStore}
    {client : Option Client}
    (hReached : b.Reached)
    (hIdle : b.host.tasks.filterMap Desktop.Task.token? = [])
    (h : b.attach s client = .ok a) :
    a.Begun := by
  have hAttached := hReached.attach h
  rcases exists_of_bind_eq_ok h with ⟨surface, -, hNew⟩
  cases hNew
  exact ⟨hAttached, rfl, rfl, rfl, hIdle⟩

/- The application in a window that was just opened. -/
theorem begun_inWindow
    {d : Desktop}
    {s : SettingsStore}
    {client : Option Client}
    (h : inWindow d s client = .ok a)
    (hEmpty : d.workspace = .empty)
    (hIdle : d.tasks = []) :
    a.Begun := by
  rcases inWindow_eq_ok h with ⟨_, _, _, _, _, -, rfl⟩
  exact ⟨.start hEmpty rfl, rfl, rfl, rfl,
    congrArg (List.filterMap _) hIdle⟩

theorem Begun.booked
    (h : a.Begun) :
    a.arrangement.Booked := by
  have hTasks : ∀ p, .companion p ∉ a.host.tasks := by
    intro p hp
    cases List.filterMap_eq_nil_iff.mp h.idle _ hp
  have hPending : a.registry.pendingList = [] := by
    rw [h.registry]
    rfl
  refine ⟨h.reached.sound, ?_, ?_, ?_, ?_⟩
  · change (a.host.tasks.filterMap _).Nodup
    rw [h.idle]
    exact List.nodup_nil
  · intro p hp
    exact absurd hp (hTasks p)
  · intro q hq
    change q ∈ a.registry.pendingList at hq
    rw [hPending] at hq
    cases hq
  · intro q hq p hp
    exact absurd hp (hTasks p)

----
-- Answers
----

/- The document that an opening is for. -/
def uriOf : Desktop.Task → String
  | .companion p => p.companion
  | .report u _ _ => u

/- The opening itself. -/
def carryOut
    (a : Application) :
    Desktop.Task → Application × Outcome Bool
  | .companion p => a.openDocument p.companion .secondary true
  | .report u region preserveFocus =>
      a.openDocument u region preserveFocus

/- What is told at the end of an opening. -/
def answer
    (a : Application)
    (t : Desktop.Task)
    (ok : Bool) : Application :=
  match t with
  | .companion p => a.companionOpened p ok
  | .report u _ _ => a.onDesktop (·.note (.completed u ok))

theorem turn_complete_ok
    {t : Desktop.Task}
    {b : Application}
    {ok : Bool}
    (h : a.dropTask.carryOut t = (b, .ok ok)) :
    a.turn (.complete t) = b.answer t ok := by
  cases t with
  | companion p => exact turn_companion h
  | report u region preserveFocus =>
      unfold turn runTask
      unfold carryOut at h
      dsimp only at h ⊢
      rw [h]
      rfl

theorem turn_complete_error
    {t : Desktop.Task}
    {b : Application}
    {e : Failure}
    (h : a.dropTask.carryOut t = (b, .error e)) :
    a.turn (.complete t) = b := by
  cases t with
  | companion p => exact turn_companion_error h
  | report u region preserveFocus =>
      unfold turn runTask
      unfold carryOut at h
      dsimp only at h ⊢
      rw [h]

theorem tasks_carryOut
    (a : Application)
    (t : Desktop.Task) :
    (a.carryOut t).1.host.tasks = a.host.tasks := by
  have hOpened : ∀ {u region b outcome},
      a.Opens u region b outcome →
        b.host.tasks = a.host.tasks := by
    intro u region b outcome h
    cases h with
    | shown _ hEases => exact hEases.host.tasks
    | undecodable _ _ hSame =>
        exact congrArg Arrangement.tasks hSame
    | unreadable _ _ hSame =>
        exact congrArg Arrangement.tasks hSame
    | added _ _ _ hEases => exact hEases.host.tasks
  cases t with
  | companion p => exact hOpened (a.opens_openDocument _ _ _)
  | report u region preserveFocus =>
      exact hOpened (a.opens_openDocument _ _ _)

theorem tasks_answer
    (a : Application)
    (t : Desktop.Task)
    (ok : Bool) :
    (a.answer t ok).host.tasks = a.host.tasks := by
  cases t with
  | report u region preserveFocus => rfl
  | companion p =>
      by_cases hJoins : Session.Joins a p ok
      · exact (eases_companionOpened hJoins).host.tasks
      · cases ok with
        | false => rfl
        | true =>
            rcases Session.companionOpened_orphaned hJoins with
              ⟨text, hOrphan⟩
            change (Session.companionOpened a p
              true).host.tasks = _
            rw [hOrphan]
            exact Session.tasks_closeWithin _ _ _

/- The end of an opening only takes it off the list. -/
theorem tasks_complete
    (a : Application)
    (t : Desktop.Task) :
    (a.turn (.complete t)).host.tasks = a.host.tasks.tail := by
  have hCarried := a.dropTask.tasks_carryOut t
  rcases hRun : a.dropTask.carryOut t with ⟨b, outcome⟩
  rw [hRun] at hCarried
  cases outcome with
  | ok ok =>
      rw [turn_complete_ok hRun, tasks_answer]
      exact hCarried
  | error e =>
      rw [turn_complete_error hRun]
      exact hCarried

/- Openings that are run one by one come when they are due. -/
theorem runTasks_eq_due
    {tasks : List Desktop.Task}
    (hTasks : a.host.tasks = tasks) :
    ∃ ts, a.areDue ts = true ∧
      (runTasks tasks a).1 = a.turns ts := by
  induction tasks generalizing a with
  | nil => exact ⟨[], rfl, rfl⟩
  | cons t tasks ih =>
      have hFirst : a.isDue (.complete t) = true := by
        unfold isDue
        rw [hTasks]
        exact decide_eq_true rfl
      have hLeft := a.tasks_complete t
      rw [hTasks] at hLeft
      unfold runTasks
      rcases hEnd : a.dropTask.runTask t with ⟨b, failure⟩
      have hTurn : a.turn (.complete t) = b :=
        congrArg Prod.fst hEnd
      rw [hTurn] at hLeft
      cases failure with
      | some e =>
          refine ⟨[.complete t], ?_, hTurn.symm⟩
          unfold areDue
          rw [hFirst]
          rfl
      | none =>
          rcases ih hLeft with ⟨ts, hDue, hRest⟩
          refine ⟨.complete t :: ts, ?_, ?_⟩
          · unfold areDue
            rw [hFirst, hTurn, hDue]
            rfl
          · refine hRest.trans ?_
            rw [← hTurn]
            rfl

/- The pump ends openings that are due. -/
theorem pump_eq_turns
    (a : Application) :
    ∃ ts, a.areDue ts = true ∧
      (a.perform .pump).1 = a.turns ts := by
  rcases runTasks_eq_due (a := a) rfl with ⟨ts, hDue, hPump⟩
  exact ⟨ts, hDue, (answered_fst a.pump).trans hPump⟩

theorem begun_studio : studio.Begun := by
  have hStart :
      Application.attach (.new 0 (.new site []))
        (.new "/settings.json" Settings.appDefaults) none =
          .ok studio := rfl
  exact begun_attach (.start rfl rfl) rfl hStart

end Application

end StyleCompanion
