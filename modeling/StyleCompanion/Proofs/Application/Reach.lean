import StyleCompanion.Proofs.Application.Paths

/-
  Applications that can come about.

  An application starts without documents.  After that turns
  follow in any order, with any guard, any files on the disk
  and any openings that end, and the pairing may be attached
  at any time.  All applications that come about in this way
  have sound arrangements.  In particular, the tabs of their
  workspaces and the table of documents agree.  Only attaching
  the pairing chooses colours.

  Main declarations:
    * `Application.colored_turns`
    * `Application.Reached`
    * `Application.Reached.sound`
    * `Application.Reached.tabs_agree`
-/

namespace StyleCompanion

open Pairing

namespace Arrangement

/- A sound arrangement with the colours that were chosen. -/
structure Colored
    (g : Workspace.Surface × Nat)
    (s : Arrangement) : Prop extends Sound s where
  chosen : (s.inks, s.colors) = g

theorem Path.colored
    {g : Workspace.Surface × Nat}
    {s t : Arrangement}
    (hPath : Path s t)
    (h : s.Colored g) :
    t.Colored g :=
  ⟨hPath.sound h.toSound,
    (congrArg (·.2.2) hPath.fixed).trans h.chosen⟩

end Arrangement

namespace Application

variable {a : Application} {g : Workspace.Surface × Nat}

----
-- Turns
----

/-
  What the end of an opening keeps: it has to survive that the
  opening is taken off the list, every path, and what the
  pairing makes of a document that was opened.
-/
theorem keeps_complete
    {P : Arrangement → Prop}
    (hDropped : P a.dropTask.arrangement)
    (hPath : ∀ s t, P s → Arrangement.Path s t → P t)
    (hOpened : ∀ (b : Application) p ok, P b.arrangement →
      P (Session.arrangement (b.companionOpened p ok)))
    (task : Desktop.Task) :
    P (a.turn (.complete task)).arrangement := by
  cases task with
  | report u region preserveFocus =>
      exact hPath _ _ hDropped
        (a.path_report u region preserveFocus)
  | companion p =>
      have hShown := hPath _ _ hDropped
        (a.dropTask.path_openDocument p.companion .secondary
          true)
      rcases hRun : a.dropTask.openDocument p.companion
          .secondary true with ⟨b, outcome⟩
      rw [hRun] at hShown
      cases outcome with
      | error e =>
          rw [turn_companion_error hRun]
          exact hShown
      | ok ok =>
          rw [turn_companion hRun]
          exact hOpened b p ok hShown

theorem colored_companionOpened
    (h : a.arrangement.Colored g)
    (p : PendingOpen)
    (ok : Bool) :
    (Session.arrangement (a.companionOpened p ok)).Colored g := by
  refine ⟨sound_arrangement_companionOpened h.toSound p ok,
    Eq.trans ?_ h.chosen⟩
  by_cases hJoins : Session.Joins a p ok
  · have hEases := eases_companionOpened hJoins
    exact Prod.ext hEases.host.inks hEases.colors
  · exact congrArg (·.2.2)
      (path_companionOpened h.filed hJoins).fixed

theorem colored_complete
    (h : a.arrangement.Colored g)
    (task : Desktop.Task) :
    (a.turn (.complete task)).arrangement.Colored g :=
  keeps_complete
    ⟨sound_arrangement_dropTask h.toSound, h.chosen⟩
    (fun _ _ hs hPath => hPath.colored hs)
    (fun _ p ok hb => colored_companionOpened hb p ok) task

theorem colored_completes
    (h : a.arrangement.Colored g)
    (tasks : List Desktop.Task) :
    (a.turns (tasks.map .complete)).arrangement.Colored g := by
  induction tasks generalizing a with
  | nil => exact h
  | cons task tasks ih => exact ih (colored_complete h task)

/- Every turn keeps an arrangement sound, and its colours. -/
theorem colored_turn
    (h : a.arrangement.Colored g)
    (t : Turn) :
    (a.turn t).arrangement.Colored g := by
  cases t with
  | complete task => exact colored_complete h task
  | command c =>
      cases hDirect : c.isDirect with
      | true => exact (path_perform h.toSound hDirect).colored h
      | false =>
          cases c with
          | pump =>
              -- A pump is the ends of some openings.
              rcases a.runTasks_eq_turns a.host.tasks with
                ⟨n, hPump⟩
              have hTurn : a.turn (.command .pump) =
                  a.turns ((a.host.tasks.take n).map
                    .complete) :=
                (answered_fst a.pump).trans hPump
              rw [hTurn]
              exact colored_completes h _
          | setGuard guard =>
              exact ⟨⟨h.orderly, h.filed, h.seated,
                h.waiting⟩, h.chosen⟩
          | _ => cases hDirect

/- An application that can come about. -/
inductive Reached : Application → Prop where
  | start
      {a : Application}
      (hEmpty : a.workspace = .empty)
      (hNew : a.registry = .new) :
      Reached a
  | attach
      {a b : Application}
      {s : SettingsStore}
      {client : Option Client}
      (h : Reached a)
      (hAttach : a.attach s client = .ok b) :
      Reached b
  | turn
      {a : Application}
      (h : Reached a)
      (t : Turn) :
      Reached (a.turn t)

namespace Reached

theorem turns
    (h : a.Reached)
    (ts : List Turn) :
    (a.turns ts).Reached := by
  induction ts generalizing a with
  | nil => exact h
  | cons t ts ih => exact ih (h.turn t)

/- An arrangement without pairs and openings. -/
theorem sound_of_new
    {s : Arrangement}
    (hOrderly : s.workspace.Orderly)
    (hNew : s.registry = .new) :
    s.Sound := by
  refine ⟨hOrderly, ?_, ?_, ?_⟩
  · rw [hNew]
    exact PairRegistry.filed_new
  all_goals
    intro _ x hx
    rw [hNew] at hx
    cases hx

theorem sound
    (h : a.Reached) :
    a.arrangement.Sound := by
  induction h with
  | @start a hEmpty hNew =>
      have hOrderly : a.workspace.Orderly := by
        rw [hEmpty]
        exact Workspace.orderly_empty
      exact sound_of_new hOrderly hNew
  | attach h hAttach ih =>
      rcases exists_of_bind_eq_ok hAttach with
        ⟨surface, -, hNew⟩
      cases hNew
      exact sound_of_new ih.orderly rfl
  | turn h t ih => exact (colored_turn ⟨ih, rfl⟩ t).toSound

/-
  The tabs and the table of documents agree: no page is on two
  tabs, the pages are the keys of the table, the record of a
  page has its region and its editor, and the active document
  is open.
-/
theorem tabs_agree
    (h : a.Reached) :
    (a.workspace.documentsIn .primary).Disjoint
        (a.workspace.documentsIn .secondary) ∧
      (∀ region, (a.workspace.documentsIn region).Nodup) ∧
      (a.workspace.documentsIn .primary ++
        a.workspace.documentsIn .secondary).Perm
          (Table.keys a.workspace.documents) ∧
      (∀ region u, u ∈ a.workspace.documentsIn region ↔
        ∃ d, Table.get? a.workspace.documents u = some d ∧
          d.region = region ∧
          a.workspace.editor? u = some d.editor) ∧
      ∀ u, a.workspace.active = some u →
        a.workspace.isOpen u = true := by
  have hOrderly : a.workspace.Orderly := h.sound.orderly
  refine ⟨hOrderly.disjoint, hOrderly.nodup,
    hOrderly.perm_keys, ?_, hOrderly.active⟩
  intro region u
  rw [hOrderly.placed]
  unfold Workspace.regionOf Workspace.editor?
  constructor
  · intro hRegion
    rcases Option.map_eq_some_iff.mp hRegion with ⟨d, hd, hIn⟩
    exact ⟨d, hd, hIn, by rw [hd]; rfl⟩
  · rintro ⟨d, hd, hIn, -⟩
    rw [hd, ← hIn]
    rfl

end Reached

/- The site with its page and its stylesheet side by side. -/
theorem visit_tabs_agree :
    (studio.turns visit).workspace.documentsIn .primary =
        ["file:///index.html"] ∧
      (studio.turns visit).workspace.documentsIn .secondary =
        ["file:///a.css"] ∧
      (Table.keys
        (studio.turns visit).workspace.documents).Nodup := by
  have hAttach :
      Application.attach (.new 0 (.new site []))
        (.new "/settings.json" Settings.appDefaults) none =
          .ok studio := rfl
  have hReached : (studio.turns visit).Reached :=
    (Reached.attach (.start rfl rfl) hAttach).turns visit
  have hAgree := hReached.tabs_agree
  refine ⟨rfl, rfl, ?_⟩
  refine (List.Perm.nodup_iff hAgree.2.2.1).mp ?_
  exact List.Nodup.append (hAgree.2.1 .primary)
    (hAgree.2.1 .secondary) hAgree.1

end Application

end StyleCompanion
