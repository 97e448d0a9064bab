import StyleCompanion.Proofs.Application.Exposure

/-
  Whole runs of an application and its decorations.

  Openings that wait come to their ends one at a time, with
  anything the user does in between.  Every end of an opening
  that joins a pair without straying or ousting keeps the
  decorations fresh, and so does everything else.  An end that
  strays or ousts leaves decorations behind that a single key
  or the next document makes stale.

  Main declarations:
    * `Application.Turn`
    * `Application.run_eq_turns`
    * `Application.Mispairs`
    * `Application.sound_turn`
    * `Application.not_steady_turn`
    * `Application.Wired`
    * `Application.steady_iff_not_mispairs`
-/

namespace StyleCompanion

open Pairing

namespace Application

variable {a : Application}

----
-- Turns
----

/- A command, or the end of an opening. -/
inductive Turn where
  | command (c : Command)
  | complete (t : Desktop.Task)

namespace Turn

/- A turn of daily use. -/
def isPlain : Turn → Bool
  | .command c => c.isPlain
  | .complete _ => true

end Turn

/- The application after a turn. -/
def turn
    (a : Application) : Turn → Application
  | .command c => (a.perform c).1
  | .complete t => (a.dropTask.runTask t).1

/- The application after turns in order. -/
def turns
    (a : Application)
    (ts : List Turn) : Application :=
  ts.foldl turn a

/- The pump ends some of the openings that wait, in order. -/
theorem runTasks_eq_turns
    (a : Application)
    (tasks : List Desktop.Task) :
    ∃ n, (runTasks tasks a).1 =
      a.turns ((tasks.take n).map .complete) := by
  induction tasks generalizing a with
  | nil => exact ⟨0, rfl⟩
  | cons t tasks ih =>
      unfold runTasks
      rcases hRun : a.dropTask.runTask t with ⟨b, failure⟩
      have hTurn : a.turn (.complete t) = b :=
        congrArg Prod.fst hRun
      cases failure with
      | none =>
          rcases ih b with ⟨n, hRest⟩
          refine ⟨n + 1, hRest.trans ?_⟩
          rw [← hTurn]
          rfl
      | some e => exact ⟨1, hTurn.symm⟩

/- A run of commands with pumps is a run of turns. -/
theorem run_eq_turns
    (a : Application)
    {cs : List Command}
    (hPlain : ∀ c ∈ cs, c.isPlain = true ∨ c = .pump) :
    ∃ ts : List Turn, (∀ t ∈ ts, t.isPlain = true) ∧
      a.run cs = a.turns ts := by
  induction cs generalizing a with
  | nil => exact ⟨[], by simp, rfl⟩
  | cons c cs ih =>
      rw [List.forall_mem_cons] at hPlain
      rcases ih (a.perform c).1 hPlain.2 with
        ⟨rest, hRest, hRun⟩
      rcases hPlain.1 with hCommand | rfl
      · refine ⟨.command c :: rest, ?_, hRun⟩
        exact List.forall_mem_cons.mpr ⟨hCommand, hRest⟩
      · rcases a.runTasks_eq_turns a.host.tasks with ⟨n, hPump⟩
        refine ⟨(a.host.tasks.take n).map .complete ++ rest,
          ?_, ?_⟩
        · intro t ht
          rcases List.mem_append.mp ht with hEnd | hLater
          · rcases List.mem_map.mp hEnd with ⟨task, -, rfl⟩
            rfl
          · exact hRest t hLater
        · refine hRun.trans ?_
          unfold turns
          rw [List.foldl_append]
          have hFirst : (a.perform .pump).1 =
              a.turns ((a.host.tasks.take n).map .complete) :=
            (answered_fst a.pump).trans hPump
          exact congrArg (List.foldl turn · rest) hFirst

----
-- Pairs that are made amiss
----

/-
  The end of an opening joins a pair whose companion strays,
  or that ousts another.
-/
def Mispairs
    (a : Application) : Turn → Prop
  | .complete (.companion p) =>
      ∃ b,
        a.dropTask.openDocument p.companion .secondary true =
            (b, .ok true) ∧
          Session.Joins b p true ∧
          (Session.Strays b p ∨ Session.Ousts b p)
  | _ => False

/- The end of an opening of the pairing. -/
theorem turn_companion
    {p : PendingOpen}
    {b : Application}
    {ok : Bool}
    (h : a.dropTask.openDocument p.companion .secondary true =
      (b, .ok ok)) :
    a.turn (.complete (.companion p)) =
      b.companionOpened p ok := by
  unfold turn runTask
  dsimp only
  rw [h]

theorem sound_companion
    (hSound : a.scene.Sound)
    {p : PendingOpen}
    (hNot : ¬ a.Mispairs (.complete (.companion p))) :
    (a.turn (.complete (.companion p))).scene.Sound := by
  have hOpened := sound_openDocument (a := a.dropTask) hSound
    p.companion .secondary true
  rcases hRun : a.dropTask.openDocument p.companion .secondary
      true with ⟨b, outcome⟩
  rw [hRun] at hOpened
  cases outcome with
  | error e =>
      have hFailed : a.turn (.complete (.companion p)) = b := by
        unfold turn runTask
        dsimp only
        rw [hRun]
      rw [hFailed]
      exact hOpened
  | ok ok =>
      rw [turn_companion hRun]
      by_cases hJoins : Session.Joins b p ok
      · cases hJoins.1
        have hWired :=
          Session.wired_companionOpened hOpened hJoins
        refine ⟨hWired.1, hWired.2, ?_⟩
        apply (Session.secure_companionOpened_iff hOpened
          hJoins).mpr
        intro hSpoils
        exact hNot ⟨b, hRun, hJoins, hSpoils⟩
      · exact Session.sound_companionOpened_of_not_joins
          hOpened hJoins

theorem sound_report
    (hSound : a.scene.Sound)
    (u : String)
    (region : Region)
    (preserveFocus : Bool) :
    (a.turn (.complete (.report u region
      preserveFocus))).scene.Sound := by
  have hOpened := sound_openDocument (a := a.dropTask) hSound
    u region preserveFocus
  unfold turn runTask
  dsimp only
  rcases hRun : a.dropTask.openDocument u region
      preserveFocus with ⟨b, outcome⟩
  rw [hRun] at hOpened
  cases outcome with
  | error e => exact hOpened
  | ok ok => exact hOpened

/- A turn that makes no pair amiss keeps a scene sound. -/
theorem sound_turn
    (hSound : a.scene.Sound)
    {t : Turn}
    (hPlain : t.isPlain = true)
    (hNot : ¬ a.Mispairs t) :
    (a.turn t).scene.Sound := by
  cases t with
  | command c => exact sound_perform hSound hPlain
  | complete task =>
      cases task with
      | companion p => exact sound_companion hSound hNot
      | report u region preserveFocus =>
          exact sound_report hSound u region preserveFocus

/- A pair made amiss shows sooner or later. -/
theorem not_steady_turn
    (hSound : a.scene.Sound)
    {t : Turn}
    (h : a.Mispairs t) :
    ¬ (a.turn t).Steady := by
  cases t with
  | command c => cases h
  | complete task =>
      cases task with
      | report u region preserveFocus => cases h
      | companion p =>
          rcases h with ⟨b, hRun, hJoins, hSpoils⟩
          have hOpened := sound_openDocument (a := a.dropTask)
            hSound p.companion .secondary true
          rw [hRun] at hOpened
          rw [turn_companion hRun]
          have hWired :=
            Session.wired_companionOpened hOpened hJoins
          intro hSteady
          exact (Session.secure_companionOpened_iff hOpened
            hJoins).mp
            ((steady_iff_secure hWired.1 hWired.2).mp hSteady)
            hSpoils

----
-- Runs
----

/- The pairing was attached and nothing is decorated. -/
structure Wired
    (a : Application) : Prop where
  attached : a.host.attached = true
  registry : a.registry = .new
  bare : ∀ u, ¬ a.scene.Decorated u

theorem Wired.sound
    (h : a.Wired) :
    a.scene.Sound where
  attached := h.attached
  filed := by
    change a.registry.Filed
    rw [h.registry]
    exact PairRegistry.filed_new
  secure u hu := absurd hu (h.bare u)

/- What fails at no step gave a result at each. -/
theorem exists_of_bind_eq_ok
    {α β : Type}
    {x : Outcome α}
    {f : α → Outcome β}
    {y : β}
    (h : x >>= f = .ok y) :
    ∃ v, x = .ok v ∧ f v = .ok y := by
  cases x with
  | error e => cases h
  | ok v => exact ⟨v, rfl, h⟩

/- A window with the pairing, as it is opened. -/
theorem inWindow_eq_ok
    {d : Desktop}
    {s : SettingsStore}
    {client : Option Client}
    (h : inWindow d s client = .ok a) :
    ∃ surface size family text duration,
      surfaceOf s = .ok surface ∧
        a = .new surface.paletteSize
          { d with
            fontSize := size
            fontFamily := family
            surface := surface
            guard := .pairing
            describer := .overlay
            attached := true
            client := client.map listening
            legend := some ""
            journal := d.journal ++
              [.statusBar text duration] } := by
  rcases exists_of_bind_eq_ok h with ⟨size, -, hBuilt⟩
  rcases exists_of_bind_eq_ok hBuilt with
    ⟨editor, hEditor, hAttached⟩
  rcases exists_of_bind_eq_ok hAttached with
    ⟨b, hAttach, hShown⟩
  rcases exists_of_bind_eq_ok hEditor with ⟨_, -, hNew⟩
  cases hNew
  rcases exists_of_bind_eq_ok hAttach with
    ⟨surface, hSurface, hLaid⟩
  cases hLaid
  cases hShown
  exact ⟨surface, _, _, _, _, hSurface, rfl⟩

/- Attaching the pairing to a plain editor. -/
theorem wired_attach
    {b : Application}
    {s : SettingsStore}
    {client : Option Client}
    (h : b.attach s client = .ok a)
    (hBare : ∀ u, ¬ b.scene.Decorated u) :
    a.Wired := by
  rcases exists_of_bind_eq_ok h with ⟨surface, -, hNew⟩
  cases hNew
  exact ⟨rfl, rfl, hBare⟩

/- The application in a window that was just opened. -/
theorem wired_inWindow
    {d : Desktop}
    {s : SettingsStore}
    {client : Option Client}
    (h : inWindow d s client = .ok a)
    (hEmpty : d.workspace.documents = []) :
    a.Wired := by
  rcases inWindow_eq_ok h with ⟨_, _, _, _, _, -, rfl⟩
  exact ⟨rfl, rfl, fun u => Scene.not_decorated
    (congrArg (Table.get? · u) hEmpty)⟩

/-
  The decorations of a run are fresh and stay so, whatever the
  user does at any time, if and only if no turn of the run
  makes a pair amiss.
-/
theorem steady_iff_not_mispairs
    (hWired : a.Wired)
    {ts : List Turn}
    (hPlain : ∀ t ∈ ts, t.isPlain = true) :
    (∀ k, (a.turns (ts.take k)).Steady) ↔
      ∀ k t, ts[k]? = some t →
        ¬ (a.turns (ts.take k)).Mispairs t := by
  -- Later states are not wired anew, but sound like the first.
  have hSound := hWired.sound
  clear hWired
  induction ts generalizing a with
  | nil =>
      refine iff_of_true (fun k => ?_) (by simp)
      rw [List.take_nil]
      exact steady_of_sound hSound
  | cons first ts ih =>
      rw [List.forall_mem_cons] at hPlain
      constructor
      · intro hAll
        have hGood : ¬ a.Mispairs first := fun h =>
          not_steady_turn hSound h (hAll 1)
        have hNext := sound_turn hSound hPlain.1 hGood
        have hRest :=
          (ih hPlain.2 hNext).mp fun k => hAll (k + 1)
        intro k t ht
        cases k with
        | zero =>
            cases ht
            exact hGood
        | succ k => exact hRest k t ht
      · intro hNone k
        have hNext :=
          sound_turn hSound hPlain.1 (hNone 0 first rfl)
        cases k with
        | zero => exact steady_of_sound hSound
        | succ k =>
            exact (ih hPlain.2 hNext).mpr
              (fun k t ht => hNone (k + 1) t ht) k

----
-- A stylesheet in its place, and one out of it
----

/- A page and its stylesheet on the disk. -/
def site : Disk :=
  { files :=
      [("/index.html", [60, 112, 62, 10]),
        ("/a.css", [112, 32, 123, 125, 10])]
    current := "/" }

/- The pairing over the site, without a backend. -/
def studio : Application :=
  .new Workspace.Surface.default.paletteSize
    { Desktop.new site [] with
      guard := .pairing
      describer := .overlay
      attached := true }

/- A stylesheet whose first line has an owner. -/
def owned : Json :=
  .obj
    [("companionUri", .str "file:///a.css"),
      ("file", .obj
        [("sources", .arr
            [.obj
              [("id", .int 1),
                ("displayName", .str "base.css"),
                ("absolutePath", .str "/base.css")]]),
          ("lines", .arr
            [.obj
              [("lineNumber", .int 0),
                ("ownerId", .int 1)]])])]

/- The page asks for the stylesheet, and gets it. -/
def visit : List Turn :=
  [.command (.openDocument "file:///index.html" .primary false),
    .command (.showCompanion owned),
    .complete (.companion
      ⟨"file:///index.html", "file:///a.css", 1⟩)]

/- Decorations in their place are there to stay. -/
theorem visit_steady :
    Application.attach (.new 0 (.new site []))
        (.new "/settings.json" Settings.appDefaults) none =
          .ok studio ∧
      (studio.turns visit).scene.Decorated "file:///a.css" ∧
      ∀ k, (studio.turns (visit.take k)).Steady := by
  have hStart :
      Application.attach (.new 0 (.new site []))
        (.new "/settings.json" Settings.appDefaults) none =
          .ok studio := rfl
  have hWired : studio.Wired :=
    wired_attach hStart fun u => Scene.not_decorated rfl
  refine ⟨hStart, ⟨_, rfl, List.cons_ne_nil _ _⟩, ?_⟩
  apply (steady_iff_not_mispairs hWired (by decide)).mpr
  intro k t ht hAmiss
  match k, ht with
  | 0, rfl => cases hAmiss
  | 1, rfl => cases hAmiss
  | 2, rfl =>
      -- The page is free, and the stylesheet in its place.
      rcases hAmiss with ⟨b, hRun, -, hSpoils⟩
      rcases hSpoils with hStrays | ⟨old, hOld, -⟩
      · have hPages : b.scene.pages = ["file:///a.css"] :=
          (congrArg (·.1.scene.pages) hRun).symm
        apply hStrays.1
        rw [hPages]
        exact List.mem_singleton_self _
      · have hFree : b.registry.pairForPrimary
            "file:///index.html" = none :=
          (congrArg (·.1.registry.pairForPrimary
            "file:///index.html") hRun).symm
        rw [hFree] at hOld
        cases hOld

/-
  The stylesheet was open among the primaries.  It is paired
  there all the same, and focused after that.
-/
def detour : List Turn :=
  [.command (.openDocument "file:///a.css" .primary false)] ++
    visit ++ [.command (.focus "file:///a.css")]

/- The decorations stay when the render is forgotten. -/
theorem detour_not_fresh :
    ¬ (studio.turns detour).scene.Fresh := by
  intro hFresh
  have hRendered := (hFresh "file:///a.css"
    ⟨_, rfl, List.cons_ne_nil _ _⟩).1
  have hForgotten :
      (studio.turns detour).scene.engine.hasRender
        "file:///a.css" = false := rfl
  rw [hForgotten] at hRendered
  cases hRendered

end Application

end StyleCompanion
