import StyleCompanion.Proofs.Application.Freshness
import StyleCompanion.Proofs.Application.Reports

/-
  What whole runs of an application tell the backend.

  The notices of a turn are read with the texts that the turn
  gives, typed or from the disk, and the companions at its
  beginning.  A turn follows its notices; after that the
  client may change its phase by itself.

  Since the last launch a run has given notices, and the calls
  that go with them have posted notes.  What every notice, every
  change of phase and every launch keeps holds along all runs.

  Main declarations:
    * `Application.reading`
    * `Application.calls`
    * `Application.isProper`
    * `Application.tells_turn`
    * `Application.postedSince`
    * `Application.heardSince`
    * `Application.Kept`
    * `Application.Kept.turns`
-/

namespace StyleCompanion

open Pairing
open Client (Note Ledger)
open Desktop (Notice Reading Goes Quiet Hushed)

namespace Application

----
-- Turns
----

namespace Turn

/- The text that is typed. -/
def typed? : Turn → Option String
  | .command (.type _ typed) => some typed
  | _ => none

/- What happens to the client from the outside. -/
def event? : Turn → Option Client.Event
  | .command (.client e) => some e
  | _ => none

theorem eq_of_event?
    {t : Turn}
    {e : Client.Event}
    (h : t.event? = some e) :
    t = .command (.client e) := by
  cases t with
  | complete task => cases h
  | command c =>
      cases c with
      | client other =>
          cases h
          rfl
      | _ => cases h

/- Whether the backend is launched. -/
def launches
    (t : Turn) : Bool :=
  t.event?.any (·.launches)

/-
  What the client may do by itself after the notices of a
  turn.
-/
inductive Shifts
    (t : Turn)
    (l : Ledger) : Ledger → Prop
  | move
      {k : Ledger} :
      l.Moves k → Shifts t l k
  | fault
      {fails : Bool} :
      t.event? = some (.writeFails fails) →
      Shifts t l { l with fails := fails }

end Turn

/- The text that a turn gives to a document. -/
def givenBy
    (a : Application)
    (t : Turn)
    (u : String) : String :=
  match t.typed? with
  | some typed =>
      match a.workspace.editor? u with
      | some e => (e.insert typed).text
      | none => ""
  | none =>
      match a.host.disk.readText (pathOfUri u) with
      | .text text => text
      | _ => ""

/- How the notices of a turn are read. -/
def reading
    (a : Application)
    (t : Turn) : Reading :=
  { given := a.givenBy t
    paired := fun u => (a.registry.pairForCompanion u).isSome }

/- The notices of a turn. -/
def news
    (a : Application)
    (t : Turn) : List Notice :=
  (a.turn t).host.journal.drop a.host.journal.length

/- The calls of the client that go with the notices. -/
def calls
    (a : Application)
    (t : Turn) : List Client.Event :=
  (a.news t).filterMap (a.reading t).call?

/-
  Whether what happens to the client from the outside leaves
  documents to the application, and the process reports its
  start in order.
-/
def isProper
    (a : Application)
    (t : Turn) : Bool :=
  t.event?.all fun e =>
    !e.isCall && !e.forges && a.host.client.all (e.isInOrder ·)

/- Whether all turns of a run are proper. -/
def areProper
    (a : Application)
    (ts : List Turn) : Bool :=
  match ts with
  | [] => true
  | t :: rest => a.isProper t && (a.turn t).areProper rest

variable {a : Application} {o : Outline} {t : Turn}

theorem reads_reading
    (h : t.typed? = none) :
    (a.reading t).Reads a.host.disk := by
  intro u text hText
  simp only [reading, givenBy, h, hText]

theorem reports_start
    (h : a.host.Shows [] o) :
    Reports (a.reading t) o a.host a := by
  refine ⟨.start h, ?_⟩
  intro pair hPair
  change (a.registry.pairForCompanion pair.companion).isSome
    = true
  rw [Option.isSome_iff_ne_none]
  intro hNone
  exact PairRegistry.pairForCompanion_eq_none_iff.mp hNone
    pair hPair rfl

----
-- Commands
----

section Commands

variable {r : Reading} {d : Desktop}

theorem goes_onOpen
    (h : Goes r o d [] a.host)
    {u : String}
    {f : Application → Application × Outcome Answer}
    (hOpen : a.workspace.isOpen u = true →
      Goes r o d [] (f a).1.host) :
    Goes r o d [] (a.onOpen u f).1.host :=
  keeps_onOpen (P := (Goes r o d [] ·.host)) h hOpen

theorem goes_needing
    (h : Goes r o d [] a.host)
    {present : Bool}
    {f : Application → Application × Outcome Answer}
    (hPresent : Goes r o d [] (f a).1.host) :
    Goes r o d [] (a.needing present f).1.host :=
  keeps_needing (P := (Goes r o d [] ·.host)) h hPresent

theorem goes_byHand
    (h : Goes r o d [] a.host)
    {f : Desktop → Workspace.Surface → Desktop}
    (hHushed : ∀ s, Hushed a.host (f a.host s)) :
    Goes r o d [] (a.byHand f).1.host :=
  keeps_byHand (P := (Goes r o d [] ·.host)) h
    fun s => h.hush (hHushed s)

theorem goes_withLegend
    (h : Goes r o d [] a.host)
    (rows : List Desktop.LegendItem)
    {f : Desktop → Desktop}
    (hHushed : ∀ e, Hushed e (f e)) :
    Goes r o d [] (a.withLegend rows f).1.host :=
  keeps_withLegend (P := (Goes r o d [] ·.host)) h rows
    fun _ => h.hush ((Hushed.showLegend _).trans (hHushed _))

end Commands

/-
  A turn follows its notices, and the client may change its
  phase after that.
-/
def Tells
    (a : Application)
    (t : Turn)
    (o q : Outline) : Prop :=
  ∃ ns p k, (a.turn t).host.journal = a.host.journal ++ ns ∧
    o.Follows (a.reading t) ns p ∧ t.Shifts p.ledger k ∧
    q = { p with ledger := k } ∧
    (a.turn t).host.Shows [] q

theorem tells_of_goes
    (h : Goes (a.reading t) o a.host [] (a.turn t).host) :
    ∃ q, a.Tells t o q := by
  rcases h.path with ⟨ns, p, hNs, hFollows, hShows⟩
  exact ⟨p, ns, p, p.ledger, hNs, hFollows, .move .stay, rfl,
    hShows⟩

/- The client changes its phase and tells nothing. -/
theorem tells_of_quiet
    (hShows : a.host.Shows [] o)
    (hQuiet : Quiet a.host (a.turn t).host)
    {k : Ledger}
    (hShifts : t.Shifts o.ledger k)
    (hLedger : (a.turn t).host.ledger = some k) :
    ∃ q, a.Tells t o q := by
  rcases hQuiet.news with ⟨ns, hNs, hNews⟩
  have hFollows : o.Follows (a.reading t) ([] ++ ns) o :=
    Outline.Follows.start.quiet hNews
  exact ⟨_, ns, o, k, hNs, hFollows, hShifts, rfl,
    hShows.quiet hQuiet hLedger⟩

/- Files come and go without a notice. -/
theorem tells_of_disk
    (hShows : a.host.Shows [] o)
    {disk : Disk}
    (hTurn : (a.turn t).host = { a.host with disk := disk }) :
    ∃ q, a.Tells t o q := by
  refine ⟨o, [], o, o.ledger, ?_, .start, .move .stay, rfl, ?_⟩
  · rw [hTurn, List.append_nil]
  · rw [hTurn]
    exact ⟨hShows.attached, hShows.page, hShows.ledger⟩

/- The ledger of a client that is there. -/
theorem ledger_of_client
    {c : Client}
    (hShows : a.host.Shows [] o)
    (hClient : a.host.client = some c) :
    c.ledgerOn (Desktop.effects a.host.journal) = o.ledger := by
  have hLedger := hShows.ledger
  unfold Desktop.ledger at hLedger
  rw [hClient] at hLedger
  exact Option.some.inj hLedger

theorem client_of_shows
    (hShows : a.host.Shows [] o) :
    ∃ c, a.host.client = some c := by
  rcases Option.map_eq_some_iff.mp hShows.ledger with
    ⟨c, hClient, -⟩
  exact ⟨c, hClient⟩

/- What is neither a message nor output is the client's own. -/
theorem clientEvent_eq_absorb
    {c : Client}
    {e : Client.Event}
    (hClient : a.host.client = some c)
    (hMessage : ∀ fs, e ≠ .message fs)
    (hOutput : ∀ bs, e ≠ .output bs) :
    (a.clientEvent e).1.host =
      a.host.absorb (c.step a.host.environment e).1 := by
  unfold clientEvent
  rw [hClient]
  cases e with
  | message fs => exact absurd rfl (hMessage fs)
  | output bs => exact absurd rfl (hOutput bs)
  | _ => rfl

/- A launch begins a new session. -/
theorem shows_launch
    (hShows : a.host.Shows [] o)
    (hLaunch : t.launches = true) :
    (a.turn t).host.Shows []
      { o with ledger := .launched o.ledger.fails } := by
  rcases client_of_shows hShows with ⟨c, hClient⟩
  have hFails : c.process.writeFails = o.ledger.fails :=
    congrArg Ledger.fails (ledger_of_client hShows hClient)
  cases hEvent : t.event? with
  | none => simp [Turn.launches, hEvent] at hLaunch
  | some e =>
      have hStart : e.launches = true := by
        simpa [Turn.launches, hEvent] using hLaunch
      have hTurn : a.turn t = (a.clientEvent e).1 := by
        rw [Turn.eq_of_event? hEvent]
        rfl
      have hAbsorb := clientEvent_eq_absorb hClient
        (e := e) (by rintro fs rfl; cases hStart)
        (by rintro bs rfl; cases hStart)
      rw [hTurn, hAbsorb]
      refine hShows.quiet (a.host.quiet_absorb _) ?_
      rw [a.host.ledger_absorb,
        Client.ledger_step_of_launches _ c _ hStart, hFails]

/- What happens to the client from the outside. -/
theorem tells_client
    (hShows : a.host.Shows [] o)
    {e : Client.Event}
    (hProper : a.isProper (.command (.client e)) = true)
    (hLaunch : e.launches = false) :
    ∃ q, a.Tells (.command (.client e)) o q := by
  rcases client_of_shows hShows with ⟨c, hClient⟩
  have hRules : (e.isCall = false ∧ e.forges = false) ∧
      e.isInOrder c = true := by
    simpa [isProper, Turn.event?, hClient] using hProper
  have hReports :=
    reports_start (t := .command (.client e)) hShows
  have hReads : (a.reading (.command (.client e))).Reads
      a.host.disk := reads_reading rfl
  have hTurn : a.turn (.command (.client e)) =
      (a.clientEvent e).1 := rfl
  -- Messages may be for the application; the rest is not.
  by_cases hMessage : ∃ fs, e = .message fs
  · rcases hMessage with ⟨fs, rfl⟩
    refine tells_of_goes ?_
    rw [hTurn, clientEvent, hClient]
    dsimp only
    rw [answered_fst]
    exact (hReports.handleMessage hReads fs).goes
  · by_cases hOutput : ∃ bs, e = .output bs
    · rcases hOutput with ⟨bs, rfl⟩
      refine tells_of_goes ?_
      rw [hTurn, clientEvent, hClient]
      dsimp only
      rw [answered_fst]
      exact (hReports.readOutput hReads hClient bs).goes
    · have hAbsorb := clientEvent_eq_absorb hClient
        (fun fs h => hMessage ⟨fs, h⟩)
        (fun bs h => hOutput ⟨bs, h⟩)
      have hQuiet := a.host.quiet_absorb
        (c.step a.host.environment e).1
      have hLedger := a.host.ledger_absorb
        (c.step a.host.environment e).1
      rw [← hAbsorb] at hQuiet hLedger
      refine tells_of_quiet hShows hQuiet ?_ hLedger
      rw [← ledger_of_client hShows hClient]
      cases hFaults : e.faults with
      | true =>
          cases e with
          | writeFails fails => exact .fault rfl
          | _ => cases hFaults
      | false =>
          exact .move (Client.moves_step _ c _ hRules.1.1
            hLaunch hFaults hRules.1.2 hRules.2)

theorem tells_shutdown
    (hShows : a.host.Shows [] o) :
    ∃ q, a.Tells (.command .shutdown) o q := by
  have hTurn : a.turn (.command .shutdown) = a.shutdown :=
    congrArg Prod.fst (if_pos hShows.attached)
  have hTorn := Session.hushed_teardown (a := a)
  have hLedger : a.shutdown.host.ledger =
      some (if o.ledger.alive then
        { o.ledger with state := .stopping }
      else o.ledger.forget) := by
    refine (Desktop.ledger_onClient _ (g := fun l =>
      if l.alive then { l with state := .stopping }
      else l.forget) ?_).trans ?_
    · intro past c
      exact Client.ledger_stop past c
    · rw [hTorn.ledger, hShows.ledger]
      rfl
  rw [← hTurn] at hLedger
  refine tells_of_quiet hShows ?_ (.move ?_) hLedger
  · rw [hTurn]
    exact hTorn.toQuiet.trans (Desktop.quiet_onClient _ _)
  · split
    next hAlive => exact .stop hAlive
    next hDead =>
      exact .forget (Bool.eq_false_iff.mpr hDead)

/- Every command that is no launch tells what it should. -/
theorem tells_command
    (hShows : a.host.Shows [] o)
    {c : Command}
    (hProper : a.isProper (.command c) = true)
    (hLaunch : Turn.launches (.command c) = false) :
    ∃ q, a.Tells (.command c) o q := by
  have hStart : Goes (a.reading (.command c)) o a.host []
      a.host := .start hShows
  have hReports := reports_start (t := .command c) hShows
  have hReads : Turn.typed? (.command c) = none →
      (a.reading (.command c)).Reads a.host.disk :=
    reads_reading
  cases c with
  | client event => exact tells_client hShows hProper hLaunch
  | shutdown => exact tells_shutdown hShows
  | writeFile path bytes =>
      exact tells_of_disk hShows rfl
  | removeFile path =>
      exact tells_of_disk hShows rfl
  | pump =>
      refine tells_of_goes ?_
      change Goes _ _ _ _ (answered a.pump).1.host
      rw [answered_fst]
      exact goes_runTasks hStart (hReads rfl) _
  | openDocument uri region preserveFocus =>
      exact tells_of_goes
        (goes_openDocument hStart (hReads rfl) uri region
          preserveFocus)
  | reveal uri region preserveFocus =>
      exact tells_of_goes
        (hStart.hush (hushed_reveal uri region preserveFocus))
  | reload uri =>
      exact tells_of_goes
        (goes_reload hStart (hReads rfl) rfl)
  | close uri =>
      exact tells_of_goes (Session.goes_close hStart uri)
  | closeAll => exact tells_of_goes (goes_closeAll hStart)
  | setGuard guard =>
      exact tells_of_goes
        (hStart.hush (.of_eq rfl rfl rfl rfl rfl))
  | setDescriber describer =>
      exact tells_of_goes
        (hStart.hush (.of_eq rfl rfl rfl rfl rfl))
  | requestReport uri region preserveFocus =>
      exact tells_of_goes
        (hStart.hush (.of_eq rfl rfl rfl rfl rfl))
  | focus uri =>
      exact tells_of_goes (goes_onOpen hStart fun _ =>
        hStart.hush (hushed_activate
          (a.workspace.stage_focus uri)))
  | type uri typed =>
      refine tells_of_goes (goes_onOpen hStart fun hOpen => ?_)
      refine goes_textChanged hStart hOpen
        (g := (·.insert typed)) ?_ rfl
      intro x hx
      simp only [reading, givenBy, Turn.typed?, hx]
  | hover uri line tooltip =>
      refine tells_of_goes (goes_onOpen hStart fun _ => ?_)
      split
      · exact hStart.hush (hushed_hover uri line)
      · exact hStart
  | switchTab region index =>
      exact tells_of_goes (hStart.hush (hushed_activate
        (a.workspace.stage_switchTo region index)))
  | closeTab region index =>
      refine tells_of_goes ?_
      change Goes _ _ _ _ (a.closeTab region index).host
      unfold closeTab
      split
      · exact hStart
      · exact Session.goes_close hStart _
  | layOutSurface palette lineAlpha style =>
      refine tells_of_goes ?_
      change Goes _ _ _ _
        (a.layOutSurface palette lineAlpha style).1.host
      unfold layOutSurface
      split
      · exact hStart
      · exact hStart.hush (.of_eq rfl rfl rfl rfl rfl)
  | setEnabled enabled =>
      refine tells_of_goes (goes_byHand hStart fun s => ?_)
      unfold Desktop.setHandSurface
      split <;> exact .of_eq rfl rfl rfl rfl rfl
  | paint uri slot spans =>
      exact tells_of_goes (goes_byHand hStart fun s =>
        .paintOn s uri slot spans)
  | clearSelections uri =>
      exact tells_of_goes (goes_byHand hStart fun _ =>
        .decorate (.clear uri))
  | reverseSelections uri =>
      exact tells_of_goes (goes_needing hStart (hStart.hush
        (.workspace (Workspace.page?_onEditor uri _
          fun _ => rfl))))
  | showCompanion params =>
      exact tells_of_goes (goes_needing hStart
        (hReports.handleShow (hReads rfl) params).goes)
  | openPaths paths =>
      exact tells_of_goes (goes_needing hStart
        (goes_openPaths hStart (hReads rfl) paths))
  | showLegend rows =>
      exact tells_of_goes
        (goes_withLegend hStart rows fun e => .refl e)
  | emitLegend uri rows =>
      exact tells_of_goes
        (goes_withLegend hStart rows fun _ => .note rfl rfl)

/- Every turn that is no launch tells what it should. -/
theorem tells_turn
    (hShows : a.host.Shows [] o)
    (hProper : a.isProper t = true)
    (hLaunch : t.launches = false) :
    ∃ q, a.Tells t o q := by
  cases t with
  | command c => exact tells_command hShows hProper hLaunch
  | complete task =>
      exact tells_of_goes (goes_runTask
        (goes_dropTask (.start hShows)) (reads_reading rfl)
        task)

----
-- The beginning
----

/- The pairing was attached with a client that is new. -/
structure Listens
    (a : Application) : Prop where
  attached : a.host.attached = true
  client : ∃ errorText,
    a.host.client = some (listening (.new errorText))
  silent : Desktop.effects a.host.journal = []

theorem Listens.shows
    (h : a.Listens) :
    ∃ o errorText, a.host.Shows [] o ∧
      o.ledger = (Client.new errorText).ledgerOn [] := by
  rcases h.client with ⟨errorText, hClient⟩
  refine ⟨⟨a.host.workspace.page?, _⟩, errorText,
    ⟨h.attached, by simp, ?_⟩, rfl⟩
  rw [Desktop.ledger, hClient, h.silent]
  rfl

theorem listens_attach
    {b : Application}
    {s : SettingsStore}
    {errorText : String}
    (h : b.attach s (some (.new errorText)) = .ok a)
    (hSilent : Desktop.effects b.host.journal = []) :
    a.Listens := by
  rcases exists_of_bind_eq_ok h with ⟨surface, -, hNew⟩
  cases hNew
  exact ⟨rfl, ⟨errorText, rfl⟩, hSilent⟩

/- The application in a window that was just opened. -/
theorem listens_inWindow
    {d : Desktop}
    {s : SettingsStore}
    {errorText : String}
    (h : inWindow d s (some (.new errorText)) = .ok a)
    (hSilent : Desktop.effects d.journal = []) :
    a.Listens ∧ a.host.hasWindow = true := by
  rcases inWindow_eq_ok h with ⟨_, _, _, _, _, -, rfl⟩
  refine ⟨⟨rfl, ⟨errorText, rfl⟩, ?_⟩, rfl⟩
  refine Eq.trans ?_ hSilent
  exact (Desktop.effects_append _ _).trans (List.append_nil _)

/-
  The start of the application is a run: the documents of the
  command line are opened, and the backend is launched.
-/
theorem start_eq_turns
    {d : Desktop}
    {homes : Homes}
    {s : SettingsStore}
    {args : Arguments}
    {errorText : String}
    {b : Application}
    (h : start d homes s args (.new errorText) = .ok b)
    (hServer : args.noServer = false)
    (hSilent : Desktop.effects d.journal = []) :
    ∃ a : Application, a.Listens ∧ ∃ paths launch,
      b = a.turns [.command (.openPaths paths),
        .command (.client (.start launch))] := by
  unfold start at h
  rw [hServer] at h
  rcases exists_of_bind_eq_ok h with ⟨a, hWindow, hOpened⟩
  rcases exists_of_bind_eq_ok hOpened with
    ⟨paths, -, hStarted⟩
  rcases listens_inWindow hWindow hSilent with
    ⟨hListens, hHasWindow⟩
  have hFirst : a.turn (.command (.openPaths paths)) =
      (a.openPaths paths).1 := by
    unfold turn perform needing
    dsimp only
    rw [if_pos hHasWindow]
    rfl
  rcases hRun : a.openPaths paths with ⟨c, outcome⟩
  rw [hRun] at hFirst
  cases outcome with
  | error e =>
      rw [hRun] at hStarted
      cases hStarted
  | ok _ =>
      rw [hRun] at hStarted
      cases hStarted
      refine ⟨a, hListens, paths,
        s.launch c.host.disk.current, ?_⟩
      unfold turns
      rw [List.foldl_cons, hFirst]
      rfl

----
-- Sessions
----

/- The notes that the calls of a turn post. -/
def posts
    (a : Application)
    (t : Turn) : List (String × Note) :=
  match a.host.ledger with
  | none => []
  | some l => l.postsAll (a.calls t)

/- What is posted in the session after a turn. -/
def postedAfter
    (a : Application)
    (posted : List (String × Note))
    (t : Turn) : List (String × Note) :=
  if t.launches then [] else posted ++ a.posts t

/- The notes that a run posts since the last launch. -/
def postedSince
    (a : Application)
    (posted : List (String × Note))
    (ts : List Turn) : List (String × Note) :=
  match ts with
  | [] => posted
  | t :: rest =>
      (a.turn t).postedSince (a.postedAfter posted t) rest

/- The notices of the session after a turn. -/
def heardAfter
    (a : Application)
    (heard : List Notice)
    (t : Turn) : List Notice :=
  if t.launches then [] else heard ++ a.news t

/- The notices that a run gives since the last launch. -/
def heardSince
    (a : Application)
    (heard : List Notice)
    (ts : List Turn) : List Notice :=
  match ts with
  | [] => heard
  | t :: rest =>
      (a.turn t).heardSince (a.heardAfter heard t) rest

/-
  What is kept by launches, changes of phase, faults of some
  kind, and notices under some readings, of the notes and the
  notices of a session and an outline.  The versions agree
  with what was posted all the while.
-/
structure Kept
    (P : Reading → Prop)
    (W : Bool → Prop)
    (I : List (String × Note) → List Notice → Outline → Prop) :
    Prop where
  launch : ∀ {posted heard o}, I posted heard o →
    I [] [] { o with ledger := .launched o.ledger.fails }
  move : ∀ {posted heard o k}, o.ledger.Agrees posted →
    I posted heard o → o.ledger.Moves k →
    I posted heard { o with ledger := k }
  fault : ∀ {posted heard o v}, I posted heard o → W v →
    I posted heard
      { o with ledger := { o.ledger with fails := v } }
  hear : ∀ {r posted heard o n}, P r →
    o.ledger.Agrees posted → I posted heard o → o.Admits n →
    I (posted ++ o.notesOf r n) (heard ++ [n]) (o.hear r n)

namespace Kept

variable {P : Reading → Prop} {W : Bool → Prop}
variable
  {I : List (String × Note) → List Notice → Outline → Prop}
variable {posted : List (String × Note)} {heard : List Notice}

/-
  Notices in order keep it.  Greetings that are accepted in
  between show in no note that is posted.
-/
theorem follows
    (hKept : Kept P W I)
    {r : Reading}
    (hReading : P r)
    {ns : List Notice}
    {p : Outline}
    (hAgrees : o.ledger.Agrees posted)
    (hI : I posted heard o)
    (h : o.Follows r ns p) :
    let calls := ns.filterMap r.call?
    p.ledger.Agrees (posted ++ o.ledger.postsAll calls) ∧
      I (posted ++ o.ledger.postsAll calls) (heard ++ ns) p ∧
      (o.ledger.callAll calls).Alike p.ledger := by
  induction h with
  | start =>
      refine ⟨?_, ?_, rfl, rfl⟩
      · simpa [Ledger.postsAll] using hAgrees
      · simpa [Ledger.postsAll] using hI
  | greet _ ih =>
      rcases ih with ⟨hAgrees, hKeeps, hAlike⟩
      exact ⟨hAgrees.moves .greet,
        hKept.move hAgrees hKeeps .greet, hAlike.greeted⟩
  | @hear ns p n _ hAdmits ih =>
      rcases ih with ⟨hAgrees, hKeeps, hAlike⟩
      have hTold := Outline.agrees_hear r hAgrees n
      have hNext := hKept.hear hReading hAgrees hKeeps hAdmits
      rw [List.append_assoc] at hTold hNext
      cases hCall : r.call? n with
      | none =>
          have hNone : (ns ++ [n]).filterMap r.call? =
              ns.filterMap r.call? := by
            simp [hCall]
          have hNotes : p.notesOf r n = [] := by
            rw [Outline.notesOf, hCall]
            rfl
          rw [hNotes, List.append_nil] at hTold hNext
          rw [hNone, ← List.append_assoc]
          refine ⟨hTold, hNext, ?_⟩
          rw [Outline.hear, hCall]
          exact hAlike
      | some e =>
          have hSome : (ns ++ [n]).filterMap r.call? =
              ns.filterMap r.call? ++ [e] := by
            simp [hCall]
          have hNotes : p.notesOf r n =
              (o.ledger.callAll
                (ns.filterMap r.call?)).posts e := by
            rw [Outline.notesOf, hCall, ← hAlike.posts]
            rfl
          rw [hNotes, ← Ledger.postsAll_concat, ← hSome]
            at hTold hNext
          rw [← List.append_assoc]
          refine ⟨hTold, hNext, ?_⟩
          rw [Outline.hear, hCall, hSome, Ledger.callAll,
            List.foldl_append]
          exact hAlike.call e

/- Every proper turn keeps it. -/
theorem turn
    (hKept : Kept P W I)
    (hShows : a.host.Shows [] o)
    (hAgrees : o.ledger.Agrees posted)
    (hI : I posted heard o)
    (hProper : a.isProper t = true)
    (hReading : P (a.reading t))
    (hWrites : ∀ v, t.event? = some (.writeFails v) → W v) :
    ∃ q, (a.turn t).host.Shows [] q ∧
      q.ledger.Agrees (a.postedAfter posted t) ∧
      I (a.postedAfter posted t) (a.heardAfter heard t) q := by
  cases hLaunch : t.launches with
  | true =>
      refine ⟨_, shows_launch hShows hLaunch, ?_⟩
      rw [postedAfter, heardAfter, if_pos hLaunch,
        if_pos hLaunch]
      exact ⟨.launched _, hKept.launch hI⟩
  | false =>
      rcases tells_turn hShows hProper hLaunch with
        ⟨q, ns, p, k, hNs, hFollows, hShifts, rfl, hAfter⟩
      have hNews : a.news t = ns := by
        rw [news, hNs, List.drop_left]
      have hPosts : a.posts t = o.ledger.postsAll
          (ns.filterMap (a.reading t).call?) := by
        rw [posts, hShows.ledger, calls, hNews]
      refine ⟨_, hAfter, ?_⟩
      rw [postedAfter, heardAfter, hLaunch, hPosts, hNews]
      rcases hKept.follows hReading hAgrees hI hFollows with
        ⟨hAgrees, hTold, -⟩
      cases hShifts with
      | move hMoves =>
          exact ⟨hAgrees.moves hMoves,
            hKept.move hAgrees hTold hMoves⟩
      | fault hEvent =>
          exact ⟨hAgrees.of_same id id rfl,
            hKept.fault hTold (hWrites _ hEvent)⟩

/- Every proper run keeps it. -/
theorem turns
    (hKept : Kept P W I)
    (hShows : a.host.Shows [] o)
    (hAgrees : o.ledger.Agrees posted)
    (hI : I posted heard o)
    {ts : List Turn}
    (hProper : a.areProper ts = true)
    (hReading : ∀ k t, P ((a.turns (ts.take k)).reading t))
    (hWrites : ∀ t ∈ ts, ∀ v,
      t.event? = some (.writeFails v) → W v) :
    ∃ q, (a.turns ts).host.Shows [] q ∧
      q.ledger.Agrees (a.postedSince posted ts) ∧
      I (a.postedSince posted ts) (a.heardSince heard ts)
        q := by
  induction ts generalizing a o posted heard with
  | nil => exact ⟨o, hShows, hAgrees, hI⟩
  | cons t ts ih =>
      rw [areProper, Bool.and_eq_true] at hProper
      rw [List.forall_mem_cons] at hWrites
      rcases hKept.turn hShows hAgrees hI hProper.1
          (hReading 0 t) hWrites.1 with
        ⟨q, hNext, hAgreed, hKeeps⟩
      exact ih hNext hAgreed hKeeps hProper.2
        (fun k t => hReading (k + 1) t) hWrites.2

/- Every proper run of a new client keeps what held first. -/
theorem run
    (hKept : Kept P W I)
    (hListens : a.Listens)
    (hStart : ∀ o errorText,
      o.ledger = (Client.new errorText).ledgerOn [] →
      I [] [] o)
    {ts : List Turn}
    (hProper : a.areProper ts = true)
    (hReading : ∀ k t, P ((a.turns (ts.take k)).reading t))
    (hWrites : ∀ t ∈ ts, ∀ v,
      t.event? = some (.writeFails v) → W v) :
    ∃ q, (a.turns ts).host.Shows [] q ∧
      I (a.postedSince [] ts) (a.heardSince [] ts) q := by
  rcases hListens.shows with ⟨o, errorText, hShows, hNew⟩
  have hAgrees : o.ledger.Agrees [] := by
    rw [hNew]
    exact Client.agrees_new errorText
  rcases hKept.turns hShows hAgrees (hStart o errorText hNew)
      hProper hReading hWrites with ⟨q, hAfter, -, hKeeps⟩
  exact ⟨q, hAfter, hKeeps⟩

end Kept

/- While no write is refused, all that is posted is sent. -/
theorem kept_delivers :
    Kept (fun _ => True) (fun fails => fails = false)
      fun posted _ o => o.ledger.Delivers posted where
  launch h := by
    dsimp only
    rw [h.takes]
    exact .launched
  move hAgrees h hMoves := h.moves hAgrees hMoves
  fault h hWorks := ⟨hWorks, h.waits, h.ready, h.sent⟩
  hear {r posted heard o n} _ hAgrees h _ := by
    unfold Outline.hear Outline.notesOf
    cases r.call? n with
    | none => simpa using h
    | some e => exact h.call hAgrees e

theorem delivers_turns
    (hListens : a.Listens)
    {ts : List Turn}
    (hProper : a.areProper ts = true)
    (hWrites : ∀ t ∈ ts, t.event? ≠ some (.writeFails true))
    {c : Client}
    (hClient : (a.turns ts).host.client = some c) :
    (c.ledgerOn (Desktop.effects (a.turns ts).host.journal)
      ).Delivers (a.postedSince [] ts) := by
  have hNew : ∀ (o : Outline) (errorText : String),
      o.ledger = (Client.new errorText).ledgerOn [] →
      o.ledger.Delivers [] := by
    intro o errorText hNew
    rw [hNew]
    exact Client.delivers_new errorText
  have hWorks : ∀ t ∈ ts, ∀ fails,
      t.event? = some (.writeFails fails) → fails = false := by
    intro t ht fails hEvent
    cases fails with
    | false => rfl
    | true => exact absurd hEvent (hWrites t ht)
  rcases kept_delivers.run hListens hNew hProper
      (fun _ _ => trivial) hWorks with ⟨q, hAfter, hSends⟩
  rw [ledger_of_client hAfter hClient]
  exact hSends

----
-- A site with a backend
----

/- The pairing over the site, with a backend. -/
def workbench : Application :=
  studio.onDesktop fun d =>
    { d with client := some (listening (.new "")) }

theorem workbench_listens :
    workbench.Listens := by
  have hStart :
      Application.attach (.new 0 (.new site []))
        (.new "/settings.json" Settings.appDefaults)
        (some (.new "")) = .ok workbench := rfl
  exact listens_attach hStart rfl

/- The backend is launched and accepts the greeting. -/
def meeting
    (id : Int) : List Turn :=
  [.command (.client (.start .default)),
    .command (.client .started),
    .command (.client
      (.message [("id", .int id), ("result", .null)]))]

/- The page is opened. -/
def visitPage : Turn :=
  .command (.openDocument "file:///index.html" .primary false)

end Application

end StyleCompanion
