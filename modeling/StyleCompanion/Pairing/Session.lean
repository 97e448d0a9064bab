import StyleCompanion.Pairing.Host

/-
  Keeping primaries paired with their companions.

  A session joins the pair registry, the latest models, the
  overlay engine and the editor.  A request to show a
  companion reuses the pair of the primary, takes over a
  companion that serves another primary, or opens the
  companion.  An opening that is not wanted any more when it
  completes closes its document again.

  Closing a primary closes its companion, which may itself be
  a primary.  Every such step uses up a pair, so the chain
  ends.

  Key definitions include:
    * `Session`
    * `Session.reconcile`
    * `Session.activeViewChanged`
    * `Session.releaseClosed`
    * `Session.close`
    * `Session.documentClosed`
    * `Session.companionEdited`
    * `Session.showCompanion`
    * `Session.companionOpened`
    * `Session.placementFor`
    * `Session.teardown`
-/

namespace StyleCompanion

namespace Pairing

open Attribution

/- The state of the pairing over an editor. -/
structure Session (H : Type) where
  registry : PairRegistry
  models : Table String Model
  engine : Overlay.Engine
  host : H

namespace Session

variable {H : Type} [Host H]

----
-- Small steps
----

/- A session without pairs. -/
def new
    {H : Type}
    (paletteSize : Nat)
    (host : H) : Session H :=
  ⟨.new, [], .new paletteSize, host⟩

/- Log a record. -/
def log
    (s : Session H)
    (r : LogRecord) : Session H :=
  { s with host := Host.log s.host r }

/- Log a text at a level that is off by default. -/
def debug
    (s : Session H)
    (text : String) : Session H :=
  s.log (.debug text)

/- Log a text about the normal course of things. -/
def info
    (s : Session H)
    (text : String) : Session H :=
  s.log (.info text)

/- Log a text about something unexpected. -/
def warn
    (s : Session H)
    (text : String) : Session H :=
  s.log (.warning text)

/- Carry out what the engine wants done. -/
def decorate
    (s : Session H)
    (effects : List Overlay.Effect) : Session H :=
  { s with host := effects.foldl Host.decorate s.host }

/- Render a model on a view. -/
def render
    (s : Session H)
    (view : String)
    (m : Model) : Session H :=
  let r := s.engine.render view m (Host.lineCount s.host view)
  ({ s with engine := r.1 }).decorate r.2.1

/- Clear a view. -/
def clearView
    (s : Session H)
    (view : String) : Session H :=
  let r := s.engine.clear view (Host.lineCount s.host view)
  ({ s with engine := r.1 }).decorate r.2

/- Change the size of the palette. -/
def setPaletteSize
    (s : Session H)
    (size : Nat) : Session H :=
  let r :=
    s.engine.setPaletteSize (Host.lineCount s.host) size
  ({ s with engine := r.1 }).decorate r.2

/- Keep a model as the latest of a companion. -/
def keepModel
    {H : Type}
    (s : Session H)
    (companion : String)
    (m : Model) : Session H :=
  { s with models := Table.insert s.models companion m }

/- Forget the latest model of a companion. -/
def dropModel
    {H : Type}
    (s : Session H)
    (companion : String) : Session H :=
  { s with models := Table.erase s.models companion }

/- Register a pair. -/
def register
    {H : Type}
    (s : Session H)
    (primary companion : String) : Session H :=
  { s with registry := s.registry.register primary companion }

/- Remove a pair with all that is kept for its companion. -/
def dropPair
    {H : Type}
    (s : Session H)
    (pair : DocumentPair) : Session H :=
  { s with
    registry := s.registry.remove pair.primary
    engine := s.engine.forget pair.companion
    models := Table.erase s.models pair.companion }

----
-- Reconciliation
----

/- Unpair a primary whose companion is not present. -/
def unpairVanished
    (present : List String)
    (s : Session H)
    (pair : DocumentPair) : Session H :=
  if pair.companion ∈ present then s
  else
    (s.info
      ("Companion " ++ pair.companion ++
        " vanished; unpairing " ++ pair.primary)
      ).dropPair pair

/- Drop the pairs whose companions have vanished. -/
def reconcile
    (s : Session H) : Session H :=
  s.registry.pairList.foldl
    (unpairVanished (Host.documentsIn s.host .secondary)) s

/- A document was opened. -/
def documentOpened
    (s : Session H) : Session H :=
  s.reconcile

----
-- Focus
----

/- A primary has the focus: bring its companion forward. -/
def primaryFocused
    (s : Session H)
    (pair : DocumentPair) : Session H :=
  if Host.activeIn s.host .secondary = some pair.companion
  then s
  else
    { s with
      host := Host.reveal s.host pair.companion .secondary }

/- A companion has the focus: bring its primary forward. -/
def companionFocused
    (s : Session H)
    (pair : DocumentPair) : Session H :=
  if Host.isVisible s.host pair.primary then s
  else
    { s with
      host := Host.reveal s.host pair.primary .primary }

/- Another document has the focus. -/
def activeViewChanged
    (s : Session H)
    (uri : String) : Session H :=
  let s₁ := s.reconcile
  match s₁.registry.pairForPrimary uri with
  | some pair => s₁.primaryFocused pair
  | none =>
      match s₁.registry.pairForCompanion uri with
      | some pair => s₁.companionFocused pair
      | none => s₁

/- Let the editor have the last word on an event. -/
def settle
    (s : Session H)
    (e : HostEvent) : Session H :=
  { s with host := Host.settled s.host s.engine e }

----
-- Closing
----

/-
  A primary was closed.  Gives the companion that has to be
  closed after it.
-/
def releasePrimary
    (s : Session H)
    (uri : String) : Session H × Option String :=
  let r := s.registry.cancelOpen uri
  let s₁ := { s with registry := r.1 }
  let s₂ :=
    if r.2.isSome then
      s₁.debug
        ("Cancelled in-flight companion open for " ++ uri)
    else s₁
  match s₂.registry.pairForPrimary uri with
  | none =>
      (s₂.debug
        ("Primary " ++ uri ++ " closed without a pair"), none)
  | some pair => (s₂.dropPair pair, some pair.companion)

/- A companion was closed. -/
def companionClosed
    (s : Session H)
    (uri : String) : Session H :=
  match s.registry.pairForCompanion uri with
  | none =>
      s.debug
        ("Companion " ++ uri ++ " closed without a pair")
  | some pair => s.dropPair pair

/-
  A document was closed.  Gives the companion that has to be
  closed after it.
-/
def releaseClosed
    (s : Session H)
    (uri : String) : Session H × Option String :=
  if (s.registry.pairForPrimary uri).isSome ||
      (s.registry.pendingFor uri).isSome then
    s.releasePrimary uri
  else if (s.registry.pairForCompanion uri).isSome then
    (s.companionClosed uri, none)
  else
    (s.debug ("Close of " ++ uri ++ " matches no pair"), none)

/- Another document became active while one was closed. -/
def noticeActivated
    (s : Session H)
    (activated : Option (String × Region)) : Session H :=
  match activated with
  | none => s
  | some (uri, region) =>
      (s.activeViewChanged uri).settle (.activated uri region)

/-
  Close a document and, if the closing is reported, follow the
  chain of pairs, for at most some steps.
-/
def closeWithin
    (fuel : Nat)
    (s : Session H)
    (uri : String) : Session H :=
  match fuel with
  | 0 => s
  | n + 1 =>
      let r := Host.close s.host uri
      let s₁ :=
        ({ s with host := r.host }).noticeActivated r.activated
      if r.reported then
        let q := s₁.releaseClosed uri
        let s₂ :=
          match q.2 with
          | none => q.1
          | some companion => closeWithin n q.1 companion
        s₂.settle (.closed uri)
      else s₁

/-
  Close a document with all that hangs on it.  No chain has
  more steps than there are pairs.
-/
def close
    (s : Session H)
    (uri : String) : Session H :=
  closeWithin (s.registry.size + 1) s uri

/- Close a companion that was released, if there is one. -/
def closeReleased
    (r : Session H × Option String) : Session H :=
  match r.2 with
  | none => r.1
  | some companion => r.1.close companion

/- The editor reports that a document was closed. -/
def documentClosed
    (s : Session H)
    (uri : String) : Session H :=
  closeReleased (s.releaseClosed uri)

/- The editor reports that a primary was closed. -/
def primaryClosed
    (s : Session H)
    (uri : String) : Session H :=
  closeReleased (s.releasePrimary uri)

----
-- Edits and refreshes
----

/- The text of a companion changed: its model is outdated. -/
def companionEdited
    (s : Session H)
    (uri : String) : Session H :=
  if !s.engine.hasRender uri then s
  else
    ((s.debug
      ("Companion " ++ uri ++
        " changed; discarding its attribution model")
      ).dropModel uri).clearView uri

/-
  Read a companion again and render a model on it.  The
  reading may report a change of the text, so the model is
  kept after it.
-/
def refreshAndRender
    (s : Session H)
    (companion : String)
    (m : Model) : Session H × Option Failure :=
  match Host.refresh s.host companion with
  | .failed h e => ({ s with host := h }, some e)
  | .done h edited =>
      let s₁ := { s with host := h }
      let s₂ :=
        if edited then
          (s₁.companionEdited companion).settle
            (.edited companion)
        else s₁
      ((s₂.keepModel companion m).render companion m, none)

----
-- Showing companions
----

/- Give up the opening of another companion. -/
def supersede
    (s : Session H)
    (primary companion : String)
    (p : PendingOpen) : Session H :=
  let s₁ := s.info
    ("Companion for " ++ primary ++ " changed from " ++
      p.companion ++ " to " ++ companion ++ " mid-open")
  { s₁ with
    registry := (s₁.registry.cancelOpen primary).1
    models := Table.erase s₁.models p.companion }

/- Begin to open a companion. -/
def beginOpening
    (s : Session H)
    (primary companion : String) : Session H :=
  let r := s.registry.beginOpen primary companion
  let s₁ := { s with registry := r.1 }
  match r.2 with
  | none => s₁
  | some p =>
      let s₂ := s₁.debug
        ("Opening companion " ++ companion ++ " for " ++
          primary)
      { s₂ with host := Host.requestOpen s₂.host p }

/- Open a companion unless it is being opened already. -/
def openCompanion
    (s : Session H)
    (primary companion : String) : Session H :=
  match s.registry.pendingFor primary with
  | none => s.beginOpening primary companion
  | some p =>
      if p.companion = companion then
        s.debug
          ("Open of " ++ companion ++
            " already in flight for " ++ primary)
      else
        (s.supersede primary companion p).beginOpening
          primary companion

/- Move a companion from the primary it serves to another. -/
def takeOver
    (s : Session H)
    (primary : String)
    (shared : DocumentPair) : Session H :=
  let companion := shared.companion
  let s₁ := s.info
    ("Companion " ++ companion ++ " moves from " ++
      shared.primary ++ " to " ++ primary)
  let registry :=
    (s₁.registry.remove shared.primary).register
      primary companion
  { s₁ with
    registry := registry
    host := Host.reveal s₁.host companion .secondary }

/- Show a companion to a primary that has no pair. -/
def showUnpaired
    (s : Session H)
    (primary companion : String)
    (m : Model) : Session H × Option Failure :=
  match s.registry.pairForCompanion companion with
  | some shared =>
      (s.takeOver primary shared).refreshAndRender companion m
  | none => (s.openCompanion primary companion, none)

/- Part a primary from a companion it does not want. -/
def replacePair
    (s : Session H)
    (pair : DocumentPair)
    (companion : String) : Session H :=
  let s₁ := s.info
    ("Companion for " ++ pair.primary ++ " changed from " ++
      pair.companion ++ " to " ++ companion)
  (s₁.dropPair pair).close pair.companion

/- Show a companion to a primary. -/
def showFor
    (s : Session H)
    (primary companion : String)
    (m : Model) : Session H × Option Failure :=
  let s₁ := s.reconcile.keepModel companion m
  match s₁.registry.pairForPrimary primary with
  | none => s₁.showUnpaired primary companion m
  | some pair =>
      if pair.companion = companion then
        s₁.refreshAndRender companion m
      else
        (s₁.replacePair pair companion).showUnpaired
          primary companion m

/- The primary that a request is for. -/
def primaryFor
    (s : Session H)
    (given : Option String) : String :=
  match given with
  | some uri =>
      if uri.isEmpty then
        (Host.activeIn s.host .primary).getD ""
      else uri
  | none => (Host.activeIn s.host .primary).getD ""

/-
  Show a companion with a model, to a given primary or else to
  the active one.
-/
def showCompanion
    (s : Session H)
    (uri : String)
    (m : Model)
    (given : Option String) : Session H × Option Failure :=
  let companion := Text.trim uri
  if companion.isEmpty then
    (s.warn "Ignoring companion request without a uri", none)
  else
    let primary := s.primaryFor given
    if primary.isEmpty then
      (s.warn
        ("No active primary document for companion " ++
          companion), none)
    else s.showFor primary companion m

/- An opening completed, with or without success. -/
def companionOpened
    (s : Session H)
    (p : PendingOpen)
    (ok : Bool) : Session H :=
  let r := s.registry.finishOpen p
  let s₁ := { s with registry := r.1 }
  if !ok then
    (s₁.warn
      ("Host failed to open companion " ++ p.companion)
      ).dropModel p.companion
  else if !r.2 || !Host.isOpen s₁.host p.primary then
    ((s₁.info
      ("Closing orphaned companion " ++ p.companion ++ "; " ++
        p.primary ++ " no longer wants it")
      ).dropModel p.companion).close p.companion
  else
    let s₂ := s₁.register p.primary p.companion
    match Table.get? s₂.models p.companion with
    | none => s₂
    | some m => s₂.render p.companion m

----
-- Placement and teardown
----

/- Where a document goes: only companions are secondary. -/
def placementFor
    {H : Type}
    (s : Session H)
    (uri : String)
    (requested : Region) : Region :=
  if requested = .secondary ∧ ¬ s.registry.isCompanion uri
  then .primary
  else requested

/- Clear all companions and forget everything. -/
def teardown
    (s : Session H) : Session H :=
  let s₁ := s.registry.pairList.foldl
    (fun s pair => s.clearView pair.companion) s
  { s₁ with
    registry := s₁.registry.clear
    models := [] }

end Session

end Pairing

end StyleCompanion
