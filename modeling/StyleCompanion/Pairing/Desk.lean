import StyleCompanion.Pairing.Session

/-
  A desk: an editor without a screen.

  Each region of a desk is a shelf of documents, one of which
  may be active.  A desk keeps the openings it was asked for
  until they are completed by hand, and notes down what it was
  told to do.  A reporting desk tells the pairing about
  documents that open, change and close; a silent one does
  not.

  Key definitions include:
    * `Shelf`
    * `Desk`
    * `Desk.takeOut`
    * `Session.complete`
-/

namespace StyleCompanion

namespace Pairing

----
-- Shelves
----

/- The documents of a region and the active one. -/
structure Shelf where
  documents : List String
  active : Option String
  deriving DecidableEq, Repr

namespace Shelf

/- A shelf without documents. -/
def empty : Shelf := ⟨[], none⟩

/- Put a document on a shelf, at its end if it is new. -/
def add
    (s : Shelf)
    (uri : String)
    (active : Bool) : Shelf :=
  { documents :=
      if uri ∈ s.documents then s.documents
      else s.documents ++ [uri]
    active := if active then some uri else s.active }

/-
  Take a document off a shelf.  The last of the others becomes
  active in place of an active document.
-/
def remove
    (s : Shelf)
    (uri : String) : Shelf :=
  let rest := s.documents.erase uri
  { documents := rest
    active :=
      if s.active = some uri then rest.getLast?
      else s.active }

end Shelf

----
-- Desks
----

/- What a desk was told to do. -/
inductive DeskCall where
  | openLater (uri : String)
  | reveal (uri : String) (region : Region)
  | refresh (uri : String)
  | close (uri : String)
  deriving DecidableEq, Repr

/- A desk. -/
structure Desk where
  primary : Shelf
  secondary : Shelf
  opens : List PendingOpen
  counts : Table String Int
  reloads : Table String Int
  reporting : Bool
  calls : List DeskCall
  painted : List Overlay.Effect
  records : List LogRecord

namespace Desk

/- A desk without documents. -/
def new
    (reporting : Bool) : Desk :=
  { primary := .empty
    secondary := .empty
    opens := []
    counts := []
    reloads := []
    reporting := reporting
    calls := []
    painted := []
    records := [] }

/- The shelf of a region. -/
def shelf
    (d : Desk)
    (region : Region) : Shelf :=
  match region with
  | .primary => d.primary
  | .secondary => d.secondary

/- Change the shelf of a region. -/
def onShelf
    (d : Desk)
    (region : Region)
    (f : Shelf → Shelf) : Desk :=
  match region with
  | .primary => { d with primary := f d.primary }
  | .secondary => { d with secondary := f d.secondary }

/- The region of a document. -/
def regionOf
    (d : Desk)
    (uri : String) : Option Region :=
  if uri ∈ d.primary.documents then some .primary
  else if uri ∈ d.secondary.documents then some .secondary
  else none

/- Put a document into a region. -/
def add
    (d : Desk)
    (uri : String)
    (region : Region)
    (active : Bool) : Desk :=
  d.onShelf region (·.add uri active)

/- Take a document out of its region. -/
def takeOut
    (d : Desk)
    (uri : String) : Desk :=
  match d.regionOf uri with
  | none => d
  | some region => d.onShelf region (·.remove uri)

/- Note down a call. -/
def note
    (d : Desk)
    (c : DeskCall) : Desk :=
  { d with calls := d.calls ++ [c] }

/- Set or remove the number of lines of a document. -/
def setCount
    (d : Desk)
    (uri : String)
    (count : Option Int) : Desk :=
  { d with
    counts :=
      match count with
      | some n => Table.insert d.counts uri n
      | none => Table.erase d.counts uri }

/- The next refresh of a document finds that many lines. -/
def prepareReload
    (d : Desk)
    (uri : String)
    (count : Int) : Desk :=
  { d with reloads := Table.insert d.reloads uri count }

/- Make a document active where it is. -/
def reveal
    (d : Desk)
    (uri : String)
    (region : Region) : Desk :=
  let d₁ := d.note (.reveal uri region)
  match d₁.regionOf uri with
  | none => d₁
  | some r =>
      d₁.onShelf r fun s => { s with active := some uri }

/- Read a document again. -/
def refresh
    (d : Desk)
    (uri : String) : Refresh Desk :=
  let d₁ := d.note (.refresh uri)
  match Table.get? d₁.reloads uri with
  | none => .done d₁ false
  | some n =>
      .done
        (({ d₁ with reloads := Table.erase d₁.reloads uri }
          ).setCount uri (some n))
        d₁.reporting

/- Close a document. -/
def close
    (d : Desk)
    (uri : String) : Removal Desk :=
  let d₁ := d.note (.close uri)
  let reported := (d₁.regionOf uri).isSome && d₁.reporting
  let d₂ := d₁.takeOut uri
  { host := if reported then d₂.setCount uri none else d₂
    activated := none
    reported := reported }

/- Note down what the overlay wants done. -/
def decorate
    (d : Desk)
    (e : Overlay.Effect) : Desk :=
  match e with
  | .log r => { d with records := d.records ++ [r] }
  | .rendered _ _ => d
  | e => { d with painted := d.painted ++ [e] }

/- Forget what was noted down. -/
def forgetNotes
    (d : Desk) : Desk :=
  { d with calls := [], painted := [], records := [] }

instance : Host Desk where
  documentsIn d region := (d.shelf region).documents
  activeIn d region := (d.shelf region).active
  isOpen d uri := (d.regionOf uri).isSome
  isVisible d uri :=
    match d.regionOf uri with
    | none => false
    | some region => (d.shelf region).active == some uri
  lineCount d uri := Table.get? d.counts uri
  log d r := { d with records := d.records ++ [r] }
  decorate := decorate
  requestOpen d p :=
    { d.note (.openLater p.companion) with
      opens := d.opens ++ [p] }
  reveal := reveal
  refresh := refresh
  close := close
  settled d _ _ := d

end Desk

----
-- Openings
----

namespace Session

/- A companion appears on a desk. -/
def placeOpened
    (s : Session Desk)
    (companion : String)
    (lines : Option Int) : Session Desk :=
  let d :=
    match lines with
    | some n => s.host.setCount companion (some n)
    | none => s.host
  match d.regionOf companion with
  | some region =>
      { s with host := d.add companion region true }
  | none =>
      let region :=
        if d.reporting then s.placementFor companion .secondary
        else .secondary
      let s₁ := { s with host := d.add companion region true }
      if d.reporting then s₁.documentOpened else s₁

/-
  Complete one of the openings that a desk was asked for; says
  whether there was one.
-/
def complete
    (s : Session Desk)
    (index : Nat)
    (ok : Bool)
    (lines : Option Int) : Session Desk × Bool :=
  match s.host.opens[index]? with
  | none => (s, false)
  | some p =>
      let d := { s.host with opens := s.host.opens.eraseIdx index }
      let s₁ := { s with host := d }
      let s₂ :=
        if ok then s₁.placeOpened p.companion lines else s₁
      (s₂.companionOpened p ok, true)

end Session

end Pairing

end StyleCompanion
