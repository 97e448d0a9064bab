/-
  Tabs of one region.

  The pages of a region stand in order, and one of them is
  current unless there are none.  Each operation says whether
  the current page has to be looked at again.

  Key definitions include:
    * `Tabs`
    * `Tabs.add`
    * `Tabs.remove`
    * `Tabs.switchTo`
-/

namespace StyleCompanion

namespace Workspace

/- Pages by uri, and the current one. -/
structure Tabs where
  pages : List String
  current : Option String
  deriving DecidableEq, Repr

namespace Tabs

/- Tabs without pages. -/
def empty : Tabs := ⟨[], none⟩

/- Add a page at the end.  The first page becomes current. -/
def add
    (t : Tabs)
    (uri : String) : Tabs :=
  { pages := t.pages ++ [uri]
    current := if t.pages.isEmpty then some uri else t.current }

/- Make a page current. -/
def bringForward
    (t : Tabs)
    (uri : String) : Tabs :=
  if uri ∈ t.pages then { t with current := some uri } else t

/-
  The page that follows a page which goes: its right
  neighbour, or else its left one.
-/
def successor
    (pages : List String)
    (uri : String) : Option String :=
  let i := pages.idxOf uri
  match pages[i + 1]? with
  | some next => some next
  | none => if i = 0 then none else pages[i - 1]?

/- Whether a page stands at or before the current one. -/
def reachesCurrent
    (t : Tabs)
    (uri : String) : Bool :=
  match t.current with
  | none => false
  | some page => decide (t.pages.idxOf uri ≤ t.pages.idxOf page)

/-
  Remove a page; says whether the current page has changed its
  place or is another one.
-/
def remove
    (t : Tabs)
    (uri : String) : Tabs × Bool :=
  if uri ∈ t.pages then
    ({ pages := t.pages.erase uri
       current :=
        if t.current = some uri then successor t.pages uri
        else t.current },
      t.reachesCurrent uri)
  else (t, false)

/- Go to the page at an index; says whether that changed it. -/
def switchTo
    (t : Tabs)
    (index : Nat) : Tabs × Bool :=
  match t.pages[index]? with
  | none => (t, false)
  | some uri =>
      if t.current = some uri then (t, false)
      else ({ t with current := some uri }, true)

end Tabs

end Workspace

end StyleCompanion
