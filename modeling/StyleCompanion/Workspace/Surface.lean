import StyleCompanion.Settings.Schema
import StyleCompanion.Workspace.Basic

/-
  The surface on which the overlay paints.

  An owner slot tints its lines in a colour of the palette,
  and the slot of overwritten lines strikes them through or
  slants them.  Lines that an editor does not have are left
  out.

  Key definitions include:
    * `Surface`
    * `Surface.build`
    * `Surface.colorFor`
    * `Surface.paint`
-/

namespace StyleCompanion

namespace Workspace

/- How the overlay is painted. -/
structure Surface where
  palette : List String
  lineAlpha : Int
  slantOverwritten : Bool
  enabled : Bool
  deriving DecidableEq, Repr

/- The name of a colour that a text does not describe. -/
def blackName : String := "#000000"

/-
  The name of a colour: a hash sign and six small digits.
  Eight digits begin with an opacity, which is not named.
-/
def colorName
    (text : String) : String :=
  match text.toList with
  | '#' :: digits =>
      if !digits.all Settings.isHexDigit then blackName
      else if digits.length = 6 then Text.lower text
      else if digits.length = 8 then
        Text.lower (String.ofList ('#' :: digits.drop 2))
      else blackName
  | _ => blackName

namespace Surface

/-
  A surface from its options.  Without colours it takes the
  default palette.
-/
def build
    (palette lineAlpha overwrittenStyle : Json) :
    Outcome Surface := do
  let colors ← Settings.listed palette
  let alpha ← lineAlpha.integer
  let names := colors.map Json.text
  return {
    palette :=
      (if names.isEmpty then Overlay.defaultPalette
        else names).map colorName
    lineAlpha := Settings.clamp 0 255 alpha
    slantOverwritten :=
      overwrittenStyle.same (.str "italic")
    enabled := true }

/- The surface with default options. -/
def default : Surface :=
  { palette := Overlay.defaultPalette.map colorName
    lineAlpha := 56
    slantOverwritten := false
    enabled := true }

/- The number of colours. -/
def paletteSize
    (s : Surface) : Nat :=
  s.palette.length

/- The colour of a palette index, going round. -/
def colorAt
    (s : Surface)
    (index : Int) : Option Color :=
  (s.palette[(index % (s.palette.length : Int)).toNat]?).map
    fun name => ⟨name, s.lineAlpha⟩

/- The colour of a slot. -/
def colorFor
    (s : Surface)
    (slot : String) : Option Color :=
  match Overlay.paletteIndexOf slot with
  | none => none
  | some index => s.colorAt index

/- The colour of a slot given as any value. -/
def colorForValue
    (s : Surface)
    (slot : Json) : Option Color :=
  match Overlay.paletteIndexOfValue slot with
  | none => none
  | some index => s.colorAt index

/- The blocks of an editor that spans cover, in their order. -/
def coveredBlocks
    (e : Editor)
    (spans : List Overlay.LineSpan) :
    List (Nat × List Char) :=
  let numbered := e.blocks.zipIdx.map fun p => (p.2, p.1)
  spans.flatMap fun span =>
    numbered.filter fun p =>
      decide (span.first ≤ (p.1 : Int)) &&
        decide ((p.1 : Int) ≤ span.last)

/- Selections that tint lines. -/
def tint
    (e : Editor)
    (spans : List Overlay.LineSpan)
    (color : Color) : List Selection :=
  (coveredBlocks e spans).map fun p =>
    ⟨p.1, "", .tinted color⟩

/- Selections that mark lines as overwritten. -/
def mark
    (s : Surface)
    (e : Editor)
    (spans : List Overlay.LineSpan) : List Selection :=
  (coveredBlocks e spans).map fun p =>
    ⟨p.1, String.ofList p.2,
      if s.slantOverwritten then .slanted else .struck⟩

/- The selections of a slot, if it is a slot. -/
def selectionsFor
    (s : Surface)
    (e : Editor)
    (slot : String)
    (spans : List Overlay.LineSpan) :
    Option (List Selection) :=
  if slot = Overlay.overwrittenSlot then
    some (s.mark e spans)
  else (s.colorFor slot).map (tint e spans)

/- Paint a slot on a document. -/
def paint
    (s : Surface)
    (w : Workspace)
    (uri slot : String)
    (spans : List Overlay.LineSpan) :
    Workspace × List LogRecord :=
  if !s.enabled then (w, [])
  else
    match w.editor? uri with
    | none =>
        (w,
          [.debug
            ("Paint of " ++ slot ++ " skipped; " ++ uri ++
              " is not open")])
    | some e =>
        match s.selectionsFor e slot spans with
        | none =>
            (w, [.warning ("Unknown overlay slot " ++ slot)])
        | some ss => (w.onEditor uri (·.addSelections ss), [])

end Surface

end Workspace

end StyleCompanion
