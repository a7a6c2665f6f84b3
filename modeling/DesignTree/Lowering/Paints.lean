import DesignTree.Lowering.Run
import DesignTree.Node.Properties
import DesignTree.Widget.Basic

/-! # The paints of a widget

Fills come from the colours of the styling, or else from the decoration; a frame without either has
a white fill that is not seen. A malformed colour paints nothing and is recorded, unless it comes
from the theme, which may still give it a value.
-/

namespace DesignTree.Widget

/-- The colour properties that fill. -/
def fillProperties : List Text := ["backgroundColor", "color"]

/-- The colour properties that stroke. -/
def strokeProperties : List Text := ["borderColor"]

/-- The colour of a text, and what is recorded about a widget if it is malformed. -/
def readColor (id : Text) (themed : Bool) (value : Text) : Option Rgb × Diagnostics :=
  match Rgb.ofHex value with
  | .ok c => (some c, [])
  | .error e => (none, if themed then [] else [.warning .style e.userMessage id])

/-- Whether a colour entry fills a node with something that can be seen. -/
def isFillEntry (c : ColorEntry) : Bool :=
  fillProperties.contains c.property && c.value != "transparent"

/-- The colours of several entries, and what is recorded about the malformed ones. -/
def entryPaints (id : Text) : List ColorEntry → List Paint × Diagnostics
  | [] => ([], [])
  | c :: rest =>
    let (paints, diagnostics) := entryPaints id rest
    if isFillEntry c then
      let (color, own) := readColor id c.isThemeReference c.value
      ((color.map Paint.solid).toList ++ paints, own ++ diagnostics)
    else (paints, diagnostics)

/-- The paints of a plain colour. -/
def plainPaints (id value : Text) : List Paint × Diagnostics :=
  let (color, diagnostics) := readColor id false value
  ((color.map Paint.solid).toList, diagnostics)

/-- The places of a gradient's colours: those that it gives, or places at equal distances. -/
def gradientPlaces (g : Gradient) : List Number :=
  let count := g.colors.length
  match g.stops with
  | some (stop :: stops) => stop :: stops
  | _ =>
    (List.range count).map fun (i : Nat) =>
      if 1 < count then .float (Double.ofRat (mkRat (i : Int) (count - 1))) else 0

/-- A stop of a gradient. An integer beyond the doubles is no place. -/
def gradientStop (place : Number) (color : Rgb) : Except Fault GradientStop :=
  if place.fitsDouble then .ok ⟨place.toDouble, color⟩
  else .error (.rejected ⟨"GradientStop", [⟨["position"], .notNumber⟩]⟩)

/-- The paint of a gradient, unless one of its colours is malformed. -/
def gradientPaint (id : Text) (g : Gradient) : Except Fault (Option Paint) × Diagnostics :=
  let read := g.colors.map (readColor id false)
  let diagnostics := read.flatMap (·.2)
  match read.mapM (·.1) with
  | none => (.ok none, diagnostics)
  | some colors =>
    let stops := ((gradientPlaces g).zip colors).mapM fun (place, color) => gradientStop place color
    let kind := if g.kind = .radial then "GRADIENT_RADIAL" else "GRADIENT_LINEAR"
    (stops.map fun stops => some { kind, gradientStops := some stops }, diagnostics)

/-- The paints of a decoration: its colour, and its gradient above it. -/
def decorationPaints (id : Text) (d : Decoration) : InRun (List Paint) := do
  let (plain, diagnostics) :=
    match d.color with
    | some value => if value.isEmpty then ([], []) else plainPaints id value
    | none => ([], [])
  InRun.record diagnostics
  match d.gradient with
  | some g =>
    if g.colors.isEmpty then return plain
    let (paint, diagnostics) := gradientPaint id g
    InRun.record diagnostics
    return plain ++ (← InRun.lift paint).toList
  | none => return plain

/-- A white fill that is not seen. -/
def unseen : Paint := .solid .white (.ofInt 0)

/-- The fills of a frame or a rectangle. -/
def fills (w : Widget) : InRun (List Paint) := do
  let (paints, diagnostics) := entryPaints w.id w.styling.colors
  InRun.record diagnostics
  if !paints.isEmpty then return paints
  match w.properties.decoration with
  | some d =>
    let paints ← decorationPaints w.id d
    return if paints.isEmpty then [unseen] else paints
  | none => return [unseen]

/-- Whether a border has a width above zero and a colour. -/
def isDrawn (b : Border) : Bool :=
  (match b.width with
    | some width => !width.isZero && !width.atMost 0
    | none => false) && isFilled b.color

/-- The strokes of a frame or a rectangle. -/
def strokes (w : Widget) : InRun (List Paint) := do
  match w.styling.borders with
  | some b =>
    if !isDrawn b then return []
    let (paints, diagnostics) := plainPaints w.id (b.color.getD "")
    InRun.record diagnostics
    return paints
  | none => return []

/-- The stroke weight of a widget with strokes. -/
def strokeWeight (w : Widget) (strokes : List Paint) : Option Number :=
  if strokes.isEmpty then none else w.styling.borders.bind (·.width)

/-- The radius of all corners, if it is above zero: that of the decoration, else of the border. -/
def cornerRadius (w : Widget) : Option Number :=
  let radius :=
    match w.properties.decoration.bind (·.borderRadius) with
    | some r => r.topLeft
    | none =>
      match w.styling.borders.bind (·.radius) with
      | some r => r.topLeft
      | none => 0
  if (0 : Number).less radius then some radius else none

/-- The fill of a text: its first colour entry, unless that is malformed; black otherwise. -/
def textFill (w : Widget) : Paint × Diagnostics :=
  match w.styling.colors.find? fun c : ColorEntry => c.property = "color" with
  | some c =>
    let (color, diagnostics) := readColor w.id c.isThemeReference c.value
    (.solid (color.getD .black), diagnostics)
  | none => (.solid .black, [])

end DesignTree.Widget
