import DesignTree.Lowering.Paints
import DesignTree.Lowering.Placement

/-! # Node trees from widget trees

Every widget becomes a node of the kind that belongs to its own. A node's identifier is drawn before
those of its children, and texts and images become nodes without children.
-/

namespace DesignTree.Widget

/-- The size of a text that gives none. -/
def defaultFontSize : Number := 14

/-- The font of a text that gives none. -/
def defaultFontFamily : Text := "Inter"

/-- What a text shows that has no content. -/
def placeholderText : Text := "Text"

/-- A text, or another one if it is empty or absent. -/
def filledOr (default : Text) : Option Text → Text
  | some s => if s.isEmpty then default else s
  | none => default

/-- The properties of every node: its size, and that it can be seen and changed. -/
def basicProperties (w : Widget) : Except Fault NodeProperties :=
  Decoded.orFault "NodeProperties" <|
    (fun width height => { width, height, visible := some true, locked := some false })
      <$> lengthIfAny "width" w.properties.width
      <*> lengthIfAny "height" w.properties.height

/-- The properties of a rectangle. -/
def rectangleProperties (w : Widget) : InRun NodeProperties := do
  let p ← InRun.lift w.basicProperties
  let fills ← w.fills
  let strokes ← w.strokes
  return { p with
    fills := some fills
    strokes := some strokes
    strokeWeight := w.strokeWeight strokes
    cornerRadius := w.cornerRadius }

/-- The properties of a frame. It cuts off what lies outside of it unless told otherwise. -/
def frameProperties (w : Widget) : InRun NodeProperties := do
  let p ← w.rectangleProperties
  return { p with clipsContent := some (w.properties.clipBehavior != some "none") }

/-- How the lines of a text are aligned; any other way than these is to the left. -/
def textAlignments : Entries Text :=
  [("center", "CENTER"), ("right", "RIGHT"), ("justify", "JUSTIFIED")]

/-- How the lines of a text are aligned. -/
def textAlignment (w : Widget) : Text :=
  (w.properties.textAlign.bind textAlignments.get?).getD "LEFT"

/-- The properties of a text. -/
def textProperties (w : Widget) : InRun NodeProperties := do
  let p ← InRun.lift w.basicProperties
  let typography := w.styling.typography
  let size := (typography.bind (·.fontSize)).filter (!·.isZero)
  let (fill, diagnostics) := w.textFill
  InRun.record diagnostics
  return { p with
    characters := some (filledOr placeholderText w.textContent)
    fontSize := some (size.getD defaultFontSize)
    fontName := some {
      family := filledOr defaultFontFamily (typography.bind (·.fontFamily))
      style := FontWeight.styleName (typography.bind (·.fontWeight)) }
    textAlignHorizontal := some w.textAlignment
    fills := some [fill] }

/-- The node of a text. -/
def lowerText (w : Widget) : InRun Node := do
  let properties ← w.textProperties
  let id ← InRun.nextId
  return { id, kind := .text, name := w.nodeName, properties, widgetId := w.id }

/-- The node of an image. -/
def lowerRectangle (w : Widget) : InRun Node := do
  let properties ← w.rectangleProperties
  let id ← InRun.nextId
  return { id, kind := .rectangle, name := w.nodeName, properties, widgetId := w.id }

/-- The frame of a widget around nodes for its children. A stack has no automatic layout. -/
def frameAround (w : Widget) (kind : NodeKind) (name : Text) (children : InRun (List Node)) :
    InRun Node := do
  let properties ← w.frameProperties
  let id ← InRun.nextId
  let children ← children
  match w.layout with
  | none =>
    let properties :=
      if w.isStack then { properties with layoutMode := some .none } else properties
    return { id, kind, name, properties, children, widgetId := w.id }
  | some layout =>
    let bounded := layout.applyBounds properties
    if w.isStack then
      return { id, kind, name, properties := { bounded with layoutMode := some .none }, children,
               widgetId := w.id }
    let autoLayout ← InRun.lift layout.toAutoLayout
    return { id, kind, name, properties := layout.applyWrap bounded, autoLayout, children,
             widgetId := w.id }

/-- The frame of a structural widget. -/
def lowerFrame (w : Widget) (children : InRun (List Node)) : InRun Node :=
  w.frameAround .frame w.nodeName children

/-- The frame of a widget that is a component, with a description. -/
def lowerComponent (w : Widget) (children : InRun (List Node)) : InRun Node := do
  let display := w.kind.displayName
  let node ← w.frameAround .component (display ++ " Component") children
  return { node with properties := { node.properties with
    description := some ("Component generated from " ++ display ++ " widget") } }

/-- The node of a child inside a stack, the `index`-th layer of it. -/
def placeInStack (parent : Widget) (index : Nat) (child : Widget) (node : Node) :
    Except Fault Node := do
  let properties ←
    match child.resolvedPosition with
    | some position => node.properties.place position
    | none => pure (node.properties.align parent.properties.alignment)
  return { node with properties := { properties with zIndex := some index } }

/-- The node of a child outside of a stack. A place that it asks for is given as it stands, and
recorded. -/
def placeInFlow (parent child : Widget) (node : Node) : InRun Node := do
  let properties := node.properties.grow child parent.mainAxis
  if child.asksForPlace then
    let placed ←
      match child.resolvedPosition with
      | some position => InRun.lift (properties.place position)
      | none => pure properties
    InRun.record [strayWarning parent child]
    return { node with properties := placed }
  return { node with properties }

/-- The node of a child as its parent places it. -/
def placeChild (parent : Widget) (index : Nat) (child : Widget) (node : Node) : InRun Node :=
  if parent.isStack then InRun.lift (placeInStack parent index child node)
  else placeInFlow parent child node

/-- The node of a widget as a kind of node, its children where that kind has any. -/
def lowerAs (kind : NodeKind) (w : Widget) (children : InRun (List Node)) : InRun Node :=
  match kind with
  | .text => w.lowerText
  | .rectangle => w.lowerRectangle
  | .component => w.lowerComponent children
  | _ => w.lowerFrame children

mutual

/-- The node tree of a widget tree. -/
def lower : Widget → InRun Node
  | ⟨id, kind, sourceType, properties, children, styling, layout, position⟩ =>
    let w : Widget := ⟨id, kind, sourceType, properties, children, styling, layout, position⟩
    lowerAs kind.nodeKind w (lowerChildren w 0 children)

/-- The nodes of children, the first of them being the `index`-th child of its parent. -/
def lowerChildren (parent : Widget) (index : Nat) : List Widget → InRun (List Node)
  | [] => pure []
  | child :: rest => do
    let node ← child.lower
    let placed ← placeChild parent index child node
    let others ← lowerChildren parent (index + 1) rest
    return placed :: others

end

/-- The node tree of a widget tree with the root as a given kind of node. -/
def lowerRootAs (kind : NodeKind) (w : Widget) : InRun Node :=
  lowerAs kind w (lowerChildren w 0 w.children)

theorem lower_eq (w : Widget) : w.lower = lowerRootAs w.kind.nodeKind w := by
  cases w
  rfl

end DesignTree.Widget
