import DesignTree.Lowering.Naming
import DesignTree.Lowering.Run
import DesignTree.Widget.Check
import DesignTree.Node.Basic

/-! # Layout and placement of nodes

The automatic layout of a frame from a layout hint, and what a node gets from its parent: a share
of the space along the parent's axis, or a place of its own.
-/

namespace DesignTree

/-- A length where a double has to stand. -/
def lengthAs (name : Text) (n : Number) : Decoded Number :=
  if n.fitsDouble then .ok (.float n.toDouble) else (Decoded.fail .notNumber).under name

/-- A length that may be absent, where a double has to stand. -/
def lengthIfAny (name : Text) : Option Number → Decoded (Option Number)
  | some n => some <$> lengthAs name n
  | none => .ok none

namespace Layout

/-- The direction of the automatic layout for a layout hint. -/
def mode (l : Layout) : LayoutMode :=
  match Widget.layoutAxis l with
  | some .horizontal => .horizontal
  | some .vertical => .vertical
  | none => .none

/-- The size of a layout along its axis. -/
def primarySize (l : Layout) : Option Number :=
  match l.mode with
  | .horizontal => l.width
  | .vertical => l.height
  | .none => none

/-- The size of a layout across its axis. -/
def counterSize (l : Layout) : Option Number :=
  match l.mode with
  | .horizontal => l.height
  | .vertical => l.width
  | .none => none

/-- How children are aligned along the axis. -/
def mainAlign (l : Layout) : AxisAlign :=
  match l.alignment.bind (·.mainAxis) with
  | some .center => .center
  | some .finish => .max
  | some .spaceBetween => .spaceBetween
  | _ => .min

/-- How children are aligned across the axis. -/
def crossAlign (l : Layout) : AxisAlign :=
  match l.alignment.bind (·.crossAxis) with
  | some .center => .center
  | some .finish => .max
  | _ => .min

/-- Whether the size across the axis is fixed: it is given, or the children fill it. -/
def isCounterFixed (l : Layout) : Bool :=
  l.mode != .none && (l.alignment.bind (·.crossAxis) = some .stretch || l.counterSize.isSome)

/-- The gap between children, unless it is zero. -/
def gap? (l : Layout) : Option Number := l.spacing.filter (!·.isZero)

/-- The automatic layout for a layout hint. -/
def toAutoLayout (l : Layout) : Except Fault AutoLayout :=
  let sizing (fixed : Bool) : AxisSizing := if fixed then .fixed else .auto
  let padding := l.padding.getD {}
  Decoded.orFault "AutoLayoutSpec" <|
    AutoLayout.mk l.mode (sizing l.primarySize.isSome) (sizing l.isCounterFixed) l.mainAlign
        l.crossAlign
      <$> lengthAs "padding_left" padding.left
      <*> lengthAs "padding_right" padding.right
      <*> lengthAs "padding_top" padding.top
      <*> lengthAs "padding_bottom" padding.bottom
      <*> lengthAs "item_spacing" (l.gap?.getD 0)

/-- The sizing of an axis that does not change with what it holds. -/
def fixedSizing : Text := "FIXED"

/-- The properties of a frame with the size and the bounds of its layout. -/
def applyBounds (l : Layout) (p : NodeProperties) : NodeProperties :=
  { p with
    width := l.width <|> p.width
    layoutSizingHorizontal :=
      if l.width.isSome then some fixedSizing else p.layoutSizingHorizontal
    height := l.height <|> p.height
    layoutSizingVertical :=
      if l.height.isSome then some fixedSizing else p.layoutSizingVertical
    minWidth := l.minWidth
    maxWidth := l.maxWidth
    minHeight := l.minHeight
    maxHeight := l.maxHeight }

/-- The properties of a frame whose children go on in a new line at its end. A gap of zero between
the lines is not set. -/
def applyWrap (l : Layout) (p : NodeProperties) : NodeProperties :=
  if l.kind = .wrap then
    { p with
      layoutWrap := some "WRAP"
      itemSpacing := some (l.gap?.getD 0)
      counterAxisSpacing := l.gap? }
  else p

end Layout

namespace NodeProperties

/-- The start of a node that lies `far` from the end of its parent's axis and has a size. -/
def fromFarSide (far size : Number) : Except Fault Number :=
  match far.neg.sub? size with
  | some n => .ok n
  | none => .error .integerTooLarge

/-- The properties of a node with a place on the horizontal axis. The left side wins. -/
def placeHorizontally (p : NodeProperties) (position : Position) : Except Fault NodeProperties :=
  match position.left, position.right with
  | some left, _ => .ok ({ p with x := some left }.setConstraint (some .left) none)
  | none, some right =>
    let pinned := p.setConstraint (some .right) none
    match position.width with
    | some width => (fromFarSide right width).map fun x => { pinned with x := some x }
    | none => .ok pinned
  | none, none => .ok p

/-- The properties of a node with a place on the vertical axis. The top wins. -/
def placeVertically (p : NodeProperties) (position : Position) : Except Fault NodeProperties :=
  match position.top, position.bottom with
  | some top, _ => .ok ({ p with y := some top }.setConstraint none (some .top))
  | none, some bottom =>
    let pinned := p.setConstraint none (some .bottom)
    match position.height with
    | some height => (fromFarSide bottom height).map fun y => { pinned with y := some y }
    | none => .ok pinned
  | none, none => .ok p

/-- The properties of a node at a position, with the position's size. -/
def place (p : NodeProperties) (position : Position) : Except Fault NodeProperties := do
  let p ← p.placeHorizontally position
  let p ← p.placeVertically position
  return { p with
    width := position.width <|> p.width
    height := position.height <|> p.height }

/-- Coordinates and pins for a named alignment inside a stack. -/
structure StackPlace where
  x : Option Number := none
  y : Option Number := none
  horizontal : Option Pin := none
  vertical : Option Pin := none

/-- The places for the names of alignments. -/
def stackPlaces : Entries StackPlace :=
  [("topCenter", { y := some 0, horizontal := some .center }),
    ("topRight", { y := some 0, horizontal := some .right }),
    ("centerLeft", { x := some 0, vertical := some .center }),
    ("center", { horizontal := some .center, vertical := some .center }),
    ("centerRight", { horizontal := some .right, vertical := some .center }),
    ("bottomLeft", { x := some 0, vertical := some .bottom }),
    ("bottomCenter", { horizontal := some .center, vertical := some .bottom }),
    ("bottomRight", { horizontal := some .right, vertical := some .bottom })]

/-- The place for the name of an alignment; other names stand for the top left. -/
def stackPlace (alignment : Option Text) : StackPlace :=
  (alignment.bind stackPlaces.get?).getD { x := some 0, y := some 0 }

/-- The properties of a node that a stack aligns. -/
def align (p : NodeProperties) (alignment : Option Text) : NodeProperties :=
  let place := stackPlace alignment
  let p := { p with x := place.x <|> p.x, y := place.y <|> p.y }
  if place.horizontal.isSome || place.vertical.isSome then
    p.setConstraint place.horizontal place.vertical
  else p

/-- The sizing of an axis along which a node takes all the space it is given. -/
def fillSizing : Text := "FILL"

/-- The share of a growing widget: its own, or one if it is expanded. -/
def growth (child : Widget) : Option Number :=
  match child.properties.flex with
  | some flex =>
    if flex.isZero then
      if child.properties.isExpanded = some true then some 1 else none
    else some flex
  | none => if child.properties.isExpanded = some true then some 1 else none

/-- The properties of a child that grows along its parent's axis. -/
def grow (p : NodeProperties) (child : Widget) (axis : Option Axis) : NodeProperties :=
  match growth child, axis with
  | some share, some .horizontal =>
    { p with layoutGrow := some share, layoutSizingHorizontal := some fillSizing }
  | some share, some .vertical =>
    { p with layoutGrow := some share, layoutSizingVertical := some fillSizing }
  | _, _ => p

end NodeProperties

namespace Widget

/-- Whether a widget asks for a place of its own in any of three ways. -/
def asksForPlace (w : Widget) : Bool := w.isPlaced || w.properties.positioned.isSome

/-- What is recorded about a child with a place of its own outside of a stack. -/
def strayWarning (parent child : Widget) : Diagnostic :=
  .warning .widget ("Positioned widget " ++ child.id ++ " is not inside a stack (parent " ++
    parent.id ++ " is " ++ spelling parent.kind ++ "); offsets applied as-is") child.id

end Widget

end DesignTree
