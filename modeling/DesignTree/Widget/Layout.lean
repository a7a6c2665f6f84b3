import DesignTree.Widget.Geometry

/-! # Layout hints and placement -/

namespace DesignTree

/-- How a container arranges its children. -/
inductive LayoutKind
  | row
  | column
  | stack
  | wrap
  | flex
  deriving DecidableEq, Repr

instance : Spelled LayoutKind where
  all := [.row, .column, .stack, .wrap, .flex]
  spelling
    | .row => "row"
    | .column => "column"
    | .stack => "stack"
    | .wrap => "wrap"
    | .flex => "flex"

/-- An axis of the plane. -/
inductive Axis
  | horizontal
  | vertical
  deriving DecidableEq, Repr

instance : Spelled Axis where
  all := [.horizontal, .vertical]
  spelling
    | .horizontal => "horizontal"
    | .vertical => "vertical"

/-- Distribution of children along the layout axis. -/
inductive MainAlignment
  | start
  | center
  | finish
  | spaceBetween
  | spaceAround
  | spaceEvenly
  deriving DecidableEq, Repr

instance : Spelled MainAlignment where
  all := [.start, .center, .finish, .spaceBetween, .spaceAround, .spaceEvenly]
  spelling
    | .start => "start"
    | .center => "center"
    | .finish => "end"
    | .spaceBetween => "spaceBetween"
    | .spaceAround => "spaceAround"
    | .spaceEvenly => "spaceEvenly"

/-- Placement of children across the layout axis. -/
inductive CrossAlignment
  | start
  | center
  | finish
  | stretch
  deriving DecidableEq, Repr

instance : Spelled CrossAlignment where
  all := [.start, .center, .finish, .stretch]
  spelling
    | .start => "start"
    | .center => "center"
    | .finish => "end"
    | .stretch => "stretch"

/-- The alignment of a layout on both axes. -/
structure Alignment where
  mainAxis : Option MainAlignment := none
  crossAxis : Option CrossAlignment := none
  deriving DecidableEq, Repr

namespace Alignment

def decode : Value → Decoded Alignment :=
  .record "AlignmentInfo" fun fs =>
    Alignment.mk
      <$> fs.optional ⟨"mainAxis", "main_axis"⟩ .spelled
      <*> fs.optional ⟨"crossAxis", "cross_axis"⟩ .spelled

def toValue (a : Alignment) : Value :=
  .record (optionalField "mainAxis" .ofSpelled a.mainAxis ++
    optionalField "crossAxis" .ofSpelled a.crossAxis)

end Alignment

/-- The layout hint of a container. -/
structure Layout where
  kind : LayoutKind
  direction : Option Axis := none
  alignment : Option Alignment := none
  spacing : Option Number := none
  padding : Option EdgeInsets := none
  width : Option Number := none
  height : Option Number := none
  minWidth : Option Number := none
  maxWidth : Option Number := none
  minHeight : Option Number := none
  maxHeight : Option Number := none
  deriving DecidableEq, Repr

namespace Layout

def decode : Value → Decoded Layout :=
  .record "LayoutInfo" fun fs =>
    Layout.mk
      <$> fs.required (.word "type") .spelled
      <*> fs.optional (.word "direction") .oneOf
      <*> fs.optional (.word "alignment") Alignment.decode
      <*> fs.optional (.word "spacing") .number
      <*> fs.optional (.word "padding") EdgeInsets.decode
      <*> fs.optional (.word "width") .number
      <*> fs.optional (.word "height") .number
      <*> fs.optional ⟨"minWidth", "min_width"⟩ .number
      <*> fs.optional ⟨"maxWidth", "max_width"⟩ .number
      <*> fs.optional ⟨"minHeight", "min_height"⟩ .number
      <*> fs.optional ⟨"maxHeight", "max_height"⟩ .number

def toValue (l : Layout) : Value :=
  .record (field "type" (.ofSpelled l.kind) ++ optionalField "direction" .ofSpelled l.direction ++
    optionalField "alignment" Alignment.toValue l.alignment ++
    optionalField "spacing" .number l.spacing ++
    optionalField "padding" EdgeInsets.toValue l.padding ++
    optionalField "width" .number l.width ++ optionalField "height" .number l.height ++
    optionalField "minWidth" .number l.minWidth ++ optionalField "maxWidth" .number l.maxWidth ++
    optionalField "minHeight" .number l.minHeight ++
    optionalField "maxHeight" .number l.maxHeight)

end Layout

/-- The place of a child inside a stack: distances to the sides, and a size of its own. -/
structure Position where
  top : Option Number := none
  right : Option Number := none
  bottom : Option Number := none
  left : Option Number := none
  width : Option Number := none
  height : Option Number := none
  deriving DecidableEq, Repr

namespace Position

/-- Whether no distance to any side is given. -/
def isEmpty (p : Position) : Bool :=
  p.top.isNone && p.right.isNone && p.bottom.isNone && p.left.isNone

def decode : Value → Decoded Position :=
  .record "PositionInfo" fun fs =>
    Position.mk
      <$> fs.optional (.word "top") .number
      <*> fs.optional (.word "right") .number
      <*> fs.optional (.word "bottom") .number
      <*> fs.optional (.word "left") .number
      <*> fs.optional (.word "width") .number
      <*> fs.optional (.word "height") .number

def toValue (p : Position) : Value :=
  .record (optionalField "top" .number p.top ++ optionalField "right" .number p.right ++
    optionalField "bottom" .number p.bottom ++ optionalField "left" .number p.left ++
    optionalField "width" .number p.width ++ optionalField "height" .number p.height)

end Position

end DesignTree
