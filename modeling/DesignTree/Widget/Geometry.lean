import DesignTree.Decode.Scalar

/-! # Points, edges and corners

The small geometric records that styling and layout are made of. Each one has a value of zero for
what is not given.
-/

namespace DesignTree

/-- An offset in the plane. -/
structure Point where
  x : Number := 0
  y : Number := 0
  deriving DecidableEq, Repr

namespace Point

def decode : Value → Decoded Point :=
  .record "Point" fun fs =>
    Point.mk
      <$> fs.orElse (.word "x") 0 .number
      <*> fs.orElse (.word "y") 0 .number

def toValue (p : Point) : Value := .record [("x", .number p.x), ("y", .number p.y)]

end Point

/-- Distances on the four sides of a box. -/
structure EdgeInsets where
  top : Number := 0
  right : Number := 0
  bottom : Number := 0
  left : Number := 0
  deriving DecidableEq, Repr

namespace EdgeInsets

/-- The greatest distance; of equal ones the first, from the top clockwise. -/
def maxEdge (e : EdgeInsets) : Number := Number.maximum e.top [e.right, e.bottom, e.left]

def decode : Value → Decoded EdgeInsets :=
  .record "EdgeInsets" fun fs =>
    EdgeInsets.mk
      <$> fs.orElse (.word "top") 0 .number
      <*> fs.orElse (.word "right") 0 .number
      <*> fs.orElse (.word "bottom") 0 .number
      <*> fs.orElse (.word "left") 0 .number

def toValue (e : EdgeInsets) : Value :=
  .record [("top", .number e.top), ("right", .number e.right), ("bottom", .number e.bottom),
    ("left", .number e.left)]

end EdgeInsets

/-- Radii of the four corners of a box. -/
structure BorderRadius where
  topLeft : Number := 0
  topRight : Number := 0
  bottomLeft : Number := 0
  bottomRight : Number := 0
  deriving DecidableEq, Repr

namespace BorderRadius

/-- Whether all corners have the same radius, each compared with the next. -/
def isUniform (r : BorderRadius) : Bool :=
  r.topLeft.same r.topRight && r.topRight.same r.bottomLeft && r.bottomLeft.same r.bottomRight

def decode : Value → Decoded BorderRadius :=
  .record "BorderRadius" fun fs =>
    BorderRadius.mk
      <$> fs.orElse ⟨"topLeft", "top_left"⟩ 0 .number
      <*> fs.orElse ⟨"topRight", "top_right"⟩ 0 .number
      <*> fs.orElse ⟨"bottomLeft", "bottom_left"⟩ 0 .number
      <*> fs.orElse ⟨"bottomRight", "bottom_right"⟩ 0 .number

def toValue (r : BorderRadius) : Value :=
  .record [("topLeft", .number r.topLeft), ("topRight", .number r.topRight),
    ("bottomLeft", .number r.bottomLeft), ("bottomRight", .number r.bottomRight)]

end BorderRadius

end DesignTree
