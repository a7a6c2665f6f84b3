import DesignTree.Node.Color

/-! # Paints, effects and type

The parts that the look of a node is made of.
-/

namespace DesignTree

/-- A colour at a place of a gradient. -/
structure GradientStop where
  position : Double
  color : Rgb
  deriving DecidableEq, Repr

namespace GradientStop

def decode : Value → Decoded GradientStop :=
  .record "GradientStop" fun fs =>
    GradientStop.mk
      <$> fs.required (.word "position") .double
      <*> fs.required (.word "color") Rgb.decode

def toValue (s : GradientStop) : Value :=
  .record [("position", .ofDouble s.position), ("color", s.color.toValue)]

end GradientStop

/-- A fill or a stroke. -/
structure Paint where
  kind : Text := "SOLID"
  color : Option Rgb := none
  opacity : Double := .ofInt 1
  gradientStops : Option (List GradientStop) := none
  deriving DecidableEq, Repr

namespace Paint

/-- A paint of one colour. -/
def solid (color : Rgb) (opacity : Double := .ofInt 1) : Paint :=
  { color := some color, opacity }

def decode : Value → Decoded Paint :=
  .record "Paint" fun fs =>
    Paint.mk
      <$> fs.orElse (.word "type") "SOLID" .text
      <*> fs.optional (.word "color") Rgb.decode
      <*> fs.orElse (.word "opacity") (.ofInt 1) .double
      <*> fs.optional ⟨"gradientStops", "gradient_stops"⟩ (.list GradientStop.decode)

def toValue (p : Paint) : Value :=
  .record (field "type" (.text p.kind) ++ optionalField "color" Rgb.toValue p.color ++
    field "opacity" (.ofDouble p.opacity) ++
    optionalField "gradientStops" (fun ss => .list (ss.map GradientStop.toValue)) p.gradientStops)

end Paint

/-- An offset of doubles. -/
structure Offset where
  x : Double := .ofInt 0
  y : Double := .ofInt 0
  deriving DecidableEq, Repr

namespace Offset

def decode : Value → Decoded Offset :=
  .record "Vector" fun fs =>
    Offset.mk
      <$> fs.orElse (.word "x") (.ofInt 0) .double
      <*> fs.orElse (.word "y") (.ofInt 0) .double

def toValue (o : Offset) : Value := .record [("x", .ofDouble o.x), ("y", .ofDouble o.y)]

end Offset

/-- A drop shadow. -/
structure Effect where
  kind : Text := "DROP_SHADOW"
  color : Rgb
  offset : Offset := {}
  radius : Double := .ofInt 0
  spread : Double := .ofInt 0
  visible : Bool := true
  blendMode : Text := "NORMAL"
  deriving DecidableEq, Repr

namespace Effect

def decode : Value → Decoded Effect :=
  .record "Effect" fun fs =>
    Effect.mk
      <$> fs.orElse (.word "type") "DROP_SHADOW" .text
      <*> fs.required (.word "color") Rgb.decode
      <*> fs.orElse (.word "offset") {} Offset.decode
      <*> fs.orElse (.word "radius") (.ofInt 0) .double
      <*> fs.orElse (.word "spread") (.ofInt 0) .double
      <*> fs.orElse (.word "visible") true .bool
      <*> fs.orElse ⟨"blendMode", "blend_mode"⟩ "NORMAL" .text

def toValue (e : Effect) : Value :=
  .record [("type", .text e.kind), ("color", e.color.toValue), ("offset", e.offset.toValue),
    ("radius", .ofDouble e.radius), ("spread", .ofDouble e.spread), ("visible", .bool e.visible),
    ("blendMode", .text e.blendMode)]

end Effect

/-- A font by family and style. -/
structure FontName where
  family : Text := "Inter"
  style : Text := "Regular"
  deriving DecidableEq, Repr

namespace FontName

def decode : Value → Decoded FontName :=
  .record "FontName" fun fs =>
    FontName.mk
      <$> fs.orElse (.word "family") "Inter" .text
      <*> fs.orElse (.word "style") "Regular" .text

def toValue (f : FontName) : Value :=
  .record [("family", .text f.family), ("style", .text f.style)]

end FontName

/-- A length with its unit. -/
structure Measure where
  unit : Text
  value : Double
  deriving DecidableEq, Repr

namespace Measure

/-- The unit of line heights that are not given another one. -/
def percent : Text := "PERCENT"

/-- The unit of letter spacings that are not given another one. -/
def pixels : Text := "PIXELS"

def decode (model unit : Text) : Value → Decoded Measure :=
  .record model fun fs =>
    Measure.mk
      <$> fs.orElse (.word "unit") unit .text
      <*> fs.required (.word "value") .double

/-- A line height in a document. -/
def decodeLineHeight : Value → Decoded Measure := decode "LineHeight" percent

/-- A letter spacing in a document. -/
def decodeLetterSpacing : Value → Decoded Measure := decode "LetterSpacing" pixels

def toValue (m : Measure) : Value :=
  .record [("unit", .text m.unit), ("value", .ofDouble m.value)]

end Measure

/-- The side of a frame that a child keeps its distance to. -/
inductive Pin
  | left
  | right
  | top
  | bottom
  | center
  deriving DecidableEq, Repr

instance : Spelled Pin where
  all := [.left, .right, .top, .bottom, .center]
  spelling
    | .left => "LEFT"
    | .right => "RIGHT"
    | .top => "TOP"
    | .bottom => "BOTTOM"
    | .center => "CENTER"

/-- The pins of a node, one for each axis. -/
structure Constraints where
  horizontal : Option Pin := none
  vertical : Option Pin := none
  deriving DecidableEq, Repr

namespace Constraints

def decode : Value → Decoded Constraints :=
  .record "Constraints" fun fs =>
    Constraints.mk
      <$> fs.optional (.word "horizontal") .spelled
      <*> fs.optional (.word "vertical") .spelled

def toValue (c : Constraints) : Value :=
  .record (optionalField "horizontal" .ofSpelled c.horizontal ++
    optionalField "vertical" .ofSpelled c.vertical)

end Constraints

end DesignTree
