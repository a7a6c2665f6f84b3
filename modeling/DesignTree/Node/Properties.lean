import DesignTree.Data.Encodable
import DesignTree.Node.Paint

/-! # Node properties

One record of properties serves all kinds of nodes; a property that a kind does not use is not set.
Lengths keep the number that they were set to, and are written as doubles.
-/

namespace DesignTree

/-- The direction in which a frame lays its children out. -/
inductive LayoutMode
  | horizontal
  | vertical
  | none
  deriving DecidableEq, Repr

instance : Spelled LayoutMode where
  all := [.horizontal, .vertical, .none]
  spelling
    | .horizontal => "HORIZONTAL"
    | .vertical => "VERTICAL"
    | .none => "NONE"

/-- Whether an axis has a fixed size or fits what it holds. -/
inductive AxisSizing
  | fixed
  | auto
  deriving DecidableEq, Repr

instance : Spelled AxisSizing where
  all := [.fixed, .auto]
  spelling
    | .fixed => "FIXED"
    | .auto => "AUTO"

/-- How children are aligned along an axis. -/
inductive AxisAlign
  | min
  | center
  | max
  | spaceBetween
  deriving DecidableEq, Repr

instance : Spelled AxisAlign where
  all := [.min, .center, .max, .spaceBetween]
  spelling
    | .min => "MIN"
    | .center => "CENTER"
    | .max => "MAX"
    | .spaceBetween => "SPACE_BETWEEN"

/-- A length as it is written. -/
def Number.toLength (n : Number) : Value := .ofDouble n.toDouble

/-- Where a node is and how large. -/
structure NodeGeometry where
  x : Option Number := none
  y : Option Number := none
  width : Option Number := none
  height : Option Number := none
  minWidth : Option Number := none
  maxWidth : Option Number := none
  minHeight : Option Number := none
  maxHeight : Option Number := none
  zIndex : Option Int := none
  constraints : Option Constraints := none
  visible : Option Bool := none
  locked : Option Bool := none
  deriving DecidableEq, Repr

namespace NodeGeometry

def decode (fs : Fields) : Decoded NodeGeometry :=
  NodeGeometry.mk
    <$> fs.optional (.word "x") .float
    <*> fs.optional (.word "y") .float
    <*> fs.optional (.word "width") .float
    <*> fs.optional (.word "height") .float
    <*> fs.optional ⟨"minWidth", "min_width"⟩ .float
    <*> fs.optional ⟨"maxWidth", "max_width"⟩ .float
    <*> fs.optional ⟨"minHeight", "min_height"⟩ .float
    <*> fs.optional ⟨"maxHeight", "max_height"⟩ .float
    <*> fs.optional ⟨"zIndex", "z_index"⟩ .int
    <*> fs.optional (.word "constraints") Constraints.decode
    <*> fs.optional (.word "visible") .bool
    <*> fs.optional (.word "locked") .bool

def fields (g : NodeGeometry) : Fields :=
  optionalField "x" Number.toLength g.x ++ optionalField "y" Number.toLength g.y ++
    optionalField "width" Number.toLength g.width ++
    optionalField "height" Number.toLength g.height ++
    optionalField "minWidth" Number.toLength g.minWidth ++
    optionalField "maxWidth" Number.toLength g.maxWidth ++
    optionalField "minHeight" Number.toLength g.minHeight ++
    optionalField "maxHeight" Number.toLength g.maxHeight ++
    optionalField "zIndex" (fun n => .number (.int n)) g.zIndex ++
    optionalField "constraints" Constraints.toValue g.constraints ++
    optionalField "visible" .bool g.visible ++ optionalField "locked" .bool g.locked

/-- The lengths that are set. -/
def lengths (g : NodeGeometry) : List Number :=
  [g.x, g.y, g.width, g.height, g.minWidth, g.maxWidth, g.minHeight, g.maxHeight].filterMap id

end NodeGeometry

/-- What a node is painted with. -/
structure NodePaints where
  fills : Option (List Paint) := none
  strokes : Option (List Paint) := none
  strokeWeight : Option Number := none
  cornerRadius : Option Number := none
  topLeftRadius : Option Number := none
  topRightRadius : Option Number := none
  bottomLeftRadius : Option Number := none
  bottomRightRadius : Option Number := none
  effects : Option (List Effect) := none
  deriving DecidableEq, Repr

namespace NodePaints

def decode (fs : Fields) : Decoded NodePaints :=
  NodePaints.mk
    <$> fs.optional (.word "fills") (.list Paint.decode)
    <*> fs.optional (.word "strokes") (.list Paint.decode)
    <*> fs.optional ⟨"strokeWeight", "stroke_weight"⟩ .float
    <*> fs.optional ⟨"cornerRadius", "corner_radius"⟩ .float
    <*> fs.optional ⟨"topLeftRadius", "top_left_radius"⟩ .float
    <*> fs.optional ⟨"topRightRadius", "top_right_radius"⟩ .float
    <*> fs.optional ⟨"bottomLeftRadius", "bottom_left_radius"⟩ .float
    <*> fs.optional ⟨"bottomRightRadius", "bottom_right_radius"⟩ .float
    <*> fs.optional (.word "effects") (.list Effect.decode)

def fields (p : NodePaints) : Fields :=
  optionalField "fills" (fun ps => .list (ps.map Paint.toValue)) p.fills ++
    optionalField "strokes" (fun ps => .list (ps.map Paint.toValue)) p.strokes ++
    optionalField "strokeWeight" Number.toLength p.strokeWeight ++
    optionalField "cornerRadius" Number.toLength p.cornerRadius ++
    optionalField "topLeftRadius" Number.toLength p.topLeftRadius ++
    optionalField "topRightRadius" Number.toLength p.topRightRadius ++
    optionalField "bottomLeftRadius" Number.toLength p.bottomLeftRadius ++
    optionalField "bottomRightRadius" Number.toLength p.bottomRightRadius ++
    optionalField "effects" (fun es => .list (es.map Effect.toValue)) p.effects

def lengths (p : NodePaints) : List Number :=
  [p.strokeWeight, p.cornerRadius, p.topLeftRadius, p.topRightRadius, p.bottomLeftRadius,
    p.bottomRightRadius].filterMap id

end NodePaints

/-- How a node arranges its children and takes part in its parent's arrangement. -/
structure NodeFlow where
  clipsContent : Option Bool := none
  layoutMode : Option LayoutMode := none
  layoutWrap : Option Text := none
  itemSpacing : Option Number := none
  counterAxisSpacing : Option Number := none
  layoutGrow : Option Number := none
  layoutSizingHorizontal : Option Text := none
  layoutSizingVertical : Option Text := none
  deriving DecidableEq, Repr

namespace NodeFlow

def decode (fs : Fields) : Decoded NodeFlow :=
  NodeFlow.mk
    <$> fs.optional ⟨"clipsContent", "clips_content"⟩ .bool
    <*> fs.optional ⟨"layoutMode", "layout_mode"⟩ .spelled
    <*> fs.optional ⟨"layoutWrap", "layout_wrap"⟩ .text
    <*> fs.optional ⟨"itemSpacing", "item_spacing"⟩ .float
    <*> fs.optional ⟨"counterAxisSpacing", "counter_axis_spacing"⟩ .float
    <*> fs.optional ⟨"layoutGrow", "layout_grow"⟩ .float
    <*> fs.optional ⟨"layoutSizingHorizontal", "layout_sizing_horizontal"⟩ .text
    <*> fs.optional ⟨"layoutSizingVertical", "layout_sizing_vertical"⟩ .text

def fields (f : NodeFlow) : Fields :=
  optionalField "clipsContent" .bool f.clipsContent ++
    optionalField "layoutMode" .ofSpelled f.layoutMode ++
    optionalField "layoutWrap" .text f.layoutWrap ++
    optionalField "itemSpacing" Number.toLength f.itemSpacing ++
    optionalField "counterAxisSpacing" Number.toLength f.counterAxisSpacing ++
    optionalField "layoutGrow" Number.toLength f.layoutGrow ++
    optionalField "layoutSizingHorizontal" .text f.layoutSizingHorizontal ++
    optionalField "layoutSizingVertical" .text f.layoutSizingVertical

def lengths (f : NodeFlow) : List Number :=
  [f.itemSpacing, f.counterAxisSpacing, f.layoutGrow].filterMap id

end NodeFlow

/-- What a text node shows. -/
structure NodeText where
  characters : Option Text := none
  fontSize : Option Number := none
  fontName : Option FontName := none
  textAlignHorizontal : Option Text := none
  lineHeight : Option Measure := none
  letterSpacing : Option Measure := none
  deriving DecidableEq, Repr

namespace NodeText

def decode (fs : Fields) : Decoded NodeText :=
  NodeText.mk
    <$> fs.optional (.word "characters") .text
    <*> fs.optional ⟨"fontSize", "font_size"⟩ .float
    <*> fs.optional ⟨"fontName", "font_name"⟩ FontName.decode
    <*> fs.optional ⟨"textAlignHorizontal", "text_align_horizontal"⟩ .text
    <*> fs.optional ⟨"lineHeight", "line_height"⟩ Measure.decodeLineHeight
    <*> fs.optional ⟨"letterSpacing", "letter_spacing"⟩ Measure.decodeLetterSpacing

def fields (t : NodeText) : Fields :=
  optionalField "characters" .text t.characters ++
    optionalField "fontSize" Number.toLength t.fontSize ++
    optionalField "fontName" FontName.toValue t.fontName ++
    optionalField "textAlignHorizontal" .text t.textAlignHorizontal ++
    optionalField "lineHeight" Measure.toValue t.lineHeight ++
    optionalField "letterSpacing" Measure.toValue t.letterSpacing

def lengths (t : NodeText) : List Number := t.fontSize.toList

end NodeText

/-- What ties a node to a component. -/
structure NodeLink where
  description : Option Text := none
  componentId : Option Text := none
  overrides : Option Fields := none

namespace NodeLink

def decode (fs : Fields) : Decoded NodeLink :=
  NodeLink.mk
    <$> fs.optional (.word "description") .text
    <*> fs.optional ⟨"componentId", "component_id"⟩ .text
    <*> fs.optional (.word "overrides") (.mapOf .any)

def fields (l : NodeLink) : Fields :=
  optionalField "description" .text l.description ++
    optionalField "componentId" .text l.componentId ++
    optionalField "overrides" Fields.toEncodable l.overrides

end NodeLink

/-- All properties of a node. -/
structure NodeProperties extends NodeGeometry, NodePaints, NodeFlow, NodeText, NodeLink

namespace NodeProperties

def decode : Value → Decoded NodeProperties :=
  .record "NodeProperties" fun fs =>
    NodeProperties.mk
      <$> NodeGeometry.decode fs
      <*> NodePaints.decode fs
      <*> NodeFlow.decode fs
      <*> NodeText.decode fs
      <*> NodeLink.decode fs

def toValue (p : NodeProperties) : Value :=
  .record (p.toNodeGeometry.fields ++ p.toNodePaints.fields ++ p.toNodeFlow.fields ++
    p.toNodeText.fields ++ p.toNodeLink.fields)

def lengths (p : NodeProperties) : List Number :=
  p.toNodeGeometry.lengths ++ p.toNodePaints.lengths ++ p.toNodeFlow.lengths ++
    p.toNodeText.lengths

/-- Sets one or both pins; a pin that is not given stays. -/
def setConstraint (p : NodeProperties) (horizontal vertical : Option Pin) : NodeProperties :=
  let current := p.constraints.getD {}
  { p with constraints := some {
      horizontal := horizontal <|> current.horizontal
      vertical := vertical <|> current.vertical } }

end NodeProperties

/-- The automatic layout of a frame. -/
structure AutoLayout where
  layoutMode : LayoutMode := .none
  primaryAxisSizingMode : AxisSizing := .auto
  counterAxisSizingMode : AxisSizing := .auto
  primaryAxisAlignItems : AxisAlign := .min
  counterAxisAlignItems : AxisAlign := .min
  paddingLeft : Number := .float (.ofInt 0)
  paddingRight : Number := .float (.ofInt 0)
  paddingTop : Number := .float (.ofInt 0)
  paddingBottom : Number := .float (.ofInt 0)
  itemSpacing : Number := .float (.ofInt 0)
  deriving DecidableEq, Repr

namespace AutoLayout

def decode : Value → Decoded AutoLayout :=
  let zero : Number := .float (.ofInt 0)
  .record "AutoLayoutSpec" fun fs =>
    AutoLayout.mk
      <$> fs.orElse ⟨"layoutMode", "layout_mode"⟩ .none .spelled
      <*> fs.orElse ⟨"primaryAxisSizingMode", "primary_axis_sizing_mode"⟩ .auto .spelled
      <*> fs.orElse ⟨"counterAxisSizingMode", "counter_axis_sizing_mode"⟩ .auto .spelled
      <*> fs.orElse ⟨"primaryAxisAlignItems", "primary_axis_align_items"⟩ .min .spelled
      <*> fs.orElse ⟨"counterAxisAlignItems", "counter_axis_align_items"⟩ .min .spelled
      <*> fs.orElse ⟨"paddingLeft", "padding_left"⟩ zero .float
      <*> fs.orElse ⟨"paddingRight", "padding_right"⟩ zero .float
      <*> fs.orElse ⟨"paddingTop", "padding_top"⟩ zero .float
      <*> fs.orElse ⟨"paddingBottom", "padding_bottom"⟩ zero .float
      <*> fs.orElse ⟨"itemSpacing", "item_spacing"⟩ zero .float

def toValue (a : AutoLayout) : Value :=
  .record [("layoutMode", .ofSpelled a.layoutMode),
    ("primaryAxisSizingMode", .ofSpelled a.primaryAxisSizingMode),
    ("counterAxisSizingMode", .ofSpelled a.counterAxisSizingMode),
    ("primaryAxisAlignItems", .ofSpelled a.primaryAxisAlignItems),
    ("counterAxisAlignItems", .ofSpelled a.counterAxisAlignItems),
    ("paddingLeft", a.paddingLeft.toLength), ("paddingRight", a.paddingRight.toLength),
    ("paddingTop", a.paddingTop.toLength), ("paddingBottom", a.paddingBottom.toLength),
    ("itemSpacing", a.itemSpacing.toLength)]

def lengths (a : AutoLayout) : List Number :=
  [a.paddingLeft, a.paddingRight, a.paddingTop, a.paddingBottom, a.itemSpacing]

end AutoLayout

end DesignTree
