import DesignTree.Schema.Basic
import DesignTree.Widget.Basic

/-! # The schema of widget trees

The models that a widget tree in a document is made of, each with its fields in the order in which
they are read.
-/

namespace DesignTree.Schema

/-- A number that a model takes to be zero where it is absent. -/
def zeroed (name : Text) : Field := .orElse .number (.ofNat 0) name

def alignment : Model :=
  .record "AlignmentInfo" "Axis alignment of a layout." false [
    .optional (.model "MainAxisAlignment") "mainAxis",
    .optional (.model "CrossAxisAlignment") "crossAxis"]

def border : Model :=
  .record "BorderInfo" "Border stroke and corner radius." false [
    .optional .number "width",
    .optional .text "color",
    .optional (.model "BorderRadius") "radius",
    .optional (.choice (Spelled.names StrokeStyle)) "style"]

def borderRadius : Model :=
  .record "BorderRadius" "Corner radii." false [
    zeroed "topLeft",
    zeroed "topRight",
    zeroed "bottomLeft",
    zeroed "bottomRight"]

def decoration : Model :=
  .record "BoxDecoration" "Container decoration." false [
    .optional .text "color",
    .optional (.model "BorderInfo") "border",
    .optional (.model "BorderRadius") "borderRadius",
    .orNew (.list (.model "ShadowInfo")) "boxShadow",
    .optional (.model "GradientInfo") "gradient"]

def color : Model :=
  .record "ColorInfo"
    (lines [
      "A color applied to a widget property.",
      "",
      "Attributes:",
      "    property: Which widget property the color drives",
      "        (backgroundColor, color, borderColor).",
      "    value: Hex literal (or the upstream textual fallback).",
      "    is_theme_reference: Whether the color came from the theme.",
      "    theme_path: Dotted theme path, e.g. ``colorScheme.primary``."]) false [
    .orElse .text (.text "color") "property",
    .required .text "value",
    .orElse .bool (.bool false) "isThemeReference",
    .optional .text "themePath"]

def crossAlignment : Model :=
  .vocabulary "CrossAxisAlignment" "Placement of children perpendicular to the layout axis."
    (Spelled.names CrossAlignment)

def edgeInsets : Model :=
  .record "EdgeInsets" "Padding or margin on four sides." false [
    zeroed "top",
    zeroed "right",
    zeroed "bottom",
    zeroed "left"]

def gradient : Model :=
  .record "GradientInfo" "Gradient fill description." false [
    .orElse (.choice (Spelled.names GradientKind)) (.text "linear") "type",
    .orNew (.list .text) "colors",
    .optional (.list .number) "stops",
    .optional (.model "Point") "begin",
    .optional (.model "Point") "end"]

def layout : Model :=
  .record "LayoutInfo"
    (lines [
      "Layout hint for container widgets.",
      "",
      "Attributes:",
      "    type: Layout kind (row, column, stack, wrap, flex).",
      "    direction: Axis for wrap/flex layouts.",
      "    alignment: Main and cross axis alignment.",
      "    spacing: Gap between children.",
      "    padding: Inner padding.",
      "    width: Fixed width.",
      "    height: Fixed height."]) false [
    .required (.model "LayoutType") "type",
    .optional (.choice (Spelled.names Axis)) "direction",
    .optional (.model "AlignmentInfo") "alignment",
    .optional .number "spacing",
    .optional (.model "EdgeInsets") "padding",
    .optional .number "width",
    .optional .number "height",
    .optional .number "minWidth",
    .optional .number "maxWidth",
    .optional .number "minHeight",
    .optional .number "maxHeight"]

def layoutKind : Model :=
  .vocabulary "LayoutType" "Layout hint attached to container widgets."
    (Spelled.names LayoutKind)

def mainAlignment : Model :=
  .vocabulary "MainAxisAlignment" "Distribution of children along the layout axis."
    (Spelled.names MainAlignment)

def point : Model :=
  .record "Point" "2D offset." false [
    zeroed "x",
    zeroed "y"]

def position : Model :=
  .record "PositionInfo" "Absolute placement for children of a stack." false [
    .optional .number "top",
    .optional .number "right",
    .optional .number "bottom",
    .optional .number "left",
    .optional .number "width",
    .optional .number "height"]

def shadow : Model :=
  .record "ShadowInfo" "A single box shadow." false [
    .required .text "color",
    .orNew (.model "Point") "offset",
    zeroed "blur",
    .optional .number "spread"]

def spacing : Model :=
  .record "SpacingInfo" "Padding and margin extracted from styling." false [
    .optional (.model "EdgeInsets") "padding",
    .optional (.model "EdgeInsets") "margin"]

def styling : Model :=
  .record "StyleInfo" "All styling attached to a widget." false [
    .orNew (.list (.model "ColorInfo")) "colors",
    .optional (.model "TypographyInfo") "typography",
    .optional (.model "SpacingInfo") "spacing",
    .optional (.model "BorderInfo") "borders",
    .orNew (.list (.model "ShadowInfo")) "shadows"]

def typography : Model :=
  .record "TypographyInfo" "Text styling with an optional theme reference." false [
    .optional .number "fontSize",
    .optional .text "fontWeight",
    .optional .text "fontFamily",
    .optional .number "letterSpacing",
    .optional .number "lineHeight",
    .optional .text "color",
    .orElse .bool (.bool false) "isThemeReference",
    .optional .text "themePath"]

def widget : Model :=
  .record "WidgetNode"
    (lines [
      "Recursive node of the abstract widget tree.",
      "",
      "Attributes:",
      "    id: Unique identifier of the widget within the tree.",
      "    type: Widget kind from the closed WidgetType vocabulary. Framework",
      "        names are resolved through aliases; unknown names become",
      "        ``custom`` and keep their original spelling in ``source_type``.",
      "    source_type: Original widget name when it differs from ``type``.",
      "    properties: Typed widget properties.",
      "    children: Ordered, owned child widgets.",
      "    styling: Colors, typography, spacing, borders and shadows.",
      "    layout: Optional layout hint.",
      "    position: Optional absolute placement inside a stack."]) false [
    .described "Unique identifier for the widget" (.required .text "id"),
    .described "Widget kind" (.required (.model "WidgetType") "type"),
    .described "Original widget name before alias resolution" (.optional .text "sourceType"),
    .orNew (.model "WidgetProperties") "properties",
    .described "Nested child widgets, in source order"
      (.orNew (.list (.model "WidgetNode")) "children"),
    .orNew (.model "StyleInfo") "styling",
    .optional (.model "LayoutInfo") "layout",
    .optional (.model "PositionInfo") "position"]

def widgetProperties : Model :=
  .record "WidgetProperties"
    (lines [
      "Typed widget properties.",
      "",
      "The common properties consumed by lowering are typed fields; any other",
      "key supplied by the upstream stage is preserved as an extra so the",
      "interchange contract stays open."]) true [
    .optional .text "data",
    .optional .text "text",
    .optional .text "key",
    .optional .text "icon",
    .optional .text "iconData",
    .optional .number "width",
    .optional .number "height",
    .optional (.model "EdgeInsets") "padding",
    .optional (.model "EdgeInsets") "margin",
    .optional (.model "BoxDecoration") "decoration",
    .optional .text "clipBehavior",
    .optional .text "alignment",
    .optional .number "flex",
    .optional .bool "isExpanded",
    .optional .bool "isPositioned",
    .optional (.model "PositionInfo") "positioned",
    .optional .number "left",
    .optional .number "right",
    .optional .number "top",
    .optional .number "bottom",
    .optional .text "textAlign",
    .optional .text "style",
    .optional .text "size",
    .optional .number "elevation",
    .optional .bool "outlined",
    .optional .bool "disabled"]

def widgetKind : Model :=
  .vocabulary "WidgetType"
    (lines [
      "Closed set of source widget kinds.",
      "",
      "Framework-specific names (ElevatedButton, CupertinoNavigationBar, ...)",
      "resolve to these through the registry aliases."])
    (Spelled.names WidgetKind)

/-- The models that a widget tree is made of. -/
def widgetModels : List Model := [
  alignment, border, borderRadius, decoration, color, crossAlignment, edgeInsets, gradient, layout,
  layoutKind, mainAlignment, point, position, shadow, spacing, styling, typography, widget,
  widgetProperties, widgetKind]

/-- The schema of the widget trees of documents. -/
def widgetTree : Value := document "WidgetNode" widgetModels

end DesignTree.Schema
