import DesignTree.Widget.Geometry
import DesignTree.Widget.FontWeight

/-! # Styling

Colours, typography, spacing, borders and shadows of a widget. A styling remembers which of its
five aspects were given at all, because a given aspect overrides another one even when it is empty.
-/

namespace DesignTree

/-- How a border is drawn. -/
inductive StrokeStyle
  | solid
  | dashed
  | dotted
  deriving DecidableEq, Repr

instance : Spelled StrokeStyle where
  all := [.solid, .dashed, .dotted]
  spelling
    | .solid => "solid"
    | .dashed => "dashed"
    | .dotted => "dotted"

/-- A border stroke with its corner radii. -/
structure Border where
  width : Option Number := none
  color : Option Text := none
  radius : Option BorderRadius := none
  style : Option StrokeStyle := none
  deriving DecidableEq, Repr

namespace Border

def decode : Value → Decoded Border :=
  .record "BorderInfo" fun fs =>
    Border.mk
      <$> fs.optional (.word "width") .number
      <*> fs.optional (.word "color") .text
      <*> fs.optional (.word "radius") BorderRadius.decode
      <*> fs.optional (.word "style") .oneOf

def toValue (b : Border) : Value :=
  .record (optionalField "width" .number b.width ++ optionalField "color" .text b.color ++
    optionalField "radius" BorderRadius.toValue b.radius ++
    optionalField "style" .ofSpelled b.style)

end Border

/-- A shadow that a box throws. -/
structure Shadow where
  color : Text
  offset : Point := {}
  blur : Number := 0
  spread : Option Number := none
  deriving DecidableEq, Repr

namespace Shadow

def decode : Value → Decoded Shadow :=
  .record "ShadowInfo" fun fs =>
    Shadow.mk
      <$> fs.required (.word "color") .text
      <*> fs.orElse (.word "offset") {} Point.decode
      <*> fs.orElse (.word "blur") 0 .number
      <*> fs.optional (.word "spread") .number

def toValue (s : Shadow) : Value :=
  .record (field "color" (.text s.color) ++ field "offset" s.offset.toValue ++
    field "blur" (.number s.blur) ++
    optionalField "spread" .number s.spread)

end Shadow

/-- A colour for one property of a widget: a literal, with a path into the theme where the colour
comes from there. -/
structure ColorEntry where
  property : Text := "color"
  value : Text
  isThemeReference : Bool := false
  themePath : Option Text := none
  deriving DecidableEq, Repr

namespace ColorEntry

def decode : Value → Decoded ColorEntry :=
  .record "ColorInfo" fun fs =>
    ColorEntry.mk
      <$> fs.orElse (.word "property") "color" .text
      <*> fs.required (.word "value") .text
      <*> fs.orElse ⟨"isThemeReference", "is_theme_reference"⟩ false .bool
      <*> fs.optional ⟨"themePath", "theme_path"⟩ .text

def toValue (c : ColorEntry) : Value :=
  .record (([("property", .text c.property), ("value", .text c.value),
    ("isThemeReference", .bool c.isThemeReference)] : Fields) ++
    optionalField "themePath" .text c.themePath)

end ColorEntry

/-- The styling of a run of text. -/
structure Typography where
  fontSize : Option Number := none
  fontWeight : Option Text := none
  fontFamily : Option Text := none
  letterSpacing : Option Number := none
  lineHeight : Option Number := none
  color : Option Text := none
  isThemeReference : Bool := false
  themePath : Option Text := none
  deriving DecidableEq, Repr

namespace Typography

def decode : Value → Decoded Typography :=
  .record "TypographyInfo" fun fs =>
    Typography.mk
      <$> fs.optional ⟨"fontSize", "font_size"⟩ .number
      <*> fs.orElse ⟨"fontWeight", "font_weight"⟩ none FontWeight.decode
      <*> fs.optional ⟨"fontFamily", "font_family"⟩ .text
      <*> fs.optional ⟨"letterSpacing", "letter_spacing"⟩ .number
      <*> fs.optional ⟨"lineHeight", "line_height"⟩ .number
      <*> fs.optional (.word "color") .text
      <*> fs.orElse ⟨"isThemeReference", "is_theme_reference"⟩ false .bool
      <*> fs.optional ⟨"themePath", "theme_path"⟩ .text

def toValue (t : Typography) : Value :=
  .record (optionalField "fontSize" .number t.fontSize ++
    optionalField "fontWeight" .text t.fontWeight ++
    optionalField "fontFamily" .text t.fontFamily ++
    optionalField "letterSpacing" .number t.letterSpacing ++
    optionalField "lineHeight" .number t.lineHeight ++ optionalField "color" .text t.color ++
    field "isThemeReference" (.bool t.isThemeReference) ++
    optionalField "themePath" .text t.themePath)

end Typography

/-- Space inside and around a box. -/
structure Spacing where
  padding : Option EdgeInsets := none
  margin : Option EdgeInsets := none
  deriving DecidableEq, Repr

namespace Spacing

def decode : Value → Decoded Spacing :=
  .record "SpacingInfo" fun fs =>
    Spacing.mk
      <$> fs.optional (.word "padding") EdgeInsets.decode
      <*> fs.optional (.word "margin") EdgeInsets.decode

def toValue (s : Spacing) : Value :=
  .record (optionalField "padding" EdgeInsets.toValue s.padding ++
    optionalField "margin" EdgeInsets.toValue s.margin)

end Spacing

/-- All styling of a widget. Each aspect tells whether it was given, and if so with what. -/
structure Styling where
  givenColors : Option (List ColorEntry) := none
  givenTypography : Option (Option Typography) := none
  givenSpacing : Option (Option Spacing) := none
  givenBorders : Option (Option Border) := none
  givenShadows : Option (List Shadow) := none
  deriving DecidableEq, Repr

namespace Styling

def colors (s : Styling) : List ColorEntry := s.givenColors.getD []

def typography (s : Styling) : Option Typography := s.givenTypography.join

def spacing (s : Styling) : Option Spacing := s.givenSpacing.join

def borders (s : Styling) : Option Border := s.givenBorders.join

def shadows (s : Styling) : List Shadow := s.givenShadows.getD []

/-- A styling in which every aspect that `overrides` gives is taken from there. -/
def merged (base : Styling) : Option Styling → Styling
  | none => base
  | some overrides => {
      givenColors := overrides.givenColors <|> base.givenColors
      givenTypography := overrides.givenTypography <|> base.givenTypography
      givenSpacing := overrides.givenSpacing <|> base.givenSpacing
      givenBorders := overrides.givenBorders <|> base.givenBorders
      givenShadows := overrides.givenShadows <|> base.givenShadows }

def decode : Value → Decoded Styling :=
  .record "StyleInfo" fun fs =>
    let given {α : Type} (k : Key) (read : Value → Decoded α) : Decoded (Option α) :=
      fs.orElse k none fun v => some <$> read v
    Styling.mk
      <$> given (.word "colors") (.list ColorEntry.decode)
      <*> given (.word "typography") (.nullable Typography.decode)
      <*> given (.word "spacing") (.nullable Spacing.decode)
      <*> given (.word "borders") (.nullable Border.decode)
      <*> given (.word "shadows") (.list Shadow.decode)

def toValue (s : Styling) : Value :=
  .record (field "colors" (.list (s.colors.map ColorEntry.toValue)) ++
    optionalField "typography" Typography.toValue s.typography ++
    optionalField "spacing" Spacing.toValue s.spacing ++
    optionalField "borders" Border.toValue s.borders ++
    field "shadows" (.list (s.shadows.map Shadow.toValue)))

end Styling

/-- The shape in which a gradient runs. -/
inductive GradientKind
  | linear
  | radial
  deriving DecidableEq, Repr

instance : Spelled GradientKind where
  all := [.linear, .radial]
  spelling
    | .linear => "linear"
    | .radial => "radial"

/-- A gradient fill: its colours, and where each of them lies. -/
structure Gradient where
  kind : GradientKind := .linear
  colors : List Text := []
  stops : Option (List Number) := none
  start : Option Point := none
  finish : Option Point := none
  deriving DecidableEq, Repr

namespace Gradient

def decode : Value → Decoded Gradient :=
  .record "GradientInfo" fun fs =>
    Gradient.mk
      <$> fs.orElse (.word "type") .linear .oneOf
      <*> fs.orElse (.word "colors") [] (.list .text)
      <*> fs.optional (.word "stops") (.list .number)
      <*> fs.optional (.word "begin") Point.decode
      <*> fs.optional (.word "end") Point.decode

def toValue (g : Gradient) : Value :=
  .record (field "type" (.ofSpelled g.kind) ++ field "colors" (.ofTexts g.colors) ++
    optionalField "stops" (fun ns => .list (ns.map .number)) g.stops ++
    optionalField "begin" Point.toValue g.start ++ optionalField "end" Point.toValue g.finish)

end Gradient

/-- What a container draws of itself. -/
structure Decoration where
  color : Option Text := none
  border : Option Border := none
  borderRadius : Option BorderRadius := none
  boxShadow : List Shadow := []
  gradient : Option Gradient := none
  deriving DecidableEq, Repr

namespace Decoration

def decode : Value → Decoded Decoration :=
  .record "BoxDecoration" fun fs =>
    Decoration.mk
      <$> fs.optional (.word "color") .text
      <*> fs.optional (.word "border") Border.decode
      <*> fs.optional ⟨"borderRadius", "border_radius"⟩ BorderRadius.decode
      <*> fs.orElse ⟨"boxShadow", "box_shadow"⟩ [] (.list Shadow.decode)
      <*> fs.optional (.word "gradient") Gradient.decode

def toValue (d : Decoration) : Value :=
  .record (optionalField "color" .text d.color ++ optionalField "border" Border.toValue d.border ++
    optionalField "borderRadius" BorderRadius.toValue d.borderRadius ++
    field "boxShadow" (.list (d.boxShadow.map Shadow.toValue)) ++
    optionalField "gradient" Gradient.toValue d.gradient)

end Decoration

end DesignTree
