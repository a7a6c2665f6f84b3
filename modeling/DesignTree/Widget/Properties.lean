import DesignTree.Data.Encodable
import DesignTree.Widget.Style
import DesignTree.Widget.Layout

/-! # Widget properties

The properties that conversion knows have types of their own; every other property is kept as it
came. A property with a type can be named in either spelling.
-/

namespace DesignTree

/-- What a widget shows. -/
structure WidgetContent where
  data : Option Text := none
  text : Option Text := none
  key : Option Text := none
  icon : Option Text := none
  iconData : Option Text := none
  deriving DecidableEq, Repr

/-- The size of a widget and the box around it. -/
structure WidgetBox where
  width : Option Number := none
  height : Option Number := none
  padding : Option EdgeInsets := none
  margin : Option EdgeInsets := none
  decoration : Option Decoration := none
  clipBehavior : Option Text := none
  alignment : Option Text := none
  deriving DecidableEq, Repr

/-- How a widget grows and where it is placed. -/
structure WidgetPlacement where
  flex : Option Number := none
  isExpanded : Option Bool := none
  isPositioned : Option Bool := none
  positioned : Option Position := none
  left : Option Number := none
  right : Option Number := none
  top : Option Number := none
  bottom : Option Number := none
  deriving DecidableEq, Repr

/-- What a widget looks like and does as a component. -/
structure WidgetSemantics where
  textAlign : Option Text := none
  style : Option Text := none
  size : Option Text := none
  elevation : Option Number := none
  outlined : Option Bool := none
  disabled : Option Bool := none
  deriving DecidableEq, Repr

/-- All properties of a widget. -/
structure WidgetProperties extends WidgetContent, WidgetBox, WidgetPlacement, WidgetSemantics where
  /-- The properties without a type of their own, in order. -/
  extras : Fields := []

namespace WidgetContent

def decode (fs : Fields) : Decoded WidgetContent :=
  WidgetContent.mk
    <$> fs.optional (.word "data") .text
    <*> fs.optional (.word "text") .text
    <*> fs.optional (.word "key") .text
    <*> fs.optional (.word "icon") .text
    <*> fs.optional ⟨"iconData", "icon_data"⟩ .text

def typed (c : WidgetContent) : List (Key × Option Value) := [
  (.word "data", c.data.map .text),
  (.word "text", c.text.map .text),
  (.word "key", c.key.map .text),
  (.word "icon", c.icon.map .text),
  (⟨"iconData", "icon_data"⟩, c.iconData.map .text)]

end WidgetContent

namespace WidgetBox

def decode (fs : Fields) : Decoded WidgetBox :=
  WidgetBox.mk
    <$> fs.optional (.word "width") .number
    <*> fs.optional (.word "height") .number
    <*> fs.optional (.word "padding") EdgeInsets.decode
    <*> fs.optional (.word "margin") EdgeInsets.decode
    <*> fs.optional (.word "decoration") Decoration.decode
    <*> fs.optional ⟨"clipBehavior", "clip_behavior"⟩ .text
    <*> fs.optional (.word "alignment") .text

def typed (b : WidgetBox) : List (Key × Option Value) := [
  (.word "width", b.width.map .number),
  (.word "height", b.height.map .number),
  (.word "padding", b.padding.map EdgeInsets.toValue),
  (.word "margin", b.margin.map EdgeInsets.toValue),
  (.word "decoration", b.decoration.map Decoration.toValue),
  (⟨"clipBehavior", "clip_behavior"⟩, b.clipBehavior.map .text),
  (.word "alignment", b.alignment.map .text)]

end WidgetBox

namespace WidgetPlacement

def decode (fs : Fields) : Decoded WidgetPlacement :=
  WidgetPlacement.mk
    <$> fs.optional (.word "flex") .number
    <*> fs.optional ⟨"isExpanded", "is_expanded"⟩ .bool
    <*> fs.optional ⟨"isPositioned", "is_positioned"⟩ .bool
    <*> fs.optional (.word "positioned") Position.decode
    <*> fs.optional (.word "left") .number
    <*> fs.optional (.word "right") .number
    <*> fs.optional (.word "top") .number
    <*> fs.optional (.word "bottom") .number

def typed (p : WidgetPlacement) : List (Key × Option Value) := [
  (.word "flex", p.flex.map .number),
  (⟨"isExpanded", "is_expanded"⟩, p.isExpanded.map .bool),
  (⟨"isPositioned", "is_positioned"⟩, p.isPositioned.map .bool),
  (.word "positioned", p.positioned.map Position.toValue),
  (.word "left", p.left.map .number),
  (.word "right", p.right.map .number),
  (.word "top", p.top.map .number),
  (.word "bottom", p.bottom.map .number)]

end WidgetPlacement

namespace WidgetSemantics

def decode (fs : Fields) : Decoded WidgetSemantics :=
  WidgetSemantics.mk
    <$> fs.optional ⟨"textAlign", "text_align"⟩ .text
    <*> fs.optional (.word "style") .text
    <*> fs.optional (.word "size") .text
    <*> fs.optional (.word "elevation") .number
    <*> fs.optional (.word "outlined") .bool
    <*> fs.optional (.word "disabled") .bool

def typed (s : WidgetSemantics) : List (Key × Option Value) := [
  (⟨"textAlign", "text_align"⟩, s.textAlign.map .text),
  (.word "style", s.style.map .text),
  (.word "size", s.size.map .text),
  (.word "elevation", s.elevation.map .number),
  (.word "outlined", s.outlined.map .bool),
  (.word "disabled", s.disabled.map .bool)]

end WidgetSemantics

namespace WidgetProperties

/-- The properties with a type, each with its value as a document holds it. -/
def typed (p : WidgetProperties) : List (Key × Option Value) :=
  p.toWidgetContent.typed ++ p.toWidgetBox.typed ++ p.toWidgetPlacement.typed ++
    p.toWidgetSemantics.typed

/-- The names of the properties with a type. -/
def typedKeys : List Key := ({} : WidgetProperties).typed.map (·.1)

/-- The fields of a record that no property with a type has taken. -/
def untaken (fs : Fields) : Fields :=
  fs.without (typedKeys.filterMap fun k => (k.find? fs).map (·.1))

/-- Reads every field of a record, whose names therefore have to be whole. -/
def decode : Value → Decoded WidgetProperties :=
  .record "WidgetProperties" fun fs =>
    if fs.any (·.1.hasSurrogate) then .fail .brokenText
    else (fun content box placement semantics =>
        WidgetProperties.mk content box placement semantics (untaken fs))
      <$> WidgetContent.decode fs
      <*> WidgetBox.decode fs
      <*> WidgetPlacement.decode fs
      <*> WidgetSemantics.decode fs

/-- The properties with a type that are set. -/
def typedFields (p : WidgetProperties) : Fields :=
  p.typed.filterMap fun (k, v) => v.map (k.camel, ·)

/-- The properties without a type that are set. -/
def extraFields (p : WidgetProperties) : Fields := p.extras.filter (!·.2.isNull)

/-- The properties that are set. -/
def interchange (p : WidgetProperties) : Fields := p.typedFields ++ p.extraFields

def toValue (p : WidgetProperties) : Value :=
  .record (p.typedFields ++ p.extraFields.mapValues Value.toEncodable)

/-- The property of a name in either spelling, or else the one without a type; a property that is
not set or absent has the default value. -/
def get (p : WidgetProperties) (name : Text) (default : Value := .null) : Value :=
  let found :=
    match p.typed.find? fun (k, _) => k.camel == name || k.snake == name with
    | some (_, v) => v
    | none => p.extras.get? name
  match found with
  | none | some .null => default
  | some v => v

/-- The name under which an override is kept. -/
def overrideName (name : Text) : Text :=
  match typedKeys.find? (·.snake == name) with
  | some k => k.camel
  | none => name

/-- The properties with overrides on top, read anew. -/
def merged (p : WidgetProperties) (overrides : Fields) : Except Rejection WidgetProperties :=
  if overrides.isEmpty then .ok p
  else
    let fields := overrides.foldl (fun fs e => fs.set (overrideName e.1) e.2) p.interchange
    (decode (.record fields)).asModel "WidgetProperties"

end WidgetProperties

end DesignTree
