import DesignTree.Widget.Basic

/-! # Reusable widgets

A widget that recurs, with the variations of it that were recorded and the widgets of the tree that
are usages of it.
-/

namespace DesignTree

/-- A recorded variation: what it overrides. -/
structure RecordedVariant where
  name : Text := ""
  properties : Fields := []
  styling : Option Styling := none

namespace RecordedVariant

def decode : Value → Decoded RecordedVariant :=
  .record "WidgetVariant" fun fs =>
    RecordedVariant.mk
      <$> fs.orElse (.word "name") "" .text
      <*> fs.orElse (.word "properties") [] (.mapOf .any)
      <*> fs.optional (.word "styling") Styling.decode

def toValue (v : RecordedVariant) : Value :=
  .record (field "name" (.text v.name) ++ field "properties" v.properties.toEncodable ++
    optionalField "styling" Styling.toValue v.styling)

end RecordedVariant

/-- A reusable widget. -/
structure Definition where
  widget : Widget
  name : Text
  variants : List RecordedVariant := []
  usageCount : Int := 0
  usageIds : List Text := []

namespace Definition

def decode : Value → Decoded Definition
  | .record fs =>
    let resolved := Widget.resolveKind fs
    Definition.mk
      <$> Widget.ofFields resolved (Widget.decodeChildren fs)
      <*> resolved.required (.word "name") .text
      <*> resolved.orElse (.word "variants") [] (.list RecordedVariant.decode)
      <*> resolved.orElse ⟨"usageCount", "usage_count"⟩ 0 .int
      <*> resolved.orElse ⟨"usageIds", "usage_ids"⟩ [] (.list .text)
  | _ => .fail (.notModel "ReusableWidgetDefinition")

def toValue (d : Definition) : Value :=
  .record (d.widget.fields ++ ([("name", .text d.name),
    ("variants", .list (d.variants.map RecordedVariant.toValue)),
    ("usageCount", .number (.int d.usageCount)), ("usageIds", .ofTexts d.usageIds)] : Fields))

/-- The widget of a recorded variation. -/
def variantWidget (d : Definition) (v : RecordedVariant) : Except Rejection Widget :=
  d.widget.withOverrides v.properties v.styling

end Definition

end DesignTree
