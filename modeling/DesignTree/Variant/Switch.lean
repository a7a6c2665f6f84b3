import DesignTree.Variant.Matrix
import DesignTree.Variant.Name

/-! # Switches of components

The properties by which users switch between the variants of a component: one for each property of
the widget that varies, those that belong to its kind, and its text and icon where it has them.
-/

namespace DesignTree

namespace Scalar

def isText : Scalar → Bool
  | .text _ => true
  | _ => false

def isBool : Scalar → Bool
  | .bool _ => true
  | _ => false

/-- A scalar in a message. -/
def inWords (s : Scalar) : Text := Literal.text s.toValue

end Scalar

/-- A property with a fixed list of options, one of which is the default. -/
def ComponentProperty.ofOptions (name default : Text) (options : List Text) :
    ComponentProperty where
  name
  kind := .variant
  defaultValue := .text default
  variantOptions := some options

/-- The switches that belong to a kind of widget. -/
def WidgetKind.switches : WidgetKind → List ComponentProperty
  | .button => [
    .ofOptions "State" "default" ["default", "hover", "pressed", "disabled"],
    .ofOptions "Size" "medium" ["small", "medium", "large"]]
  | .card => [.ofOptions "Elevation" "low" ["none", "low", "medium", "high"]]
  | .text => [.ofOptions "Emphasis" "normal" ["normal", "bold", "italic"]]
  | _ => []

namespace Definition

/-- The default of a switch for an icon. -/
def iconPlaceholder : Text := "icon-placeholder"

/-- The switch for a property that takes some values. Truth values alone make an on-off switch,
texts alone a choice, and anything else a free text. -/
def switchOf (key : Text) (values : List Scalar) : ComponentProperty :=
  let name := Variant.propertyTitle key
  let first := ((values.head?).map Scalar.inWords).getD ""
  if values.all (·.isBool) then { name, kind := .boolean, defaultValue := .bool false }
  else if values.all (·.isText) then .ofOptions name first (values.map Scalar.inWords)
  else { name, kind := .text, defaultValue := .text first }

/-- The switches for the properties that vary. -/
def matrixSwitches (d : Definition) : List ComponentProperty :=
  (PropertyMatrix.ofDefinition d).values.map fun (key, values) => switchOf key values

/-- The switches of the widget's kind whose names are not taken. -/
def kindSwitches (d : Definition) : List ComponentProperty :=
  let taken := d.matrixSwitches.map (·.name)
  d.widget.kind.switches.filter fun p => !taken.contains p.name

/-- The switch for the text that the widget shows. -/
def textSwitch (d : Definition) : List ComponentProperty :=
  if d.widget.hasTextContent then
    [{ name := "Text", kind := .text,
       defaultValue := .text (d.widget.extractText.getD "Text") }]
  else []

/-- The switch for the icon that the widget shows. -/
def iconSwitch (d : Definition) : List ComponentProperty :=
  if d.widget.hasIconContent then
    [{ name := "Icon", kind := .instanceSwap, defaultValue := .text iconPlaceholder }]
  else []

/-- The switches of a component. -/
def switches (d : Definition) : List ComponentProperty :=
  d.matrixSwitches ++ d.kindSwitches ++ d.textSwitch ++ d.iconSwitch

end Definition

end DesignTree
