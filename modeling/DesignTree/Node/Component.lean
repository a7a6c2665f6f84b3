import DesignTree.Node.Basic

/-! # Components

A component holds a node for its base configuration, one for each of its variants, and the
properties by which its users switch between them.
-/

namespace DesignTree

/-- The kinds of properties of a component. -/
inductive PropertyKind
  | boolean
  | text
  | variant
  | instanceSwap
  deriving DecidableEq, Repr

instance : Spelled PropertyKind where
  all := [.boolean, .text, .variant, .instanceSwap]
  spelling
    | .boolean => "BOOLEAN"
    | .text => "TEXT"
    | .variant => "VARIANT"
    | .instanceSwap => "INSTANCE_SWAP"

/-- A value of a property of a component's variant. -/
inductive Scalar
  | text (value : Text)
  | bool (value : Bool)
  | number (value : Number)
  deriving DecidableEq, Repr

namespace Scalar

def toValue : Scalar → Value
  | .text s => .text s
  | .bool b => .bool b
  | .number n => .number n

/-- The scalar that a value is, if it is one. -/
def ofValue? : Value → Option Scalar
  | .text s => some (.text s)
  | .bool b => some (.bool b)
  | .number n => some (.number n)
  | _ => none

/-- Whether two scalars are of one kind and equal; numbers compare by where they lie. -/
def same : Scalar → Scalar → Bool
  | .text a, .text b => a == b
  | .bool a, .bool b => a == b
  | .number a, .number b => a.alike b
  | _, _ => false

/-- A value that is a text, a truth value or a number, with nothing read into it. -/
def decode (v : Value) : Decoded Scalar :=
  match ofValue? v with
  | some s => .ok s
  | none =>
    .failed [⟨["str"], .notText⟩, ⟨["bool"], .notBool⟩, ⟨["int"], .notInt⟩, ⟨["float"], .notNumber⟩]

/-- A text, or what can be read as a truth value. -/
def decodeTextOrBool : Value → Decoded Scalar
  | .text s => .ok (.text s)
  | v =>
    match Decoded.bool v with
    | .ok b => .ok (.bool b)
    | .failed issues => .failed (⟨["str"], .notText⟩ :: issues.map (·.under "bool"))

end Scalar

/-- A property by which a component is switched. -/
structure ComponentProperty where
  name : Text
  kind : PropertyKind
  defaultValue : Scalar
  variantOptions : Option (List Text) := none
  deriving DecidableEq, Repr

namespace ComponentProperty

def decode : Value → Decoded ComponentProperty :=
  .record "ComponentProperty" fun fs =>
    ComponentProperty.mk
      <$> fs.required (.word "name") .text
      <*> fs.required (.word "type") .spelled
      <*> fs.required ⟨"defaultValue", "default_value"⟩ Scalar.decodeTextOrBool
      <*> fs.optional ⟨"variantOptions", "variant_options"⟩ (.list .text)

def toValue (p : ComponentProperty) : Value :=
  .record (([("name", .text p.name), ("type", .ofSpelled p.kind),
    ("defaultValue", p.defaultValue.toValue)] : Fields) ++
    optionalField "variantOptions" .ofTexts p.variantOptions)

end ComponentProperty

/-- One configuration of a component. -/
structure ComponentVariant where
  name : Text
  properties : Entries Scalar := []
  nodeSpec : Node

namespace ComponentVariant

def decode : Value → Decoded ComponentVariant :=
  .record "ComponentVariant" fun fs =>
    ComponentVariant.mk
      <$> fs.required (.word "name") .text
      <*> fs.orElse (.word "properties") [] (.mapOf Scalar.decode)
      <*> fs.required ⟨"nodeSpec", "node_spec"⟩ Node.decode

def toValue (v : ComponentVariant) : Value :=
  .record [("name", .text v.name),
    ("properties", .record (v.properties.toEncodable.mapValues Scalar.toValue)),
    ("nodeSpec", v.nodeSpec.toValue)]

/-- A variant as it is written, if all its lengths can be. -/
def write (v : ComponentVariant) : Except Fault Value :=
  if v.nodeSpec.fits then .ok v.toValue else .error .integerTooLarge

end ComponentVariant

/-- A reusable component. -/
structure Component where
  id : Text
  name : Text
  description : Text := ""
  variants : List ComponentVariant := []
  properties : List ComponentProperty := []
  nodeSpec : Option Node := none
  baseWidgetId : Option Text := none
  sourceName : Option Text := none

namespace Component

def decode : Value → Decoded Component :=
  .record "ComponentDefinition" fun fs =>
    Component.mk
      <$> fs.required (.word "id") .text
      <*> fs.required (.word "name") .text
      <*> fs.orElse (.word "description") "" .text
      <*> fs.orElse (.word "variants") [] (.list ComponentVariant.decode)
      <*> fs.orElse (.word "properties") [] (.list ComponentProperty.decode)
      <*> fs.optional ⟨"nodeSpec", "node_spec"⟩ Node.decode
      <*> fs.optional ⟨"baseWidgetId", "base_widget_id"⟩ .text
      <*> fs.optional ⟨"sourceName", "source_name"⟩ .text

def toValue (c : Component) : Value :=
  .record (([("id", .text c.id), ("name", .text c.name), ("description", .text c.description),
    ("variants", .list (c.variants.map ComponentVariant.toValue)),
    ("properties", .list (c.properties.map ComponentProperty.toValue))] : Fields) ++
    optionalField "nodeSpec" Node.toValue c.nodeSpec ++
    optionalField "baseWidgetId" .text c.baseWidgetId ++
    optionalField "sourceName" .text c.sourceName)

/-- The node trees of a component: those of its variants, and that of its base. -/
def nodeSpecs (c : Component) : List Node := c.variants.map (·.nodeSpec) ++ c.nodeSpec.toList

/-- Whether every length of a component has a double near it. -/
def fits (c : Component) : Bool := c.nodeSpecs.all Node.fits

/-- A component as it is written, if all its lengths can be. -/
def write (c : Component) : Except Fault Value :=
  if c.fits then .ok c.toValue else .error .integerTooLarge

end Component

end DesignTree
