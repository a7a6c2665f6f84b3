import DesignTree.Component.Catalog
import DesignTree.Lowering.Placement

/-! # Instances of components

A usage of a component becomes a node without children that refers to the component and overrides
what differs from it: the text, the plain colours and the size.
-/

namespace DesignTree

/-- The name of the instance for a usage: the component's name with the text of the usage, or else
its key. -/
def Widget.instanceName (usage : Widget) (componentName : Text) : Text :=
  match usage.extractText with
  | some text => componentName ++ " \"" ++ Widget.excerpt text ++ "\""
  | none =>
    match usage.properties.key with
    | some key => if key.isEmpty then componentName else componentName ++ " (" ++ key ++ ")"
    | none => componentName

namespace Definition

/-- The text of a usage, where it differs. -/
def textOverride (d : Definition) (usage : Widget) : Fields :=
  match usage.extractText with
  | some text => if d.widget.extractText = some text then [] else [("Text", .text text)]
  | none => []

/-- The colours of a widget that no theme gives. -/
def plainColors (s : Styling) : List (Text × Text) :=
  (s.colors.filter (!·.isThemeReference)).map fun c => (c.property, c.value)

/-- The plain colours of a usage that the component does not have, by their places. -/
def colorOverrides (d : Definition) (usage : Widget) : Fields :=
  let known := plainColors d.widget.styling
  usage.styling.colors.zipIdx.filterMap fun (c, i) =>
    if c.isThemeReference || known.contains (c.property, c.value) then none
    else some ("Color_" ++ i.repr, .text c.value)

/-- A length of a usage, where it differs. -/
def lengthOverride (name : Text) (base own : Option Number) : Fields :=
  match own with
  | some n => if base.any n.same then [] else [(name, .number n)]
  | none => []

/-- What a usage of the component overrides. -/
def overrides (d : Definition) (usage : Widget) : Fields :=
  d.textOverride usage ++ d.colorOverrides usage ++
    lengthOverride "Width" d.widget.properties.width usage.properties.width ++
    lengthOverride "Height" d.widget.properties.height usage.properties.height

end Definition

namespace BuiltComponent

/-- The properties of the instance for a usage. -/
def instanceProperties (b : BuiltComponent) (usage : Widget) : Except Fault NodeProperties :=
  let p := usage.properties
  Decoded.orFault "NodeProperties" <|
    (fun width height layoutGrow =>
      { width, height, layoutGrow
        visible := some true
        locked := some false
        componentId := some b.component.id
        overrides := some (b.definition.overrides usage) })
      <$> lengthIfAny "width" p.width
      <*> lengthIfAny "height" p.height
      <*> lengthIfAny "layout_grow" (p.flex.filter (!·.isZero))

/-- The instance for a usage. -/
def instantiate (b : BuiltComponent) (usage : Widget) : InRun Node := do
  let properties ← InRun.lift (b.instanceProperties usage)
  let id ← InRun.nextId
  return { id, kind := .componentInstance, name := usage.instanceName b.component.name, properties,
           widgetId := usage.id }

end BuiltComponent

/-- The instance for a usage of the component that a key stands for. -/
def Catalog.instantiate (c : Catalog) (usage : Widget) (key : Text) : InRun Node := do
  (← InRun.lift (c.get key)).instantiate usage

end DesignTree
