import DesignTree.Component.Naming
import DesignTree.Variant.Switch
import DesignTree.Variant.Synthesis

/-! # Building components

A component is built from a reusable widget: first its variants, then the tree of its base, and last
its identifier. A catalog holds what has been built and finds it by identifier or by name.
-/

namespace DesignTree

/-- The node tree of a component's base, under the component's name and description. -/
def Node.asComponent (n : Node) (name description : Text) : Node :=
  { n with
    kind := .component
    name
    properties := { n.properties with description := some description } }

/-- The component of a reusable widget. -/
def Synthesizer.build (s : Synthesizer) (d : Definition) : InRun Component := do
  let name := d.componentName
  let variants ← s.variants d
  let properties := d.switches
  let description := d.describe variants.length properties.length
  let base ← s.lower d.widget
  let id ← InRun.nextId (Component.idStem name)
  return {
    id, name, description, variants, properties
    nodeSpec := base.asComponent name description
    baseWidgetId := d.widget.id
    sourceName := d.name }

/-- A component and the reusable widget that it was built from. -/
structure BuiltComponent where
  definition : Definition
  component : Component

/-- Built components, the earliest first. -/
abbrev Catalog := List BuiltComponent

namespace Catalog

/-- The component with an identifier. -/
def byId? (c : Catalog) (id : Text) : Option BuiltComponent :=
  List.find? (fun b => b.component.id == id) c

/-- The earliest component of a name. -/
def byName? (c : Catalog) (name : Text) : Option BuiltComponent :=
  List.find? (fun b => b.component.name == name) c

/-- The component that a key stands for: an identifier before a name. -/
def find? (c : Catalog) (key : Text) : Option BuiltComponent := c.byId? key <|> c.byName? key

/-- The component that a key stands for; an unknown key is a fault. -/
def get (c : Catalog) (key : Text) : Except Fault BuiltComponent :=
  match c.find? key with
  | some b => .ok b
  | none => .error (.design (.componentNotFound key))

/-- The identifiers of the components with their names. -/
def listing (c : Catalog) : List (Text × Text) :=
  c.map fun b => (b.component.id, b.component.name)

end Catalog

/-- Builds a component into a catalog. -/
def Synthesizer.addTo (s : Synthesizer) (c : Catalog) (d : Definition) : InRun Catalog := do
  return c ++ [⟨d, ← s.build d⟩]

/-- The catalog of reusable widgets, one after the other. -/
def Synthesizer.buildAll (s : Synthesizer) : List Definition → InRun Catalog
  | [] => return []
  | d :: rest => do
    let component ← s.build d
    return ⟨d, component⟩ :: (← s.buildAll rest)

end DesignTree
