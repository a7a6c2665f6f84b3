import DesignTree.Component.Instance

/-! # Usages of components

A widget whose identifier is listed by a reusable widget is a usage of that one's component. In the
node tree the topmost usages become instances, which keep the placement of the nodes that they
replace.
-/

namespace DesignTree

/-- The components that widgets are usages of, by the identifiers of the widgets. -/
abbrev Usages := Entries Text

/-- The usages that reusable widgets list. Of several that list a widget the last one counts. -/
def Usages.ofCatalog (c : Catalog) : Usages :=
  (c.flatMap fun b => b.definition.usageIds.map (·, b.component.id)).foldl
    (fun us e => us.set e.1 e.2) []

/-- The properties of an instance in the place of a node. A size and a share of the space of its own
stay. -/
def NodeProperties.inPlaceOf (own replaced : NodeProperties) : NodeProperties :=
  { own with
    x := replaced.x
    y := replaced.y
    zIndex := replaced.zIndex
    constraints := replaced.constraints
    layoutGrow := own.layoutGrow <|> replaced.layoutGrow
    width := own.width <|> replaced.width
    height := own.height <|> replaced.height
    layoutSizingHorizontal := replaced.layoutSizingHorizontal
    layoutSizingVertical := replaced.layoutSizingVertical }

namespace Catalog

/-- The instance for a usage in the place of its node. -/
def replace (c : Catalog) (componentId : Text) (w : Widget) (n : Node) : InRun Node := do
  let instanced ← c.instantiate w componentId
  return { instanced with properties := instanced.properties.inPlaceOf n.properties }

mutual

/-- A node tree with instances in the place of the topmost usages of the widget tree that it was
made from. -/
def placeInstances (c : Catalog) (usages : Usages) : Widget → Node → InRun Node
  | ⟨wid, wkind, sourceType, wproperties, wchildren, styling, layout, position⟩, n =>
    match usages.get? wid with
    | some componentId =>
      c.replace componentId
        ⟨wid, wkind, sourceType, wproperties, wchildren, styling, layout, position⟩ n
    | none => do
      let children ← placeInstancesAll c usages wchildren n.children
      return { n with children }

/-- Sibling nodes with instances in the place of usages among sibling widgets. -/
def placeInstancesAll (c : Catalog) (usages : Usages) : List Widget → List Node → InRun (List Node)
  | w :: ws, n :: ns => do
    let node ← placeInstances c usages w n
    let others ← placeInstancesAll c usages ws ns
    return node :: others
  | [], [] => return []
  | _, _ => throw .childrenMissing

end

end Catalog

end DesignTree
