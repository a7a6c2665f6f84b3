import DesignTree.Node.Basic
import DesignTree.Text.Case

/-! # Outlines of node trees

A node tree as text, one line a node, with lines drawn from each node to its children.
-/

namespace DesignTree.Node

/-- What stands in brackets after the name of a node. -/
def remarks (n : Node) : List Text :=
  let kind :=
    match n.kind, n.properties.componentId with
    | .componentInstance, some id =>
      if id.isEmpty then spelling n.kind else spelling n.kind ++ " -> " ++ id
    | _, _ => spelling n.kind
  let mode :=
    match n.autoLayout with
    | some layout =>
      if layout.layoutMode = .none then [] else [Text.lower (spelling layout.layoutMode)]
    | none => []
  let text :=
    match n.kind, n.properties.characters with
    | .text, some s => if s.isEmpty then [] else ["\"" ++ s ++ "\""]
    | _, _ => []
  let bound : List Text := if n.bindings.isEmpty then [] else [n.bindings.length.repr ++ " bound"]
  kind :: mode ++ text ++ bound

/-- The name of a node and the remarks on it. -/
def caption (n : Node) : Text :=
  n.name ++ " [" ++ Text.intercalate ", " n.remarks ++ "]"

/-- What is drawn in front of a node below the root. -/
def connector (isLast : Bool) : Text := if isLast then "└── " else "├── "

/-- What is drawn, in front of the nodes below it, under the connector of a node. -/
def rail (isLast : Bool) : Text := if isLast then "    " else "│   "

mutual

/-- The lines of a tree, with `lead` before the node itself and `indent` before the nodes below. -/
def outlineLines (lead indent : Text) : Node → List Text
  | ⟨id, kind, name, properties, autoLayout, bindings, children, widgetId⟩ =>
    (lead ++ caption ⟨id, kind, name, properties, autoLayout, bindings, children, widgetId⟩) ::
      outlineChildren indent children

def outlineChildren (indent : Text) : List Node → List Text
  | [] => []
  | n :: rest =>
    outlineLines (indent ++ connector rest.isEmpty) (indent ++ rail rest.isEmpty) n ++
      outlineChildren indent rest

end

/-- A node tree as text. -/
def outline (n : Node) : Text := Text.intercalate "\n" (outlineLines "" "" n)

end DesignTree.Node
