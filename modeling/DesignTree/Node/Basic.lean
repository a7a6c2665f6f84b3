import DesignTree.Node.Properties
import DesignTree.Widget.Kind

/-! # Nodes of a design document

A design document is a tree of nodes. A node tree can be written only if every length in it has a
double near it.
-/

namespace DesignTree

/-- A property of a node that follows a variable. -/
structure Binding where
  targetProperty : Text
  variableId : Text
  variableAlias : Option Text := none
  deriving DecidableEq, Repr

namespace Binding

def decode : Value → Decoded Binding :=
  .record "VariableBinding" fun fs =>
    Binding.mk
      <$> fs.required ⟨"targetProperty", "target_property"⟩ .text
      <*> fs.required ⟨"variableId", "variable_id"⟩ .text
      <*> fs.optional ⟨"variableAlias", "variable_alias"⟩ .text

def toValue (b : Binding) : Value :=
  .record (field "targetProperty" (.text b.targetProperty) ++
    field "variableId" (.text b.variableId) ++
    optionalField "variableAlias" .text b.variableAlias)

end Binding

/-- A node with its children in order. -/
structure Node where
  id : Option Text := none
  kind : NodeKind
  name : Text
  properties : NodeProperties := {}
  autoLayout : Option AutoLayout := none
  bindings : List Binding := []
  children : List Node := []
  /-- The widget that the node was made from. -/
  widgetId : Option Text := none

namespace Node

instance : Inhabited Node := ⟨{ kind := .frame, name := "" }⟩

/-- A node from its fields, with its children already read. -/
def ofFields (fs : Fields) (children : Decoded (List Node)) : Decoded Node :=
  Node.mk
    <$> fs.optional (.word "id") .text
    <*> fs.required (.word "type") .spelled
    <*> fs.required (.word "name") .text
    <*> fs.orElse (.word "properties") {} NodeProperties.decode
    <*> fs.optional ⟨"autoLayout", "auto_layout"⟩ AutoLayout.decode
    <*> fs.orElse (.word "variables") [] (.list Binding.decode)
    <*> children
    <*> fs.optional ⟨"widgetId", "widget_id"⟩ .text

mutual

def decode : Value → Decoded Node
  | .record fs => ofFields fs (decodeChildren fs)
  | _ => .fail (.notModel "TargetNodeSpec")

/-- The children among the fields of a node. -/
def decodeChildren : List (Text × Value) → Decoded (List Node)
  | [] => .ok []
  | (name, v) :: rest =>
    if name = "children" then (decodeChildList v).under "children" else decodeChildren rest

def decodeChildList : Value → Decoded (List Node)
  | .list items => decodeItems 0 items
  | _ => .fail .notList

def decodeItems (i : Nat) : List Value → Decoded (List Node)
  | [] => .ok []
  | v :: rest => List.cons <$> (decode v).under i.repr <*> decodeItems (i + 1) rest

end

mutual

/-- A node as it is written; lengths out of the range of doubles are written as infinities. -/
def toValue : Node → Value
  | ⟨id, kind, name, properties, autoLayout, bindings, children, widgetId⟩ =>
    .record (optionalField "id" .text id ++
      field "type" (.ofSpelled kind) ++ field "name" (.text name) ++
        field "properties" properties.toValue ++
      optionalField "autoLayout" AutoLayout.toValue autoLayout ++
      ([("variables", .list (bindings.map Binding.toValue)),
        ("children", .list (childValues children))] : Fields) ++
      optionalField "widgetId" .text widgetId)

def childValues : List Node → List Value
  | [] => []
  | n :: rest => n.toValue :: childValues rest

end

mutual

/-- The nodes of a tree, each one before its children. -/
def walk : Node → List Node
  | ⟨id, kind, name, properties, autoLayout, bindings, children, widgetId⟩ =>
    ⟨id, kind, name, properties, autoLayout, bindings, children, widgetId⟩ :: walkAll children

def walkAll : List Node → List Node
  | [] => []
  | n :: rest => n.walk ++ walkAll rest

end

/-- The number of nodes of a tree. -/
def count (n : Node) : Nat := n.walk.length

theorem walk_eq (n : Node) : n.walk = n :: walkAll n.children := by
  cases n
  rfl

@[simp]
theorem walkAll_nil : walkAll [] = [] := rfl

@[simp]
theorem walkAll_cons (n : Node) (rest : List Node) :
    walkAll (n :: rest) = n.walk ++ walkAll rest := rfl

theorem walkAll_eq_flatMap (ns : List Node) : walkAll ns = ns.flatMap walk := by
  induction ns with
  | nil => rfl
  | cons n rest ih => simp [ih]

/-- Whether every length of a node itself has a double near it. -/
def lengthsFit (n : Node) : Bool :=
  (n.properties.lengths ++ (n.autoLayout.map AutoLayout.lengths).getD []).all Number.fitsDouble

/-- Whether every length of a tree has a double near it. -/
def fits (n : Node) : Bool := n.walk.all lengthsFit

/-- A node tree as it is written, if all its lengths can be. -/
def write (n : Node) : Except Fault Value :=
  if n.fits then .ok n.toValue else .error .integerTooLarge

end Node

end DesignTree
