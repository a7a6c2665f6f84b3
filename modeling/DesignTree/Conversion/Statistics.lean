import DesignTree.Node.Basic
import DesignTree.Token.Table
import DesignTree.Widget.Basic

/-! # Statistics of a conversion -/

namespace DesignTree

/-- What a conversion found and made. -/
structure Statistics where
  widgetsFound : Nat := 0
  widgetsConverted : Nat := 0
  componentsCreated : Nat := 0
  variablesCreated : Nat := 0
  framesCreated : Nat := 0
  textNodesCreated : Nat := 0
  instancesCreated : Nat := 0
  unsupportedWidgets : Nat := 0
  deriving DecidableEq, Repr

namespace Statistics

/-- The statistics of a widget tree, the node tree made from it, and what was made beside it. -/
def collect (w : Widget) (n : Node) (components : Nat) (tokens : TokenTable) : Statistics :=
  let nodes (kind : NodeKind) : Nat := n.walk.countP (·.kind = kind)
  { widgetsFound := w.size
    widgetsConverted := n.count
    componentsCreated := components
    variablesCreated := tokens.variableCount
    framesCreated := nodes .frame
    textNodesCreated := nodes .text
    instancesCreated := nodes .componentInstance
    unsupportedWidgets := w.walk.countP Widget.isUnsupported }

/-- The time that a conversion takes, in milliseconds. A conversion reads no clock. -/
def processingTime : Double := .ofInt 0

def toValue (s : Statistics) : Value :=
  .record [("widgetsFound", .ofNat s.widgetsFound), ("widgetsConverted", .ofNat s.widgetsConverted),
    ("componentsCreated", .ofNat s.componentsCreated),
    ("variablesCreated", .ofNat s.variablesCreated), ("framesCreated", .ofNat s.framesCreated),
    ("textNodesCreated", .ofNat s.textNodesCreated),
    ("instancesCreated", .ofNat s.instancesCreated),
    ("unsupportedWidgets", .ofNat s.unsupportedWidgets),
    ("processingTime", .ofDouble processingTime)]

end Statistics

end DesignTree
