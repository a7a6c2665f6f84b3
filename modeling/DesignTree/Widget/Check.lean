import DesignTree.Widget.Basic

/-! # Checking widget trees

What is wrong with a widget tree as a whole: identifiers that occur twice, leaves with children,
texts without content, and children whose placement their parent cannot give them.
-/

namespace DesignTree

/-- The rules that a widget tree can break. -/
inductive TreeRule
  | duplicateId
  | leafWithChildren
  | emptyText
  | positionedOutsideStack
  | expandedOutsideFlex
  deriving DecidableEq, Repr

namespace TreeRule

/-- A rule in one word. -/
def code : TreeRule → Text
  | .duplicateId => "duplicate_id"
  | .leafWithChildren => "leaf_with_children"
  | .emptyText => "empty_text"
  | .positionedOutsideStack => "positioned_outside_stack"
  | .expandedOutsideFlex => "expanded_outside_flex"

/-- How a widget breaks a rule. -/
def message (w : Widget) : TreeRule → Text
  | .duplicateId => "Duplicate id: " ++ w.id
  | .leafWithChildren => spelling w.kind ++ " widgets cannot have children"
  | .emptyText => "Text widget has no content"
  | .positionedOutsideStack => "Positioned widget is not a direct child of a stack"
  | .expandedOutsideFlex => "Expanded widget is not a direct child of a row or column"

end TreeRule

/-- A rule that a widget of the tree breaks. -/
structure TreeIssue where
  nodeId : Text
  message : Text
  rule : TreeRule
  deriving DecidableEq, Repr

namespace Widget

mutual

/-- The widgets of a tree in the order of its walk, each with its parent. -/
def walkWithParent (parent : Option Widget) : Widget → List (Option Widget × Widget)
  | ⟨id, kind, sourceType, properties, children, styling, layout, position⟩ =>
    let w : Widget := ⟨id, kind, sourceType, properties, children, styling, layout, position⟩
    (parent, w) :: walkAllWithParent w children

def walkAllWithParent (parent : Widget) : List Widget → List (Option Widget × Widget)
  | [] => []
  | w :: rest => walkWithParent (some parent) w ++ walkAllWithParent parent rest

end

/-- Whether a widget asks for a place of its own. -/
def isPlaced (w : Widget) : Bool := w.properties.isPositioned = some true || w.position.isSome

/-- Whether a widget is a leaf that has children all the same. -/
def isLeafWithChildren (w : Widget) : Bool := w.kind.isLeaf && !w.children.isEmpty

/-- Whether a widget is a text without content. -/
def isEmptyText (w : Widget) : Bool := w.kind = .text && !w.hasOwnText

/-- Whether a child asks for a place that its parent does not give. -/
def isStray (parent child : Widget) : Bool := child.isPlaced && !parent.isStack

/-- Whether a child asks to grow where its parent has no axis to grow along. -/
def isStrayExpanded (parent child : Widget) : Bool :=
  child.properties.isExpanded = some true && !parent.isFlexParent

/-- The rules that a widget breaks, given the identifiers before it and its parent. -/
def brokenRules (seen : List Text) (parent : Option Widget) (w : Widget) : List TreeRule :=
  (if seen.contains w.id then [.duplicateId] else []) ++
    (if w.isLeafWithChildren then [.leafWithChildren] else []) ++
    (if w.isEmptyText then [.emptyText] else []) ++
    match parent with
    | none => []
    | some p =>
      (if isStray p w then [.positionedOutsideStack] else []) ++
        if isStrayExpanded p w then [.expandedOutsideFlex] else []

/-- The issues of widgets in order, `seen` being the identifiers before them. -/
def issuesFrom (seen : List Text) : List (Option Widget × Widget) → List TreeIssue
  | [] => []
  | (parent, w) :: rest =>
    (brokenRules seen parent w).map (fun rule => ⟨w.id, rule.message w, rule⟩) ++
      issuesFrom (w.id :: seen) rest

/-- Every rule that a tree breaks, in the order of its walk. -/
def check (w : Widget) : List TreeIssue := issuesFrom [] (walkWithParent none w)

/-- Whether a tree breaks no rule. -/
def isValid (w : Widget) : Bool := w.check.isEmpty

end Widget

end DesignTree
