import DesignTree.Decode.Scalar
import DesignTree.Text.Blank
import DesignTree.Text.Case

/-! # Kinds of widgets

The closed vocabulary of widget kinds, what is known about each of them, and the other names under
which frameworks know them.
-/

namespace DesignTree

/-- The kinds of widgets. -/
inductive WidgetKind
  | container
  | row
  | column
  | stack
  | text
  | image
  | button
  | card
  | scaffold
  | appbar
  | custom
  deriving DecidableEq, Repr

instance : Spelled WidgetKind where
  all := [.container, .row, .column, .stack, .text, .image, .button, .card, .scaffold, .appbar,
    .custom]
  spelling
    | .container => "container"
    | .row => "row"
    | .column => "column"
    | .stack => "stack"
    | .text => "text"
    | .image => "image"
    | .button => "button"
    | .card => "card"
    | .scaffold => "scaffold"
    | .appbar => "appbar"
    | .custom => "custom"

/-- The kinds of nodes of a design document. -/
inductive NodeKind
  | frame
  | text
  | rectangle
  | component
  | componentInstance
  | group
  | vector
  deriving DecidableEq, Repr

instance : Spelled NodeKind where
  all := [.frame, .text, .rectangle, .component, .componentInstance, .group, .vector]
  spelling
    | .frame => "FRAME"
    | .text => "TEXT"
    | .rectangle => "RECTANGLE"
    | .component => "COMPONENT"
    | .componentInstance => "INSTANCE"
    | .group => "GROUP"
    | .vector => "VECTOR"

/-- The sections of a component library. -/
inductive Category
  | buttons
  | typography
  | surfaces
  | layout
  | navigation
  | media
  | components
  deriving DecidableEq, Repr

instance : Spelled Category where
  all := [.buttons, .typography, .surfaces, .layout, .navigation, .media, .components]
  spelling
    | .buttons => "Buttons"
    | .typography => "Typography"
    | .surfaces => "Surfaces"
    | .layout => "Layout"
    | .navigation => "Navigation"
    | .media => "Media"
    | .components => "Components"

namespace WidgetKind

/-- The name of a kind in generated names. -/
def displayName : WidgetKind → Text
  | .container => "Container"
  | .row => "Row"
  | .column => "Column"
  | .stack => "Stack"
  | .text => "Text"
  | .image => "Image"
  | .button => "Button"
  | .card => "Card"
  | .scaffold => "Scaffold"
  | .appbar => "AppBar"
  | .custom => "Custom"

/-- The kind of node that a widget becomes. -/
def nodeKind : WidgetKind → NodeKind
  | .container | .row | .column | .stack | .scaffold | .custom => .frame
  | .text => .text
  | .image => .rectangle
  | .button | .card | .appbar => .component

/-- The section of the library for components of a kind. -/
def category : WidgetKind → Category
  | .container | .custom => .components
  | .row | .column | .stack => .layout
  | .scaffold | .appbar => .navigation
  | .text => .typography
  | .image => .media
  | .button => .buttons
  | .card => .surfaces

/-- What a kind is, in words. -/
def description : WidgetKind → Text
  | .container => "Box with optional decoration, padding and a single child"
  | .row => "Arranges children horizontally"
  | .column => "Arranges children vertically"
  | .stack => "Layers children on top of each other with absolute placement"
  | .text => "Run of literal text"
  | .image => "Raster or network image, drawn as a filled rectangle"
  | .button => "Pressable control"
  | .card => "Elevated surface grouping related content"
  | .scaffold => "Top-level screen structure"
  | .appbar => "Top navigation bar"
  | .custom => "User-defined or wrapper widget (Expanded, Positioned, ...)"

/-- Other names of a kind, in lower case. -/
def aliases : WidgetKind → List Text
  | .container => ["box", "sizedbox", "padding", "center", "align", "decoratedbox"]
  | .row => ["hstack"]
  | .column => ["vstack", "listview"]
  | .stack => ["zstack", "overlay"]
  | .text => ["richtext", "selectabletext", "label"]
  | .image => ["networkimage", "assetimage", "img"]
  | .button =>
    ["elevatedbutton", "textbutton", "outlinedbutton", "filledbutton", "iconbutton",
      "cupertinobutton"]
  | .card => ["material"]
  | .scaffold => ["cupertinopagescaffold"]
  | .appbar => ["app_bar", "cupertinonavigationbar", "navigationbar", "toolbar"]
  | .custom => ["expanded", "flexible", "positioned", "statelesswidget"]

/-- Whether a kind arranges its children along an axis. -/
def isLayout : WidgetKind → Bool
  | .row | .column | .stack => true
  | _ => false

/-- Whether a kind draws itself alone, without children. -/
def isLeaf : WidgetKind → Bool
  | .text | .image => true
  | _ => false

/-- What is known about a kind. -/
def describe (k : WidgetKind) : Value :=
  .record [("type", .ofSpelled k), ("display_name", .text k.displayName),
    ("node_type", .ofSpelled k.nodeKind), ("category", .ofSpelled k.category),
    ("description", .text k.description), ("aliases", .ofTexts k.aliases),
    ("is_layout", .bool k.isLayout)]

/-- The kind that a name stands for, whatever its case and the blanks around it: the name of a kind
itself before another name of one. -/
def resolve? (name : Text) : Option WidgetKind :=
  let plain := Text.trim (Text.lower name)
  match Spelled.ofText? plain with
  | some k => some k
  | none => (Spelled.all : List WidgetKind).find? fun k => k.aliases.contains plain

/-- The kind of a name as it is spelled, or else the kind that the name stands for. -/
def ofName? (name : Text) : Option WidgetKind := Spelled.ofText? name <|> resolve? name

/-- The kind of node for a widget kind's name; unknown names give frames. -/
def nodeKindOf (name : Text) : NodeKind :=
  ((Spelled.ofText? name).map nodeKind).getD .frame

/-- The display name for a widget kind's name; unknown names stand for themselves. -/
def displayNameOf (name : Text) : Text := ((Spelled.ofText? name).map displayName).getD name

/-- The section for a widget kind's name. -/
def categoryOf (name : Text) : Category :=
  ((Spelled.ofText? name).map category).getD .components

/-- Everything that is known about the kinds, by name. -/
def registry : Value :=
  .record ((Spelled.all : List WidgetKind).map fun k => (spelling k, k.describe))

end WidgetKind

end DesignTree
