import DesignTree.Widget.Kind
import DesignTree.Widget.Properties
import DesignTree.Text.Search

/-! # Widgets

A widget tree, its reading from a document, and the questions that conversion asks about a widget.
-/

namespace DesignTree

/-- A widget with its children in source order. -/
structure Widget where
  id : Text
  kind : WidgetKind
  /-- The name of the widget where it differs from its kind. -/
  sourceType : Option Text := none
  properties : WidgetProperties := {}
  children : List Widget := []
  styling : Styling := {}
  layout : Option Layout := none
  position : Option Position := none

namespace Widget

instance : Inhabited Widget := ⟨{ id := "", kind := .custom }⟩

/-- The fields of a widget with the name of its kind resolved. A name other than the kind's own is
kept as the source type; the name of an unknown widget takes precedence over the second spelling
of that field. -/
def resolveKind (fs : Fields) : Fields :=
  match fs.get? "type" with
  | some (.text raw) =>
    match WidgetKind.resolve? raw with
    | none =>
      (Entries.set fs "type" (.text "custom") : Fields).setDefault "sourceType" (.text raw)
    | some kind =>
      let resolved : Fields := Entries.set fs "type" (.ofSpelled kind)
      if raw ≠ spelling kind ∧ !fs.has "source_type" then
        resolved.setDefault "sourceType" (.text raw)
      else resolved
  | _ => fs

/-- A widget from its fields, with its children already read. -/
def ofFields (fs : Fields) (children : Decoded (List Widget)) : Decoded Widget :=
  Widget.mk
    <$> fs.required (.word "id") .text
    <*> fs.required (.word "type") .spelled
    <*> fs.optional ⟨"sourceType", "source_type"⟩ .text
    <*> fs.orElse (.word "properties") {} WidgetProperties.decode
    <*> children
    <*> fs.orElse (.word "styling") {} Styling.decode
    <*> fs.optional (.word "layout") Layout.decode
    <*> fs.optional (.word "position") Position.decode

mutual

def decode : Value → Decoded Widget
  | .record fs => ofFields (resolveKind fs) (decodeChildren fs)
  | _ => .fail (.notModel "WidgetNode")

/-- The children among the fields of a widget. -/
def decodeChildren : List (Text × Value) → Decoded (List Widget)
  | [] => .ok []
  | (name, v) :: rest =>
    if name = "children" then (decodeChildList v).under "children" else decodeChildren rest

def decodeChildList : Value → Decoded (List Widget)
  | .list items => decodeItems 0 items
  | _ => .fail .notList

def decodeItems (i : Nat) : List Value → Decoded (List Widget)
  | [] => .ok []
  | v :: rest => List.cons <$> (decode v).under i.repr <*> decodeItems (i + 1) rest

end

mutual

/-- The fields of a widget in a document. -/
def fields : Widget → Fields
  | ⟨id, kind, sourceType, properties, children, styling, layout, position⟩ =>
    field "id" (.text id) ++ field "type" (.ofSpelled kind) ++
      optionalField "sourceType" .text sourceType ++
      ([("properties", properties.toValue), ("children", .list (childValues children)),
        ("styling", styling.toValue)] : Fields) ++
      optionalField "layout" Layout.toValue layout ++
      optionalField "position" Position.toValue position

def childValues : List Widget → List Value
  | [] => []
  | w :: rest => .record w.fields :: childValues rest

end

def toValue (w : Widget) : Value := .record w.fields

/-! ## Walking a tree -/

mutual

/-- The widgets of a tree, each one before its children. -/
def walk : Widget → List Widget
  | ⟨id, kind, sourceType, properties, children, styling, layout, position⟩ =>
    ⟨id, kind, sourceType, properties, children, styling, layout, position⟩ :: walkAll children

def walkAll : List Widget → List Widget
  | [] => []
  | w :: rest => w.walk ++ walkAll rest

end

/-- The number of widgets of a tree. -/
def size (w : Widget) : Nat := w.walk.length

theorem walk_eq (w : Widget) : w.walk = w :: walkAll w.children := by
  cases w
  rfl

@[simp]
theorem walkAll_nil : walkAll [] = [] := rfl

@[simp]
theorem walkAll_cons (w : Widget) (rest : List Widget) :
    walkAll (w :: rest) = w.walk ++ walkAll rest := rfl

theorem walkAll_eq_flatMap (ws : List Widget) : walkAll ws = ws.flatMap walk := by
  induction ws with
  | nil => rfl
  | cons w rest ih => simp [ih]

/-! ## Questions about a widget -/

/-- Whether the children are placed one by one. -/
def isStack (w : Widget) : Bool :=
  w.kind = .stack || (w.layout.map (·.kind)) = some .stack

/-- Whether the name of the widget stands for no known kind. -/
def isUnsupported (w : Widget) : Bool :=
  w.kind = .custom && match w.sourceType with
    | some name => (WidgetKind.resolve? name).isNone
    | none => false

/-- The text that the widget itself carries: its data unless that is empty, else its text. -/
def textContent (w : Widget) : Option Text :=
  match w.properties.data with
  | some s => if s.isEmpty then w.properties.text else some s
  | none => w.properties.text

/-- Whether the widget itself carries a text that is not empty. -/
def hasOwnText (w : Widget) : Bool :=
  match w.textContent with
  | some s => !s.isEmpty
  | none => false

mutual

/-- The first text that is not empty in a widget or below it. -/
def extractText : Widget → Option Text
  | ⟨id, kind, sourceType, properties, children, styling, layout, position⟩ =>
    match textContent ⟨id, kind, sourceType, properties, children, styling, layout, position⟩ with
    | some s => if s.isEmpty then extractFirst children else some s
    | none => extractFirst children

def extractFirst : List Widget → Option Text
  | [] => none
  | w :: rest =>
    match w.extractText with
    | some s => some s
    | none => extractFirst rest

end

mutual

/-- Whether a widget or one below it is a text widget or carries a text. -/
def hasTextContent : Widget → Bool
  | ⟨id, kind, sourceType, properties, children, styling, layout, position⟩ =>
    hasOwnText ⟨id, kind, sourceType, properties, children, styling, layout, position⟩ ||
      kind = .text || anyHasText children

def anyHasText : List Widget → Bool
  | [] => false
  | w :: rest => w.hasTextContent || anyHasText rest

end

/-- Whether a text is there and not empty. -/
def isFilled (s : Option Text) : Bool := s.any (!·.isEmpty)

/-- Whether a widget shows an icon: it has one, or its name speaks of one. -/
def hasIconContent (w : Widget) : Bool :=
  isFilled w.properties.icon || isFilled w.properties.iconData ||
    Text.contains (Text.lower (w.sourceType.getD "")) "icon"

/-- The placement of a widget: its own, else the one among its properties, else one made of the
distances and the size among its properties. -/
def resolvedPosition (w : Widget) : Option Position :=
  match w.position, w.properties.positioned with
  | some p, _ => some p
  | none, some p => some p
  | none, none =>
    let p := w.properties
    if p.left.isSome || p.right.isSome || p.top.isSome || p.bottom.isSome then
      some { left := p.left, right := p.right, top := p.top, bottom := p.bottom,
             width := p.width, height := p.height }
    else none

/-- The widget with property and styling overrides on top. -/
def withOverrides (w : Widget) (properties : Fields) (styling : Option Styling) :
    Except Rejection Widget := do
  return { w with
    properties := ← w.properties.merged properties
    styling := w.styling.merged styling }

/-- Whether the widget arranges its children in a row or a column. -/
def isFlexParent (w : Widget) : Bool :=
  w.kind = .row || w.kind = .column ||
    match w.layout with
    | some l => l.kind = .row || l.kind = .column || l.kind = .flex
    | none => false

end Widget

end DesignTree
