import DesignTree.Widget.Basic

/-! # Names and axes of widgets -/

namespace DesignTree.Widget

/-- A name shows at most this many characters of a text. -/
def nameTextLimit : Nat := 20

/-- The start of a text, with dots after it if there is more. -/
def excerpt (s : Text) : Text :=
  let cs := s.toList
  Text.ofList (cs.take nameTextLimit) ++ if nameTextLimit < cs.length then "..." else ""

/-- The name of a widget's node: its kind, with the widget's text or else its key. -/
def nodeName (w : Widget) : Text :=
  let base := w.kind.displayName
  if w.hasOwnText then base ++ " \"" ++ excerpt (w.textContent.getD "") ++ "\""
  else
    match w.properties.key with
    | some key => if key.isEmpty then base else base ++ " (" ++ key ++ ")"
    | none => base

/-- The axis of a layout, if it has one. -/
def layoutAxis (l : Layout) : Option Axis :=
  match l.kind with
  | .row => some .horizontal
  | .column => some .vertical
  | .wrap | .flex => some (l.direction.getD .horizontal)
  | .stack => none

/-- The axis along which the children of a widget follow each other. -/
def mainAxis (w : Widget) : Option Axis :=
  match w.layout with
  | some l => layoutAxis l
  | none =>
    match w.kind with
    | .row => some .horizontal
    | .column => some .vertical
    | _ => none

end DesignTree.Widget
