import DesignTree.Data.Count
import DesignTree.Text.Blank
import DesignTree.Text.Case
import DesignTree.Widget.Definition

/-! # Names and descriptions of components -/

namespace DesignTree

namespace Component

open Text

/-- Whether a character may stand in the name of a component. -/
def isNameChar (c : CodePoint) : Bool :=
  ('a' ≤ c && c ≤ 'z') || ('A' ≤ c && c ≤ 'Z') || ('0' ≤ c && c ≤ '9') || isBlank c ||
    c == '/' || c == '-' || c == '_'

/-- A name with only the characters that may stand in one, and single spaces between its words. -/
def cleanName (name : Text) : Text :=
  trim (Text.ofList (squeeze (name.toList.filter isNameChar)))

/-- Whether a character may stand in an identifier. -/
def isSlugChar (c : CodePoint) : Bool := ('a' ≤ c && c ≤ 'z') || ('0' ≤ c && c ≤ '9')

/-- A name as part of an identifier: in lower case, with dashes for all but letters and digits. -/
def slug (name : Text) : Text :=
  Text.ofList ((lowerFrom false name.toList).map fun c => if isSlugChar c then c else '-')

/-- What identifiers of components of a name start with. -/
def idStem (name : Text) : Text := "component-" ++ slug name ++ "-"

end Component

namespace Widget

/-- The greatest font size of a text that is no heading. -/
def headingFontSize : Number := 20

/-- What a button is used for. -/
def buttonUse (p : WidgetProperties) : Option Text :=
  if p.style = some "primary" then some "Primary"
  else if p.style = some "secondary" then some "Secondary"
  else if p.size = some "large" then some "Large"
  else if p.size = some "small" then some "Small"
  else none

/-- What a card is used for. -/
def cardUse (p : WidgetProperties) : Option Text :=
  if p.elevation.any (!·.isZero) then some "Elevated"
  else if p.outlined = some true then some "Outlined"
  else none

/-- What a text is used for. -/
def textUse (t : Typography) : Option Text :=
  if t.fontSize.any fun size => !size.isZero && headingFontSize.less size then some "Heading"
  else if t.fontWeight = some "bold" || t.fontWeight = some "700" then some "Bold"
  else none

/-- What a widget is used for, as far as its properties tell. -/
def usage (w : Widget) : Option Text :=
  match w.kind with
  | .button => buttonUse w.properties
  | .card => cardUse w.properties
  | .text => w.styling.typography.bind textUse
  | _ => none

end Widget

namespace Definition

/-- The name of the component of a reusable widget: its kind and its use, or else its own name
unless that only repeats the kind. -/
def componentName (d : Definition) : Text :=
  let display := d.widget.kind.displayName
  match d.widget.usage with
  | some use => display ++ " / " ++ use
  | none =>
    let cleaned : Text :=
      if d.name = display ∨ d.name = spelling d.widget.kind then "" else Component.cleanName d.name
    if cleaned.isEmpty then display ++ " Component" else cleaned

/-- The description of the component of a reusable widget, by its numbers of variants and of
switches. -/
def describe (d : Definition) (variants switches : Count) : Text :=
  let counted (before : Text) (count : Count) (after : Text) : List Text :=
    if count.isPositive then [before ++ Literal.text count.toValue ++ after] else []
  let sentences : List Text :=
    ["Component generated from " ++ d.widget.kind.displayName ++ " widget.",
      "Used " ++ d.usageCount.repr ++ " times in the codebase."]
  Text.intercalate " " (sentences ++ counted "Has " variants " variants." ++
    counted "Contains " switches " configurable properties.")

end Definition

end DesignTree
