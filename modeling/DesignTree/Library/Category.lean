import DesignTree.Widget.Definition

/-! # Categories of components

Every component belongs to one category, by the kind of its widget; containers are told apart by
what they are used for. Categories come in a fixed order.
-/

namespace DesignTree

namespace Category

/-- The place of a category among all of them. -/
def priority : Category → Nat
  | .buttons => 1
  | .typography => 2
  | .surfaces => 3
  | .layout => 4
  | .navigation => 5
  | .media => 6
  | .components => 7

def icon : Category → Text
  | .buttons => "🔘"
  | .typography => "📝"
  | .surfaces => "📄"
  | .layout => "📐"
  | .navigation => "🧭"
  | .media => "🖼️"
  | .components => "🧩"

def description : Category → Text
  | .buttons => "Interactive button components for user actions"
  | .typography => "Text components for content display"
  | .surfaces => "Container components that provide visual surfaces"
  | .layout => "Components for organizing and structuring content"
  | .navigation => "Components for app navigation and structure"
  | .media => "Components for displaying images and media content"
  | .components => "General purpose components"

/-- The place of the category of a name; other names come last. -/
def priorityOf (name : Text) : Nat :=
  ((Spelled.ofText? name : Option Category).map priority).getD 99

/-- The icon of the category of a name. -/
def iconOf (name : Text) : Text :=
  ((Spelled.ofText? name : Option Category).map icon).getD "📦"

end Category

/-- How much there is to a component. -/
inductive Complexity
  | simple
  | medium
  | complex
  deriving DecidableEq, Repr

instance : Spelled Complexity where
  all := [.simple, .medium, .complex]
  spelling
    | .simple => "Simple"
    | .medium => "Medium"
    | .complex => "Complex"

/-- The complexity of most components of several. -/
def Complexity.ofMost (levels : List Complexity) : Complexity :=
  let complex := levels.count .complex
  let medium := levels.count .medium
  if levels.length < 2 * complex then .complex
  else if levels.length < 2 * (medium + complex) then .medium
  else .simple

namespace Definition

/-- The category of a reusable widget. A container with a decoration, a border or colours is a
surface, one with distances or a layout hint is there for layout. -/
def category (d : Definition) : Category :=
  let w := d.widget
  if w.kind ≠ .container then w.kind.category
  else if w.properties.decoration.isSome || w.styling.borders.isSome || !w.styling.colors.isEmpty
  then .surfaces
  else if w.properties.padding.isSome || w.properties.margin.isSome || w.layout.isSome
  then .layout
  else .components

/-- The weight of what a reusable widget is made of. -/
def weight (d : Definition) : Nat :=
  let s := d.widget.styling
  d.widget.children.length + d.widget.properties.interchange.length + 2 * d.variants.length +
    s.colors.length + (if s.borders.isSome then 2 else 0) + s.shadows.length

/-- The complexity of a reusable widget by its weight. -/
def complexity (d : Definition) : Complexity :=
  if d.weight ≤ 3 then .simple else if d.weight ≤ 8 then .medium else .complex

/-- A widget that is used more often than this is used frequently. -/
def frequentUsage : Int := 10

/-- What is noteworthy about a reusable widget, in single words. -/
def tags (d : Definition) : List Text :=
  let w := d.widget
  let mark (tag : Text) (holds : Bool) : List Text := if holds then [tag] else []
  spelling w.kind :: mark "interactive" w.properties.disabled.isSome ++
    mark "colored" (!w.styling.colors.isEmpty) ++ mark "container" (!w.children.isEmpty) ++
    mark "layout" w.layout.isSome ++ mark "frequently-used" (frequentUsage < d.usageCount) ++
    mark "variants" (!d.variants.isEmpty)

/-- At most this many examples are given. -/
def exampleLimit : Nat := 3

/-- An example of a recorded variation. -/
def variantExample (d : Definition) (v : RecordedVariant) : Text :=
  let attributes := v.properties.map fun (key, value) =>
    key ++ "=\"" ++ Literal.text value ++ "\""
  v.name ++ ": <" ++ d.name ++ " " ++ Text.intercalate " " attributes ++ " />"

/-- Examples of how a reusable widget is used. -/
def examples (d : Definition) : List Text :=
  (("Basic usage: <" ++ d.name ++ " />") :: d.variants.map d.variantExample).take exampleLimit

end Definition

end DesignTree
