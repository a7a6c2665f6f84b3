import DesignTree.Node.Component
import DesignTree.Text.Blank
import DesignTree.Text.Case
import DesignTree.Text.Search
import DesignTree.Widget.Kind

/-! # Groups of components

Within a category components are grouped by words in their names, and within a group by whether
they have more than one variant.
-/

namespace DesignTree

/-- Components of a group that have several variants, or have not. -/
structure SubGroup where
  name : Text
  components : List Text
  deriving DecidableEq, Repr

/-- Components with like names. -/
structure ComponentGroup where
  name : Text
  description : Text
  components : List Text
  subGroups : List SubGroup
  deriving DecidableEq, Repr

namespace SubGroup

def toValue (g : SubGroup) : Value :=
  .record [("name", .text g.name), ("components", .ofTexts g.components)]

/-- A sub-group, unless it has no components. -/
def ofMembers (name : Text) (members : List Component) : List SubGroup :=
  if members.isEmpty then [] else [⟨name, members.map (·.name)⟩]

end SubGroup

namespace ComponentGroup

/-- The first word of a name, which blanks and slashes end. -/
def firstWord? (name : Text) : Option Text :=
  ((Text.wordsBy (fun c => Text.isBlank c || c == '/') name.toList).head?).map Text.ofList

/-- The group of a component by its name. -/
def nameFor (name : Text) : Text :=
  let lowered := Text.lower name
  let has (word : Text) : Bool := Text.contains lowered word
  if has "button" then
    if has "primary" then "Primary Buttons"
    else if has "secondary" then "Secondary Buttons"
    else if has "icon" then "Icon Buttons"
    else "Buttons"
  else if has "text" || has "label" then
    if has "heading" || has "title" then "Headings"
    else if has "body" || has "paragraph" then "Body Text"
    else "Text"
  else if has "card" then
    if has "elevated" then "Elevated Cards"
    else if has "outlined" then "Outlined Cards"
    else "Cards"
  else (firstWord? name).getD (spelling Category.components)

/-- Whether a component has more than one variant. -/
def hasVariants (c : Component) : Bool := 1 < c.variants.length

/-- The group of some components under a name. -/
def ofMembers (name : Text) (members : List Component) : ComponentGroup where
  name
  description := name ++ " group containing " ++ members.length.repr ++ " component" ++
    if members.length = 1 then "" else "s"
  components := members.map (·.name)
  subGroups :=
    SubGroup.ofMembers "With Variants" (members.filter hasVariants) ++
      SubGroup.ofMembers "Simple Components" (members.filter (!hasVariants ·))

/-- Groups of primary components come first, then those of secondary ones. -/
def rank (g : ComponentGroup) : Nat :=
  if Text.contains g.name "Primary" then 0 else if Text.contains g.name "Secondary" then 1 else 2

/-- Whether a group comes before another one or in its place: by rank, then by name. -/
def precedes (a b : ComponentGroup) : Bool :=
  a.rank < b.rank || (a.rank = b.rank && a.name ≤ b.name)

/-- Components in groups. -/
def organize (components : List Component) : List ComponentGroup :=
  ((Entries.group (fun c => nameFor c.name) components).map
    fun (name, members) => ofMembers name members).mergeSort precedes

def toValue (g : ComponentGroup) : Value :=
  .record [("name", .text g.name), ("description", .text g.description),
    ("components", .ofTexts g.components), ("subGroups", .list (g.subGroups.map SubGroup.toValue))]

end ComponentGroup

end DesignTree
