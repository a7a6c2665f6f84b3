import DesignTree.Component.Catalog
import DesignTree.Library.Category
import DesignTree.Library.Page

/-! # Component libraries

A library sorts components into categories and groups, documents each of them, and lays out pages.
-/

namespace DesignTree

/-- What a library says about one component. -/
structure ComponentEntry where
  name : Text
  componentId : Text
  category : Category
  tags : List Text
  usageCount : Int
  complexity : Complexity
  examples : List Text
  documentation : Text
  deriving DecidableEq, Repr

/-- The components of a category. -/
structure LibrarySection where
  category : Category
  components : List Text
  groups : List ComponentGroup
  averageUsage : Int
  complexity : Complexity
  deriving DecidableEq, Repr

/-- A component library. -/
structure Library where
  name : Text
  version : Text
  sections : List LibrarySection := []
  /-- What is said about the components, by their identifiers. -/
  entries : Entries ComponentEntry := []
  deriving DecidableEq, Repr

namespace ComponentEntry

/-- The documentation of a component. -/
def documentationFor (b : BuiltComponent) : Text :=
  let d := b.definition
  let c := b.component
  let sentenceIf (condition : Bool) (sentence : Text) : List Text :=
    if condition then [sentence] else []
  let origin : List Text :=
    [c.name ++ " component generated from " ++ spelling d.widget.kind ++ " widget.",
      "Used " ++ d.usageCount.repr ++ " times in the codebase."]
  Text.intercalate " " (origin ++
    sentenceIf (1 < c.variants.length)
      ("Available in " ++ c.variants.length.repr ++ " variants.") ++
    sentenceIf (!c.properties.isEmpty)
      ("Configurable with " ++ c.properties.length.repr ++ " properties.") ++
    sentenceIf true ("Complexity: " ++ spelling d.complexity ++ "."))

/-- What a library says about a component. -/
def ofBuilt (b : BuiltComponent) : ComponentEntry where
  name := b.component.name
  componentId := b.component.id
  category := b.definition.category
  tags := b.definition.tags
  usageCount := b.definition.usageCount
  complexity := b.definition.complexity
  examples := b.definition.examples
  documentation := documentationFor b

def toValue (e : ComponentEntry) : Value :=
  .record [("name", .text e.name), ("componentId", .text e.componentId),
    ("category", .ofSpelled e.category), ("tags", .ofTexts e.tags),
    ("usageCount", .number (.int e.usageCount)), ("complexity", .ofSpelled e.complexity),
    ("examples", .ofTexts e.examples), ("documentation", .text e.documentation)]

end ComponentEntry

namespace LibrarySection

/-- The integer nearest to the mean of usage counts, which is a double. -/
def averageUsage? (counts : List Int) : Except Fault Int :=
  match (Double.ofRat (mkRat (counts.foldr (· + ·) 0) counts.length)).nearestInt? with
  | some n => .ok n
  | none => .error .quotientTooLarge

/-- The section for the components of a category. -/
def ofMembers (category : Category) (members : Catalog) : Except Fault LibrarySection := do
  let averageUsage ← averageUsage? (members.map (·.definition.usageCount))
  return {
    category
    components := members.map (·.component.name)
    groups := ComponentGroup.organize (members.map (·.component))
    averageUsage
    complexity := .ofMost (members.map (·.definition.complexity)) }

def componentCount (s : LibrarySection) : Nat := s.components.length

/-- The page of a section. -/
def page (s : LibrarySection) : Page where
  name := s.category.icon ++ " " ++ spelling s.category
  description := s.category.description
  sections := s.groups.map PageSection.ofGroup

/-- The link to a section. -/
def quickLink (s : LibrarySection) : QuickLink :=
  ⟨spelling s.category, s.category.description, s.componentCount⟩

def toValue (s : LibrarySection) : Value :=
  .record [("name", .ofSpelled s.category), ("description", .text s.category.description),
    ("icon", .text s.category.icon), ("priority", .ofNat s.category.priority),
    ("components", .ofTexts s.components),
    ("groups", .list (s.groups.map ComponentGroup.toValue)),
    ("metadata", .record [("componentCount", .ofNat s.componentCount),
      ("averageUsage", .number (.int s.averageUsage)), ("complexity", .ofSpelled s.complexity)])]

end LibrarySection

namespace Library

def description : Text := "Components generated from Flutter widgets"

/-- The components of each category that has some, the categories as they first come. -/
def byCategory (c : Catalog) : List (Category × Catalog) :=
  (c.map (·.definition.category)).eraseDups.map fun category =>
    (category, c.filter fun b => b.definition.category = category)

/-- The sections of the components of a catalog, in the order of their categories. -/
def sectionsOf (c : Catalog) : Except Fault (List LibrarySection) := do
  let sections ← (byCategory c).mapM fun (category, members) =>
    LibrarySection.ofMembers category members
  return sections.mergeSort fun a b => a.category.priority ≤ b.category.priority

/-- The library of the components of a catalog. Its name and its version have to be texts. -/
def ofCatalog (name version : Value) (c : Catalog) : Except Fault Library := do
  let sections ← sectionsOf c
  let entries := c.foldl
    (fun (es : Entries ComponentEntry) b => es.set b.component.id (.ofBuilt b)) []
  Decoded.orFault "LibraryStructure" <|
    (fun name version => { name, version, sections, entries })
      <$> (Decoded.text name).under "name" <*> (Decoded.text version).under "version"

/-- The library of reusable widgets and their components, which have to be as many. -/
def organize (name version : Value) (definitions : List Definition)
    (components : List Component) : Except Fault Library :=
  if components.length ≠ definitions.length then .error .unpairedComponents
  else ofCatalog name version (List.zipWith BuiltComponent.mk definitions components)

def totalComponents (l : Library) : Nat := l.entries.length

/-- The section of the category of a name. -/
def find? (l : Library) (name : Text) : Option LibrarySection :=
  l.sections.find? fun s => spelling s.category == name

/-- The pages of a library. -/
def pages (l : Library) : List Page :=
  .overview :: l.sections.map LibrarySection.page ++ [.utilities]

/-- The cover of a library. -/
def coverPage (l : Library) : CoverPage where
  title := l.name
  description := description
  totalComponents := l.totalComponents
  totalCategories := l.sections.length
  version := l.version
  quickLinks := l.sections.map LibrarySection.quickLink

def toValue (l : Library) : Value :=
  .record [("name", .text l.name), ("description", .text description), ("version", .text l.version),
    ("categories", .list (l.sections.map LibrarySection.toValue)),
    ("components", .record (l.entries.mapValues ComponentEntry.toValue)),
    ("pages", .list (l.pages.map Page.toValue)), ("coverPage", l.coverPage.toValue)]

end Library

end DesignTree
