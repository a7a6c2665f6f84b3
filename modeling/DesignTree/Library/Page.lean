import DesignTree.Library.Group

/-! # Pages of a library -/

namespace DesignTree

/-- A part of a page. -/
structure PageSection where
  name : Text
  description : Text
  components : List Text := []
  deriving DecidableEq, Repr

/-- A page of a library. -/
structure Page where
  name : Text
  description : Text
  sections : List PageSection
  deriving DecidableEq, Repr

/-- A way from the cover to a category. -/
structure QuickLink where
  name : Text
  description : Text
  componentCount : Nat
  deriving DecidableEq, Repr

/-- The cover of a library. -/
structure CoverPage where
  title : Text
  description : Text
  totalComponents : Nat
  totalCategories : Nat
  version : Text
  quickLinks : List QuickLink
  deriving DecidableEq, Repr

namespace PageSection

/-- The part of a category's page for one of its groups. -/
def ofGroup (g : ComponentGroup) : PageSection := ⟨g.name, g.description, g.components⟩

def toValue (s : PageSection) : Value :=
  .record [("name", .text s.name), ("description", .text s.description),
    ("components", .ofTexts s.components)]

end PageSection

namespace Page

/-- The page before those of the categories. -/
def overview : Page where
  name := "📚 Library Overview"
  description := "Overview of all components in the library"
  sections := [{ name := "Getting Started", description := "How to use this component library" }]

/-- The page after those of the categories. -/
def utilities : Page where
  name := "🔧 Utilities"
  description := "Utility components and helpers"
  sections := [{ name := "Icons", description := "Icon components and placeholders" }]

def toValue (p : Page) : Value :=
  .record [("name", .text p.name), ("description", .text p.description),
    ("sections", .list (p.sections.map PageSection.toValue))]

end Page

def QuickLink.toValue (l : QuickLink) : Value :=
  .record [("name", .text l.name), ("description", .text l.description),
    ("componentCount", .ofNat l.componentCount)]

def CoverPage.toValue (c : CoverPage) : Value :=
  .record [("title", .text c.title), ("description", .text c.description),
    ("stats", .record [("totalComponents", .ofNat c.totalComponents),
      ("totalCategories", .ofNat c.totalCategories), ("version", .text c.version)]),
    ("quickLinks", .list (c.quickLinks.map QuickLink.toValue))]

end DesignTree
