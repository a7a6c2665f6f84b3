import DesignTree.Conversion.Statistics
import DesignTree.Conversion.Usage
import DesignTree.Library.Basic

/-! # Conversions

A conversion lowers a widget tree, styles the nodes by the tokens of a theme, builds the components
of reusable widgets, puts instances in the place of their usages, and sorts the components into a
library. What goes wrong with a single widget or property is recorded and does not end it.
-/

namespace DesignTree

/-- How conversions are made. What is given for the limit of variants and for the library is only
looked at when it is needed. -/
structure Converter where
  config : StyleConfig := {}
  /-- The greatest number of variants of a component. -/
  variantLimit : Value
  libraryName : Value
  libraryVersion : Value

/-- What a conversion makes. -/
structure Conversion where
  root : Node
  components : List Component
  library : Library
  tokens : TokenTable
  statistics : Statistics
  diagnostics : Diagnostics

namespace Converter

/-- The converter of an environment, where nothing else is given. -/
def ofEnvironment (env : Environment) (config : Option StyleConfig := none)
    (maxVariants name version : Value := .null) : Converter where
  config := config.getD (StyleOptions.ofEnvironment env).config
  variantLimit := Setting.maxVariants.orElse env maxVariants
  libraryName := Setting.libraryName.orElse env name
  libraryVersion := Setting.libraryVersion.orElse env version

/-- The tokens of a theme and of further ones, which are modes beside it. Without a theme there are
none. -/
def buildTokens (c : Converter) (theme : Option Theme) (modes : Entries Theme) :
    Except Fault TokenTable :=
  match theme with
  | none => .ok {}
  | some theme =>
    let name := c.config.collectionPrefix
    let table := TokenTable.ofTheme theme name
    if modes.isEmpty then .ok table
    else
      (table.addModes (theme :: modes.map (·.2)) (TokenTable.defaultTheme :: modes.keys)
        name).mapError .design

/-- What is recorded about the tokens. -/
def tokenWarnings (tokens : TokenTable) : Diagnostics := tokens.issues.map (.warning .theme ·)

/-- What is recorded about widgets of no known kind. -/
def unsupportedWarnings (w : Widget) : Diagnostics :=
  (w.walk.filter Widget.isUnsupported).map fun w =>
    .warning .widget ("Unsupported widget type " ++ w.sourceType.getD "" ++
      " converted to a frame") w.id

/-- The node tree of a widget tree with instances in the place of usages, and the components. -/
def convertTree (c : Converter) (tokens : TokenTable) (root : Widget)
    (definitions : List Definition) : InRun (Node × Catalog) := do
  InRun.record (tokenWarnings tokens)
  let resolver : Resolver := ⟨tokens, c.config⟩
  let node ← root.lower
  let (node, _) ← resolver.applyTree root node
  InRun.record (unsupportedWarnings root)
  let limit ← InRun.lift (Synthesizer.limitOf c.variantLimit)
  let catalog ← Synthesizer.buildAll ⟨limit, some resolver⟩ definitions
  let node ← catalog.placeInstances (Usages.ofCatalog catalog) root node
  return (node, catalog)

/-- Converts a widget tree. -/
def convert (c : Converter) (root : Widget) (theme : Option Theme := none)
    (definitions : List Definition := []) (modes : Entries Theme := []) :
    Except Fault Conversion := do
  let tokens ← c.buildTokens theme modes
  let (result, run) := InRun.runFrom {} (c.convertTree tokens root definitions)
  let (node, catalog) ← result
  let library ← Library.ofCatalog c.libraryName c.libraryVersion catalog
  return {
    root := node
    components := catalog.map (·.component)
    library, tokens
    statistics := .collect root node catalog.length tokens
    diagnostics := run.diagnostics }

end Converter

namespace Conversion

/-- Whether no error was recorded. -/
def success (c : Conversion) : Bool := !c.diagnostics.hasErrors

/-- Whether every length of what was made has a double near it. -/
def fits (c : Conversion) : Bool := c.root.fits && c.components.all Component.fits

def toValue (c : Conversion) : Value :=
  .record (([("success", .bool c.success), ("root", c.root.toValue),
    ("components", .list (c.components.map Component.toValue)), ("library", c.library.toValue),
    ("variables", c.tokens.toValue), ("stats", c.statistics.toValue)] : Fields) ++
    c.diagnostics.toValue.fields)

/-- A conversion as it is written, if all its lengths can be. -/
def write (c : Conversion) : Except Fault Value :=
  if c.fits then .ok c.toValue else .error .integerTooLarge

end Conversion

end DesignTree
