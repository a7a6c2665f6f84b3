import DesignTree.CommandLine.Command
import DesignTree.CommandLine.Run
import DesignTree.CommandLine.Words
import DesignTree.CommandLine.Workspace
import DesignTree.Component.Catalog
import DesignTree.Component.Instance
import DesignTree.Component.Naming
import DesignTree.Conversion.Basic
import DesignTree.Conversion.Statistics
import DesignTree.Conversion.Summary
import DesignTree.Conversion.Usage
import DesignTree.Data.Count
import DesignTree.Data.Encodable
import DesignTree.Data.Entries
import DesignTree.Data.KeyMap
import DesignTree.Data.Literal
import DesignTree.Data.Reader
import DesignTree.Data.Value
import DesignTree.Data.Writer
import DesignTree.Decode.Basic
import DesignTree.Decode.Issue
import DesignTree.Decode.Scalar
import DesignTree.Diagnostics.Basic
import DesignTree.Diagnostics.Fault
import DesignTree.Library.Basic
import DesignTree.Library.Category
import DesignTree.Library.Group
import DesignTree.Library.Page
import DesignTree.Lowering.Naming
import DesignTree.Lowering.Paints
import DesignTree.Lowering.Placement
import DesignTree.Lowering.Run
import DesignTree.Lowering.Tree
import DesignTree.Main
import DesignTree.Node.Basic
import DesignTree.Node.Color
import DesignTree.Node.Component
import DesignTree.Node.Outline
import DesignTree.Node.Paint
import DesignTree.Node.Place
import DesignTree.Node.Properties
import DesignTree.Number.Basic
import DesignTree.Number.Double
import DesignTree.Number.Reading
import DesignTree.Number.Shortest
import DesignTree.Proofs.Component.Catalog
import DesignTree.Proofs.Component.Lookup
import DesignTree.Proofs.Component.Shape
import DesignTree.Proofs.Component.TextOverride
import DesignTree.Proofs.Component.Writing
import DesignTree.Proofs.Conversion.Along
import DesignTree.Proofs.Conversion.Append
import DesignTree.Proofs.Conversion.Basic
import DesignTree.Proofs.Conversion.Binding
import DesignTree.Proofs.Conversion.Extension
import DesignTree.Proofs.Conversion.Gap
import DesignTree.Proofs.Conversion.Modes
import DesignTree.Proofs.Conversion.Placement
import DesignTree.Proofs.Conversion.Sizing
import DesignTree.Proofs.Conversion.Statistics
import DesignTree.Proofs.Conversion.Switch
import DesignTree.Proofs.Conversion.Unsupported
import DesignTree.Proofs.Conversion.Usage
import DesignTree.Proofs.Data.Encodable
import DesignTree.Proofs.Data.Grouping
import DesignTree.Proofs.Data.Replacement
import DesignTree.Proofs.Decode.Slot
import DesignTree.Proofs.Decode.Spelling
import DesignTree.Proofs.Library.Group
import DesignTree.Proofs.Library.Partition
import DesignTree.Proofs.Library.Permutation
import DesignTree.Proofs.Library.Section
import DesignTree.Proofs.Lowering.Alike
import DesignTree.Proofs.Lowering.Arrangement
import DesignTree.Proofs.Lowering.Assembly
import DesignTree.Proofs.Lowering.AxisPlace
import DesignTree.Proofs.Lowering.Gradient
import DesignTree.Proofs.Lowering.Growth
import DesignTree.Proofs.Lowering.Paints
import DesignTree.Proofs.Lowering.Place
import DesignTree.Proofs.Lowering.Range
import DesignTree.Proofs.Lowering.Shape
import DesignTree.Proofs.Lowering.Share
import DesignTree.Proofs.Lowering.Size
import DesignTree.Proofs.Lowering.Stray
import DesignTree.Proofs.Node.Hexadecimal
import DesignTree.Proofs.Node.Outline
import DesignTree.Proofs.Node.Paint
import DesignTree.Proofs.Node.Writing
import DesignTree.Proofs.Number.Basic
import DesignTree.Proofs.Number.Difference
import DesignTree.Proofs.Number.Grid
import DesignTree.Proofs.Number.Shortest
import DesignTree.Proofs.Number.Text
import DesignTree.Proofs.Run.Append
import DesignTree.Proofs.Run.Identifier
import DesignTree.Proofs.Run.Outcome
import DesignTree.Proofs.Run.Record
import DesignTree.Proofs.Run.Return
import DesignTree.Proofs.Style.Account
import DesignTree.Proofs.Style.Again
import DesignTree.Proofs.Style.Aspect
import DesignTree.Proofs.Style.Binding
import DesignTree.Proofs.Style.Change
import DesignTree.Proofs.Style.Color
import DesignTree.Proofs.Style.Edit
import DesignTree.Proofs.Style.Ending
import DesignTree.Proofs.Style.Frame
import DesignTree.Proofs.Style.LoweredFills
import DesignTree.Proofs.Style.LoweredStrokes
import DesignTree.Proofs.Style.Malformed
import DesignTree.Proofs.Style.Paints
import DesignTree.Proofs.Style.Shadow
import DesignTree.Proofs.Style.Stack
import DesignTree.Proofs.Style.Switch
import DesignTree.Proofs.Style.Target
import DesignTree.Proofs.Style.TextStyle
import DesignTree.Proofs.Style.Tokens
import DesignTree.Proofs.Text.Lower
import DesignTree.Proofs.Text.Trim
import DesignTree.Proofs.Token.Coherence
import DesignTree.Proofs.Token.Content
import DesignTree.Proofs.Token.Identity
import DesignTree.Proofs.Token.Lookup
import DesignTree.Proofs.Token.Modes
import DesignTree.Proofs.Token.NormalForm
import DesignTree.Proofs.Token.ScalePath
import DesignTree.Proofs.Tree.Along
import DesignTree.Proofs.Tree.Basic
import DesignTree.Proofs.Tree.Edge
import DesignTree.Proofs.Tree.Lineage
import DesignTree.Proofs.Tree.Topmost
import DesignTree.Proofs.Variant.Alike
import DesignTree.Proofs.Variant.Enumeration
import DesignTree.Proofs.Variant.FirstSeen
import DesignTree.Proofs.Variant.Group
import DesignTree.Proofs.Variant.Label
import DesignTree.Proofs.Variant.Matrix
import DesignTree.Proofs.Variant.Recorded
import DesignTree.Proofs.Variant.Respelling
import DesignTree.Proofs.Variant.Selection
import DesignTree.Proofs.Variant.SwitchName
import DesignTree.Proofs.Variant.SwitchOption
import DesignTree.Proofs.Variant.Synthesis
import DesignTree.Proofs.Variant.Unfit
import DesignTree.Proofs.Widget.Check
import DesignTree.Proofs.Widget.FontWeight
import DesignTree.Proofs.Widget.Form
import DesignTree.Proofs.Widget.Override
import DesignTree.Proofs.Widget.Raw
import DesignTree.Proofs.Widget.Reading
import DesignTree.Proofs.Widget.SourceType
import DesignTree.Proofs.Widget.Spelling
import DesignTree.Proofs.Widget.TextSearch
import DesignTree.Proofs.Widget.WellFormed
import DesignTree.Proofs.Widget.Writing
import DesignTree.Schema.Basic
import DesignTree.Schema.Widget
import DesignTree.Settings
import DesignTree.Style.Config
import DesignTree.Style.Resolver
import DesignTree.Style.Result
import DesignTree.Style.Tree
import DesignTree.Text.Basic
import DesignTree.Text.Blank
import DesignTree.Text.Case
import DesignTree.Text.CaseTable
import DesignTree.Text.CodePoint
import DesignTree.Text.Digit
import DesignTree.Text.DigitTable
import DesignTree.Text.Printable
import DesignTree.Text.Search
import DesignTree.Text.Utf8
import DesignTree.Theme
import DesignTree.Token.Basic
import DesignTree.Token.Name
import DesignTree.Token.Table
import DesignTree.Variant.Group
import DesignTree.Variant.Matrix
import DesignTree.Variant.Name
import DesignTree.Variant.Switch
import DesignTree.Variant.Synthesis
import DesignTree.Widget.Basic
import DesignTree.Widget.Check
import DesignTree.Widget.Definition
import DesignTree.Widget.FontWeight
import DesignTree.Widget.Geometry
import DesignTree.Widget.Kind
import DesignTree.Widget.Layout
import DesignTree.Widget.Properties
import DesignTree.Widget.Raw
import DesignTree.Widget.Style
