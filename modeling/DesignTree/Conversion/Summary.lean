import DesignTree.Conversion.Basic

/-! # Summaries of conversions -/

namespace DesignTree.Conversion

/-- The lines on components, if there are some. -/
def componentLines (c : Conversion) : List Text :=
  if c.components.isEmpty then []
  else
    ("  Components (" ++ c.components.length.repr ++ "):") :: c.components.map fun component =>
      "    - " ++ component.name ++ " (" ++ component.variants.length.repr ++ " variants)"

/-- A recorded problem as a line. -/
def diagnosticLine (label : Text) (d : Diagnostic) : Text :=
  "  " ++ label ++ " [" ++ spelling d.concern ++ "] " ++ d.message

/-- The lines of the summary of a conversion. -/
def summaryLines (c : Conversion) : List Text :=
  let s := c.statistics
  let outcome : Text := if c.success then "succeeded" else "failed"
  let counts : List Text := [
    "Conversion " ++ outcome ++ " in " ++ Statistics.processingTime.text ++ "ms",
    "  Widgets: " ++ s.widgetsFound.repr ++ " found, " ++ s.widgetsConverted.repr ++
      " nodes produced",
    "  Frames: " ++ s.framesCreated.repr ++ "  Text: " ++ s.textNodesCreated.repr ++
      "  Instances: " ++ s.instancesCreated.repr,
    "  Variables: " ++ s.variablesCreated.repr,
    "  Unsupported widgets: " ++ s.unsupportedWidgets.repr]
  counts ++ c.componentLines ++ c.diagnostics.errors.map (diagnosticLine "ERROR") ++
    c.diagnostics.warnings.map (diagnosticLine "WARNING")

/-- A conversion in a few lines: what was found and made, and what went wrong. -/
def summary (c : Conversion) : Text := Text.intercalate "\n" c.summaryLines

end DesignTree.Conversion
