import DesignTree.Decode.Scalar

/-! # Diagnostics

Problems that do not stop a conversion are recorded in the order in which they are found. Errors
make a run unsuccessful, warnings do not.
-/

namespace DesignTree

/-- What a problem is about. -/
inductive Concern
  | widget
  | theme
  | conversion
  | variable
  | style
  | validation
  | configuration
  deriving DecidableEq, Repr

instance : Spelled Concern where
  all := [.widget, .theme, .conversion, .variable, .style, .validation, .configuration]
  spelling
    | .widget => "WIDGET"
    | .theme => "THEME"
    | .conversion => "CONVERSION"
    | .variable => "VARIABLE"
    | .style => "STYLE"
    | .validation => "VALIDATION"
    | .configuration => "CONFIGURATION"

inductive Severity
  | error
  | warning
  deriving DecidableEq, Repr

instance : Spelled Severity where
  all := [.error, .warning]
  spelling
    | .error => "error"
    | .warning => "warning"

/-- A recorded problem, with the widget or node that it concerns. -/
structure Diagnostic where
  concern : Concern
  message : Text
  severity : Severity := .error
  nodeId : Option Text := none
  deriving DecidableEq, Repr

namespace Diagnostic

def error (concern : Concern) (message : Text) (nodeId : Option Text := none) : Diagnostic :=
  ⟨concern, message, .error, nodeId⟩

def warning (concern : Concern) (message : Text) (nodeId : Option Text := none) : Diagnostic :=
  ⟨concern, message, .warning, nodeId⟩

def isError (d : Diagnostic) : Bool := d.severity = .error

def toValue (d : Diagnostic) : Value :=
  .record [("category", .ofSpelled d.concern), ("message", .text d.message),
    ("severity", .ofSpelled d.severity), ("nodeId", .ofOption .text d.nodeId)]

end Diagnostic

/-- Recorded problems, the earliest first. -/
abbrev Diagnostics := List Diagnostic

namespace Diagnostics

def errors (ds : Diagnostics) : List Diagnostic := ds.filter (·.isError)

def warnings (ds : Diagnostics) : List Diagnostic := ds.filter (!·.isError)

def hasErrors (ds : Diagnostics) : Bool := ds.any (·.isError)

def toValue (ds : Diagnostics) : Value :=
  .record [("errors", .list (ds.errors.map Diagnostic.toValue)),
    ("warnings", .list (ds.warnings.map Diagnostic.toValue))]

end Diagnostics

end DesignTree
