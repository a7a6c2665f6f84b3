import DesignTree.Node.Basic

/-! # Results of styling -/

namespace DesignTree

/-- What came of styling a node. -/
structure StyleResult where
  success : Bool := true
  applied : List Text := []
  bindings : List Binding := []
  errors : List Text := []
  warnings : List Text := []
  deriving DecidableEq, Repr

namespace StyleResult

/-- Two results one after the other. They succeed if both do and there is no error. -/
def merge (a b : StyleResult) : StyleResult :=
  let errors := a.errors ++ b.errors
  { success := a.success && b.success && errors.isEmpty
    applied := a.applied ++ b.applied
    bindings := a.bindings ++ b.bindings
    errors
    warnings := a.warnings ++ b.warnings }

/-- A result that succeeds exactly if it has no error. -/
def settled (r : StyleResult) : StyleResult := { r with success := r.errors.isEmpty }

def ofApplied (property : Text) : StyleResult := { applied := [property] }

def ofBinding (property : Text) (b : Binding) : StyleResult :=
  { applied := [property], bindings := [b] }

def ofError (message : Text) : StyleResult := { success := false, errors := [message] }

def ofWarning (message : Text) : StyleResult := { warnings := [message] }

def toValue (r : StyleResult) : Value :=
  .record [("success", .bool r.success), ("appliedProperties", .ofTexts r.applied),
    ("variableBindings", .list (r.bindings.map Binding.toValue)),
    ("errors", .ofTexts r.errors), ("warnings", .ofTexts r.warnings)]

end StyleResult

end DesignTree
