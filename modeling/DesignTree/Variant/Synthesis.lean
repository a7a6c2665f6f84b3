import DesignTree.Data.Count
import DesignTree.Lowering.Tree
import DesignTree.Settings
import DesignTree.Style.Tree
import DesignTree.Variant.Matrix
import DesignTree.Variant.Name

/-! # Variants of reusable widgets

A reusable widget has one variant for each configuration of its property matrix, up to a limit. A
configuration that agrees with a recorded variation takes that variation's name and overrides. A
configuration that the widget cannot take is made of the widget itself, and recorded.
-/

namespace DesignTree

namespace Configuration

/-- The configuration that a record holds; values that are no scalars are left out. -/
def ofFields (fs : Fields) : Configuration :=
  fs.filterMap fun e => (Scalar.ofValue? e.2).map (e.1, ·)

/-- A configuration as the fields of a record. -/
def toFields (c : Configuration) : Fields := Entries.mapValues Scalar.toValue c

end Configuration

namespace Definition

/-- The first recorded variation that agrees with a configuration. -/
def recorded? (d : Definition) (c : Configuration) : Option RecordedVariant :=
  d.variants.find? fun v => (Configuration.ofFields v.properties).agrees c.toFields

/-- The widget in a configuration: that of the recorded variation, or else the widget with the
configuration's values on top. -/
def configured (d : Definition) (c : Configuration) : Except Rejection Widget :=
  match d.recorded? c with
  | some v => d.variantWidget v
  | none => d.widget.withOverrides c.toFields none

/-- The name of a configuration: that of the recorded variation unless it is empty. -/
def configurationName (d : Definition) (c : Configuration) : Text :=
  match d.recorded? c with
  | some v => if v.name.isEmpty then Variant.name c.toFields else v.name
  | none => Variant.name c.toFields

end Definition

/-- How many variants of a widget are made, and how they are styled. -/
structure Synthesizer where
  limit : Count := (16 : Nat)
  resolver : Option Resolver := none

namespace Synthesizer

/-- No limit is above this one. -/
def ceiling : Nat := 16

/-- A limit that is given, cut down to the greatest one. -/
def limitOf (given : Value) : Except Fault Count :=
  (·.min ceiling) <$> Count.ofValue (.incomparable "<" (.ofNat ceiling)) given

/-- The node tree of a widget, styled where styles are resolved. -/
def lower (s : Synthesizer) (w : Widget) : InRun Node := do
  let node ← w.lower
  match s.resolver with
  | some r => return (← r.applyTree w node).1
  | none => return node

/-- The warning for a configuration that a widget cannot take. -/
def unfitWarning (d : Definition) (name : Text) (r : Rejection) : Diagnostic :=
  .warning .conversion ("Variant " ++ name ++ " of " ++ d.name ++
    " uses values the widget cannot take (" ++ r.issues.length.repr ++
    " invalid); lowered from the base widget") d.widget.id

/-- The widget that a variant is made of. -/
def variantWidget (d : Definition) (c : Configuration) : InRun Widget :=
  match d.configured c with
  | .ok w => pure w
  | .error r => do
    InRun.record [unfitWarning d (d.configurationName c) r]
    return d.widget

/-- The variant of a configuration. -/
def variant (s : Synthesizer) (d : Definition) (c : Configuration) : InRun ComponentVariant := do
  let w ← variantWidget d c
  return { name := d.configurationName c, properties := c, nodeSpec := ← s.lower w }

/-- The variant of a widget without properties that vary. -/
def onlyVariant (s : Synthesizer) (d : Definition) : InRun ComponentVariant := do
  return { name := Variant.defaultName,
           properties := [(Variant.placeholderKey, .text "default")],
           nodeSpec := ← s.lower d.widget }

/-- The variants of a reusable widget. -/
def variants (s : Synthesizer) (d : Definition) : InRun (List ComponentVariant) := do
  let m := PropertyMatrix.ofDefinition d
  if m.isEmpty then return [← s.onlyVariant d]
  (m.leading (← InRun.lift s.limit.toNat)).mapM (s.variant d)

end Synthesizer

end DesignTree
