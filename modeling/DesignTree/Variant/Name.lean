import DesignTree.Data.Literal
import DesignTree.Text.Blank
import DesignTree.Text.Case
import DesignTree.Text.Search

/-! # Names of variants and of their properties -/

namespace DesignTree.Variant

open Text

/-- The name of a property as words, the first of which starts with a capital. -/
def propertyTitle (name : Text) : Text :=
  trim (capitalizeFirst (Text.ofList (markCapitals ' ' name.toList)))

/-- A double without a fraction as an integer. -/
def wholeNumber (n : Number) : Number :=
  match n with
  | .int i => .int i
  | .float x =>
    match x.value? with
    | some q => if q.den = 1 then .int q.num else .float x
    | none => .float x

/-- The label of a value of a property. A truth value is shown by the property's name. -/
def label (key : Text) : Value → Text
  | .bool b => if b then capitalizeFirst key else "No" ++ capitalizeFirst key
  | .number n => capitalizeFirst (wholeNumber n).text
  | v => capitalizeFirst (Literal.text v)

/-- The name of what has no properties to be named after. -/
def defaultName : Text := "Default"

/-- The property that stands for a configuration without properties of its own. -/
def placeholderKey : Text := "variant"

/-- The properties by which a variant is named, sorted by their names. -/
def significant (properties : Fields) : Fields :=
  (properties.filter fun e => e.1 != placeholderKey && !e.2.isNull).mergeSort
    fun a b => a.1 ≤ b.1

/-- The name of a variant: the labels of its values. -/
def name (properties : Fields) : Text :=
  let entries := significant properties
  if entries.isEmpty then defaultName
  else Text.intercalate " " (entries.map fun (key, v) => label key v)

end DesignTree.Variant
