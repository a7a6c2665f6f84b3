import DesignTree.Variant.Matrix
import DesignTree.Variant.Name

/-! # Groups of variants

Variants are grouped by the property that most of them have. Those with one label for it form a
group, and those without the property a group of their own.
-/

namespace DesignTree

/-- Variants with one label for a property. -/
structure VariantGroup where
  name : Text
  property : Text
  variants : List ComponentVariant

namespace VariantGroup

/-- How many variants have each property, the placeholder left out. -/
def frequencies (vs : List ComponentVariant) : Entries Nat :=
  (vs.flatMap (·.properties.keys)).foldl
    (fun es key =>
      if key = Variant.placeholderKey then es else es.set key ((es.get? key).getD 0 + 1)) []

/-- The entry with the greatest number; of equal ones the first. -/
def mostFrequent? : Entries Nat → Option (Text × Nat)
  | [] => none
  | e :: rest =>
    match mostFrequent? rest with
    | some best => if e.2 < best.2 then some best else some e
    | none => some e

/-- The property by which variants are grouped, if any has one. -/
def groupingKey? (vs : List ComponentVariant) : Option Text :=
  (mostFrequent? (frequencies vs)).map (·.1)

/-- The label of a variant for a property. -/
def labelOf (key : Text) (v : ComponentVariant) : Text :=
  match v.properties.get? key with
  | some s => Variant.label key s.toValue
  | none => Variant.defaultName

/-- Variants in groups. Without a property to group by they form one group. -/
def organize (vs : List ComponentVariant) : List VariantGroup :=
  match groupingKey? vs with
  | some key =>
    (Entries.group (labelOf key) vs).map fun (name, members) => ⟨name, key, members⟩
  | none =>
    if vs.isEmpty then [] else [⟨Variant.defaultName, Variant.placeholderKey, vs⟩]

def toValue (g : VariantGroup) : Value :=
  .record [("name", .text g.name), ("property", .text g.property),
    ("variants", .ofTexts (g.variants.map (·.name)))]

end VariantGroup

/-- The first variant of a component that agrees with a selection. -/
def Component.findVariant? (c : Component) (selection : Fields) : Option ComponentVariant :=
  c.variants.find? fun v => Configuration.agrees v.properties selection

end DesignTree
