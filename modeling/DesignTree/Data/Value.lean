import DesignTree.Data.Entries
import DesignTree.Number.Basic

/-! # Structured values

The values that documents are made of: the absent value, truth values, numbers, texts, lists, and
records with ordered fields.
-/

namespace DesignTree

inductive Value
  | null
  | bool (value : Bool)
  | number (value : Number)
  | text (value : Text)
  | list (items : List Value)
  | record (fields : List (Text × Value))

/-- The fields of a record, in order. -/
abbrev Fields := Entries Value

namespace Value

instance : Inhabited Value := ⟨.null⟩

def isNull : Value → Bool
  | .null => true
  | _ => false

/-- A whole number as a value. -/
def ofNat (n : Nat) : Value := .number (.int n)

/-- A double as a value. -/
def ofDouble (x : Double) : Value := .number (.float x)

/-- A list of texts as a value. -/
def ofTexts (texts : List Text) : Value := .list (texts.map .text)

/-- An optional value, absent ones as the absent value. -/
def ofOption (toValue : α → Value) : Option α → Value
  | none => .null
  | some a => toValue a

/-- The fields of a record; other values have none. -/
def fields : Value → Fields
  | .record fs => fs
  | _ => []

/-- The field of a record under a name. -/
def field? (v : Value) (name : Text) : Option Value := v.fields.get? name

/-- Whether a value counts as present in a condition: not absent, false, zero or empty. -/
def isTruthy : Value → Bool
  | .null => false
  | .bool b => b
  | .number n => !n.isZero
  | .text s => !s.isEmpty
  | .list items => !items.isEmpty
  | .record fs => !fs.isEmpty

end Value

/-- A field on its own. -/
def field (name : Text) (value : Value) : Fields := [(name, value)]

/-- A field that is left out when there is no value for it. -/
def optionalField (name : Text) (toValue : α → Value) : Option α → Fields
  | none => []
  | some a => [(name, toValue a)]

/-- A field that is there under a condition. -/
def fieldIf (condition : Bool) (name : Text) (value : Value) : Fields :=
  if condition then [(name, value)] else []

end DesignTree
