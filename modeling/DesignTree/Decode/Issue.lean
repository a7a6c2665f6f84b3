import DesignTree.Text.Basic

/-! # Why a value is refused

A document is read into a model field by field, and everything that does not fit is reported with
the path to it.
-/

namespace DesignTree

/-- What is wrong with one value. -/
inductive Problem
  | missing
  | notModel (model : Text)
  | notRecord
  | notList
  | notText
  /-- A text with a surrogate where characters are read. -/
  | brokenText
  | unreadableBool
  | notBool
  | unreadableInt
  | fractionalInt
  | unboundedInt
  | oversizedInt
  | notInt
  | unreadableNumber
  | notNumber
  /-- A text outside a closed vocabulary. -/
  | unlisted (names : List Text)
  /-- A value that is none of a few fixed texts. -/
  | unexpected (names : List Text)
  /-- A font weight that is no number. -/
  | weightWithoutValue
  /-- A font weight beyond every number. -/
  | weightBeyondNumbers
  deriving DecidableEq, Repr

namespace Problem

/-- The choices of a vocabulary, the last one after the word "or". -/
def choices : List Text → Text
  | [] => ""
  | [a] => "'" ++ a ++ "'"
  | [a, b] => "'" ++ a ++ "' or '" ++ b ++ "'"
  | a :: rest => "'" ++ a ++ "', " ++ choices rest

/-- The kind of a problem in one word. -/
def code : Problem → Text
  | .missing => "missing"
  | .notModel _ => "model_type"
  | .notRecord => "dict_type"
  | .notList => "list_type"
  | .notText => "string_type"
  | .brokenText => "string_unicode"
  | .unreadableBool => "bool_parsing"
  | .notBool => "bool_type"
  | .unreadableInt => "int_parsing"
  | .fractionalInt => "int_from_float"
  | .unboundedInt => "finite_number"
  | .oversizedInt => "int_parsing_size"
  | .notInt => "int_type"
  | .unreadableNumber => "float_parsing"
  | .notNumber => "float_type"
  | .unlisted _ => "enum"
  | .unexpected _ => "literal_error"
  | .weightWithoutValue | .weightBeyondNumbers => "value_error"

/-- A problem as a sentence. -/
def message : Problem → Text
  | .missing => "Field required"
  | .notModel model => "Input should be a valid dictionary or instance of " ++ model
  | .notRecord => "Input should be a valid dictionary"
  | .notList => "Input should be a valid list"
  | .notText => "Input should be a valid string"
  | .brokenText =>
    "Input should be a valid string, unable to parse raw data as a unicode string"
  | .unreadableBool => "Input should be a valid boolean, unable to interpret input"
  | .notBool => "Input should be a valid boolean"
  | .unreadableInt => "Input should be a valid integer, unable to parse string as an integer"
  | .fractionalInt => "Input should be a valid integer, got a number with a fractional part"
  | .unboundedInt => "Input should be a finite number"
  | .oversizedInt => "Unable to parse input string as an integer, exceeded maximum size"
  | .notInt => "Input should be a valid integer"
  | .unreadableNumber => "Input should be a valid number, unable to parse string as a number"
  | .notNumber => "Input should be a valid number"
  | .unlisted names | .unexpected names => "Input should be " ++ choices names
  | .weightWithoutValue => "Value error, cannot convert float NaN to integer"
  | .weightBeyondNumbers => "Value error, cannot convert float infinity to integer"

end Problem

/-- A problem and the path to the value that has it. -/
structure Issue where
  path : List Text
  problem : Problem
  deriving DecidableEq, Repr

/-- The same issue seen from one level further out. -/
def Issue.under (part : Text) (i : Issue) : Issue := { i with path := part :: i.path }

/-- The path as one text. -/
def Issue.location (i : Issue) : Text := Text.intercalate "." i.path

/-- The refusal of a value as a model, with every issue found in it. -/
structure Rejection where
  model : Text
  issues : List Issue
  deriving DecidableEq, Repr

/-- The refusal in one line. -/
def Rejection.headline (r : Rejection) : Text :=
  let count := r.issues.length
  count.repr ++ " validation error" ++ (if count = 1 then "" else "s") ++ " for " ++ r.model

end DesignTree
