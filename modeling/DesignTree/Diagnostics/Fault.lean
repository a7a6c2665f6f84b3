import DesignTree.Diagnostics.Basic
import DesignTree.Data.Literal
import DesignTree.Number.Reading
import DesignTree.Text.Utf8

/-! # Faults

What ends an operation: an error of the design domain, the refusal of a value as a model, or a
value for which an operation is not defined.
-/

namespace DesignTree

/-- An error of the design domain. -/
inductive DesignError
  | general (message : Text) (context : Fields)
  | widget (message : Text) (widgetType : Option Text)
  | theme (message : Text) (path : Option Text)
  | conversion (message : Text) (widgetType : Option Text)
  | variable (message : Text) (name : Option Text)
  | invalidColor (value : Text)
  | schema (message : Text) (path : Option Text)
  | configuration (message : Text) (context : Fields)
  | componentNotFound (name : Text)

namespace DesignError

/-- The error in one word. -/
def code : DesignError → Text
  | .general .. => "DESIGNGEN_ERROR"
  | .widget .. => "WIDGET_ERROR"
  | .theme .. => "THEME_ERROR"
  | .conversion .. => "CONVERSION_ERROR"
  | .variable .. => "VARIABLE_ERROR"
  | .invalidColor _ => "INVALID_COLOR"
  | .schema .. => "VALIDATION_ERROR"
  | .configuration .. => "CONFIGURATION_ERROR"
  | .componentNotFound _ => "COMPONENT_NOT_FOUND"

def concern : DesignError → Concern
  | .general .. | .conversion .. => .conversion
  | .widget .. => .widget
  | .theme .. => .theme
  | .variable .. => .variable
  | .invalidColor _ => .style
  | .schema .. => .validation
  | .configuration .. | .componentNotFound _ => .configuration

/-- What an error is called in front of a user. -/
def label : DesignError → Text
  | .general .. => "Error"
  | .widget .. => "Widget error"
  | .theme .. => "Theme error"
  | .conversion .. => "Conversion error"
  | .variable .. => "Variable error"
  | .invalidColor _ => "Style error"
  | .schema .. => "Validation error"
  | .configuration .. | .componentNotFound _ => "Configuration error"

def message : DesignError → Text
  | .general m _ | .widget m _ | .theme m _ | .conversion m _ | .variable m _ | .schema m _
  | .configuration m _ => m
  | .invalidColor value => "Invalid hex color format: " ++ value
  | .componentNotFound name => "No component named '" ++ name ++ "' has been built"

/-- The details of an error by name. -/
def context : DesignError → Fields
  | .general _ c | .configuration _ c => c
  | .widget _ t | .conversion _ t => [("widget_type", .ofOption .text t)]
  | .theme _ p => [("theme_path", .ofOption .text p)]
  | .variable _ n => [("variable_name", .ofOption .text n)]
  | .invalidColor value => [("value", .text value)]
  | .schema _ p => [("path", .ofOption .text p)]
  | .componentNotFound name => [("component_name", .text name)]

/-- A place named after a preposition, unless it has no name. -/
def place (preposition : Text) : Option Text → Text
  | some name => if name.isEmpty then "" else " " ++ preposition ++ " " ++ name
  | none => ""

/-- Where an error arose. -/
def location : DesignError → Text
  | .widget _ t => place "in" t
  | .theme _ p | .schema _ p => place "at" p
  | .conversion _ t => place "for" t
  | .variable _ n => place "for" n
  | _ => ""

/-- An error in front of a user. -/
def userMessage (e : DesignError) : Text := e.label ++ e.location ++ ": " ++ e.message

/-- Whether an error is a fault of the configuration, which always ends a run. -/
def isConfiguration : DesignError → Bool
  | .configuration .. | .componentNotFound _ => true
  | _ => false

/-- The record of an error that does not end a run. -/
def toDiagnostic (e : DesignError) (nodeId : Option Text) : Diagnostic :=
  .error e.concern e.userMessage nodeId

end DesignError

/-- The kinds of values, by the words that messages have for them. -/
def Value.kindName : Value → Text
  | .null => "NoneType"
  | .bool _ => "bool"
  | .number (.int _) => "int"
  | .number (.float _) => "float"
  | .text _ => "str"
  | .list _ => "list"
  | .record _ => "dict"

/-- What stands in the way of opening a file. -/
inductive Obstacle
  | missing
  | fileInPath
  | isDirectory
  | nameTooLong
  deriving DecidableEq, Repr

/-- An obstacle in front of a user. -/
def Obstacle.message : Obstacle → Text
  | .missing => "[Errno 2] No such file or directory"
  | .fileInPath => "[Errno 20] Not a directory"
  | .isDirectory => "[Errno 21] Is a directory"
  | .nameTooLong => "[Errno 36] File name too long"

/-- What ends an operation. -/
inductive Fault
  | design (error : DesignError)
  | rejected (rejection : Rejection)
  /-- A value is no member of a vocabulary. -/
  | notMember (value : Value) (vocabulary : Text)
  /-- A node tree has fewer children than the widget tree it is walked with. -/
  | childrenMissing
  /-- How many combinations are taken is not said by a whole number from zero on. -/
  | notACount (count : Number)
  /-- Two values are not ordered by a comparison. -/
  | incomparable (comparison : Text) (left right : Value)
  /-- An integer is beyond the doubles. -/
  | integerTooLarge
  /-- The quotient of two integers is beyond the doubles. -/
  | quotientTooLarge
  /-- What is no number has no integer near it. -/
  | noInteger
  /-- An infinity has no integer near it. -/
  | infiniteInteger
  /-- A list or a record cannot be a key. -/
  | unhashable (value : Value)
  /-- A value without parts holds no names. -/
  | notAContainer (value : Value)
  /-- A list has no parts by name. -/
  | listIndex
  /-- A text has no parts by name. -/
  | textIndex
  /-- A value does not have a part that records have. -/
  | noAttribute (value : Value) (name : Text)
  /-- There is no switch of style resolution of a name. -/
  | unknownOption (name : Text)
  /-- A name of an operation on the switches of style resolution stands for something else. -/
  | nameTaken (operation name : Text)
  /-- Reusable widgets and components do not come in pairs. -/
  | unpairedComponents
  /-- A value has no items. -/
  | notIterable (value : Value)
  /-- A file cannot be opened. -/
  | unopened (obstacle : Obstacle) (path : Text)
  /-- The name of a file has a character that ends names. -/
  | endInPath
  /-- A text is no JSON. -/
  | malformed
  /-- An integer has more digits than are read. -/
  | tooManyDigits (count : Nat)
  /-- A list, or a record, of a JSON text stands inside too many others. -/
  | tooDeep (isList : Bool)
  /-- What messages come under is no text. -/
  | loggerWithoutName
  /-- A text that becomes bytes has surrogates. -/
  | unencodable (run : Text.SurrogateRun)
  /-- A word does not assign a file to a mode. -/
  | noAssignment (word : Text)

namespace Fault

def message : Fault → Text
  | .design e => e.message
  | .rejected r => r.headline
  | .notMember value vocabulary =>
    Literal.nested value ++ " is not a valid " ++ vocabulary
  | .childrenMissing => "zip() argument 2 is shorter than argument 1"
  | .notACount count =>
    (match count with
      | .int n => if n = -1 || n < -Number.wordBound then "Stop argument" else "Indices"
      | .float _ => "Stop argument" : Text) ++
      " for islice() must be None or an integer: 0 <= x <= sys.maxsize."
  | .integerTooLarge => "int too large to convert to float"
  | .quotientTooLarge => "integer division result too large for a float"
  | .noInteger => "cannot convert float NaN to integer"
  | .infiniteInteger => "cannot convert float infinity to integer"
  | .unhashable v => "unhashable type: '" ++ v.kindName ++ "'"
  | .notAContainer v => "argument of type '" ++ v.kindName ++ "' is not iterable"
  | .listIndex => "list indices must be integers or slices, not str"
  | .textIndex => "string indices must be integers, not 'str'"
  | .noAttribute v name =>
    "'" ++ v.kindName ++ "' object has no attribute '" ++ name ++ "'"
  | .unknownOption name =>
    "StyleMappingConfig.__init__() got an unexpected keyword argument '" ++ name ++ "'"
  | .incomparable comparison left right =>
    "'" ++ comparison ++ "' not supported between instances of '" ++ left.kindName ++ "' and '" ++
      right.kindName ++ "'"
  | .nameTaken operation name =>
    "StyleMappingConfig." ++ operation ++ "() got multiple values for argument '" ++ name ++ "'"
  | .unpairedComponents => "Each definition needs exactly one component"
  | .notIterable v => "'" ++ v.kindName ++ "' object is not iterable"
  | .unopened obstacle path => obstacle.message ++ ": " ++ Literal.quoted path
  | .endInPath => "embedded null byte"
  | .malformed => "Expecting value"
  | .tooManyDigits count =>
    "Exceeds the limit (" ++ Number.digitLimit.repr ++
      " digits) for integer string conversion: value has " ++ count.repr ++
      " digits; use sys.set_int_max_str_digits() to increase the limit"
  | .loggerWithoutName => "A logger name must be a string"
  | .tooDeep isList =>
    "maximum recursion depth exceeded while decoding a JSON " ++
      (if isList then "array" else "object" : Text) ++ " from a unicode string"
  | .unencodable run =>
    "'utf-8' codec can't encode " ++
      (if run.first = run.last then
        "character '\\u" ++ Text.hexPadded 4 run.surrogate.toNat ++ "' in position " ++
          run.first.repr
      else "characters in position " ++ run.first.repr ++ "-" ++ run.last.repr) ++
      ": surrogates not allowed"
  | .noAssignment word => "Expected NAME=FILE for --mode, got: " ++ word

end Fault

/-- The member of a vocabulary with a spelling. -/
def Spelled.member [Spelled α] (vocabulary s : Text) : Except Fault α :=
  match Spelled.ofText? s with
  | some a => .ok a
  | none => .error (.notMember (.text s) vocabulary)

/-- The result of reading a value as a whole model. A font weight beyond every number ends the
reading before the other issues count. -/
def Decoded.orFault (model : Text) : Decoded α → Except Fault α
  | .ok a => .ok a
  | .failed issues =>
    if issues.any (·.problem = .weightBeyondNumbers) then .error .infiniteInteger
    else .error (.rejected ⟨model, issues⟩)

/-- The result of a reading with its rejection as a fault. -/
def Fault.ofRejection : Except Rejection α → Except Fault α
  | .ok a => .ok a
  | .error r => .error (.rejected r)

end DesignTree
