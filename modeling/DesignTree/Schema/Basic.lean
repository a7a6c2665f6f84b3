import DesignTree.Data.Value
import DesignTree.Text.Case

/-! # Schemas of documents

A JSON schema describes a family of models: records with fields, and closed vocabularies. The parts
of a schema stand in alphabetical order, but for the fields of a record, which keep theirs.
-/

namespace DesignTree.Schema

/-- The shape of a value. -/
inductive Shape
  | text
  | bool
  | number
  /-- One of a few texts. -/
  | choice (names : List Text)
  /-- A record or a vocabulary with a description of its own. -/
  | model (name : Text)
  | list (items : Shape)

/-- A field of a record. -/
structure Field where
  name : Text
  shape : Shape
  isNullable : Bool := false
  isRequired : Bool := false
  /-- The value of an absent field, where it is a plain one. -/
  default : Option Value := none
  description : Option Text := none

namespace Field

/-- A field that may be absent or hold the absent value. -/
def optional (shape : Shape) (name : Text) : Field :=
  { name, shape, isNullable := true, default := some .null }

/-- A field that has to be there. -/
def required (shape : Shape) (name : Text) : Field := { name, shape, isRequired := true }

/-- A field with a plain value where it is absent. -/
def orElse (shape : Shape) (default : Value) (name : Text) : Field :=
  { name, shape, default := some default }

/-- A field that is made anew where it is absent. -/
def orNew (shape : Shape) (name : Text) : Field := { name, shape }

/-- A field with a description. -/
def described (text : Text) (f : Field) : Field := { f with description := some text }

end Field

/-- A model of a document. -/
inductive Model
  | record (name description : Text) (isOpen : Bool) (fields : List Field)
  | vocabulary (name description : Text) (members : List Text)

/-- A description of several lines. -/
def lines (ls : List Text) : Text := Text.intercalate "\n" ls

/-- The parts of a schema in alphabetical order. -/
def sorted (parts : Fields) : Fields := parts.mergeSort fun a b => a.1 ≤ b.1

/-- The reference to a model. -/
def reference (name : Text) : Text := "#/$defs/" ++ name

/-- A part that names the type of a value. -/
def typed (name : Text) : Text × Value := ("type", .text name)

/-- A choice between several schemas. -/
def anyOf (choices : List Fields) : Fields := [("anyOf", .list (choices.map .record))]

namespace Shape

/-- The schemas between which a shape leaves the choice. -/
def alternatives : Shape → List Fields
  | .text => [[typed "string"]]
  | .bool => [[typed "boolean"]]
  | .number => [[typed "integer"], [typed "number"]]
  | .choice names => [[("enum", .ofTexts names), typed "string"]]
  | .model name => [[("$ref", .text (reference name))]]
  | .list items =>
    let inner := match items.alternatives with
      | [only] => only
      | choices => anyOf choices
    [[("items", .record inner), typed "array"]]

/-- Whether a shape is a model, which has a title of its own. -/
def isModel : Shape → Bool
  | .model _ => true
  | _ => false

end Shape

/-- The title of a field: its name with a capital first and small letters after it. -/
def title (name : Text) : Text :=
  match name.toList with
  | [] => ""
  | c :: rest => Text.upper (Text.ofList [c]) ++ Text.lower (Text.ofList rest)

/-- The schema of a field. -/
def Field.toValue (f : Field) : Value :=
  let choices := f.shape.alternatives ++ if f.isNullable then [[typed "null"]] else []
  let shape := match choices with
    | [only] => only
    | _ => anyOf choices
  .record (sorted (shape ++ optionalField "default" id f.default ++
    optionalField "description" .text f.description ++
    fieldIf (!f.shape.isModel) "title" (.text (title f.name))))

namespace Model

def name : Model → Text
  | .record name .. | .vocabulary name .. => name

/-- The schema of a model. -/
def toValue : Model → Value
  | .record name description isOpen fields =>
    let required := (fields.filter (·.isRequired)).map (·.name)
    .record (fieldIf isOpen "additionalProperties" (.bool true) ++
      field "description" (.text description) ++
      field "properties" (.record (fields.map fun f => (f.name, f.toValue))) ++
      fieldIf (!required.isEmpty) "required" (.ofTexts required) ++
      field "title" (.text name) ++ [typed "object"])
  | .vocabulary name description members =>
    .record [("description", .text description), ("enum", .ofTexts members),
      ("title", .text name), typed "string"]

end Model

/-- The schema of the documents of one model, together with the models that it refers to. -/
def document (root : Text) (models : List Model) : Value :=
  .record [("$defs", .record (sorted (models.map fun m => (m.name, m.toValue)))),
    ("$ref", .text (reference root))]

end DesignTree.Schema
