import DesignTree.Widget.Kind
import DesignTree.Widget.Layout
import DesignTree.Diagnostics.Fault
import DesignTree.Text.Search

/-! # Checking documents before they are read

A check of a document that is meant to be a widget, without reading it into a model. Records can
always be checked. Other values cannot, nor can documents whose names for a layout or a child are
lists or records.
-/

namespace DesignTree.RawWidget

/-- What a check finds. -/
structure Finding where
  path : Text
  message : Text
  code : Text
  deriving DecidableEq, Repr

/-- A name that is not there. -/
def missingField (path name : Text) : Finding :=
  ⟨path, "Missing required field '" ++ name ++ "'", "missing_field"⟩

/-- A value of the wrong kind. -/
def wrongKind (path message : Text) : Finding := ⟨path, message, "invalid_type"⟩

/-- Whether a name is among the names of a record, the items of a list or the parts of a text. -/
def holds (name : Text) : Value → Except Fault Bool
  | .record fs => .ok (Entries.has fs name)
  | .list items => .ok (items.any fun v => v matches .text _ && Literal.text v == name)
  | .text s => .ok (Text.contains s name)
  | v => .error (.notAContainer v)

/-- The part of a value under a name that it holds. -/
def part (name : Text) : Value → Except Fault Value
  | .record fs => .ok ((Entries.get? fs name).getD .null)
  | .list _ => .error .listIndex
  | .text _ => .error .textIndex
  | v => .error (.notAContainer v)

/-- Whether a value is the name of a widget kind. -/
def namesKind : Value → Bool
  | .text s => (WidgetKind.ofName? s).isSome
  | _ => false

/-- Whether a value is the name of a layout kind. Lists and records cannot be looked up. -/
def namesLayout : Value → Except Fault Bool
  | .text s => .ok (Spelled.ofText? s : Option LayoutKind).isSome
  | .list items => .error (.unhashable (.list items))
  | .record fs => .error (.unhashable (.record fs))
  | _ => .ok false

/-- What is wrong with the names that every widget has. -/
def checkNames (path : Text) (data : Value) : Except Fault (List Finding) := do
  let id ← holds "id" data
  let missingId := if id then [] else [missingField path "id"]
  if ← holds "type" data then
    let kind ← part "type" data
    if namesKind kind then return missingId
    return missingId ++ [⟨path, "Invalid widget type: " ++ Literal.text kind, "invalid_enum"⟩]
  return missingId ++ [missingField path "type"]

/-- What is wrong with the layout among the fields of a widget. -/
def checkLayout (path : Text) (fs : Fields) : Except Fault (List Finding) :=
  match fs.get? "layout" with
  | none | some .null => .ok []
  | some (.record layout) => do
    let kind := (Entries.get? layout "type").getD .null
    if ← namesLayout kind then return []
    return [⟨path ++ ".layout", "Invalid layout type: " ++ Literal.text kind, "invalid_enum"⟩]
  | some _ => .ok [wrongKind path "layout must be an object"]

/-- An identifier by which children are told apart. Truth values count as numbers. -/
inductive ChildId
  | text (value : Text)
  | number (value : Number)

/-- Whether two identifiers are one. -/
def ChildId.same : ChildId → ChildId → Bool
  | .text a, .text b => a == b
  | .number a, .number b => a.alike b
  | _, _ => false

/-- The identifier of a child, if it has one. Lists and records cannot be identifiers. -/
def childId? (fs : Fields) : Except Fault (Option ChildId) :=
  match fs.get? "id" with
  | none => .ok none
  | some v =>
    if !v.isTruthy then .ok none
    else match v with
      | .text s => .ok (some (.text s))
      | .number n => .ok (some (.number n))
      | .bool b => .ok (some (.number (.int (if b then 1 else 0))))
      | v => .error (.unhashable v)

/-- The path to a child. -/
def childPath (path : Text) (i : Nat) : Text := path ++ ".children[" ++ i.repr ++ "]"

mutual

/-- Everything that is wrong with a value that is meant to be a widget. -/
def check (path : Text) : Value → Except Fault (List Finding)
  | .record fs => do
    let names ← checkNames path (.record fs)
    let layout ← checkLayout path fs
    let children ← checkChildren path fs
    return names ++ layout ++ children
  | v => do
    let _ ← checkNames path v
    throw (.noAttribute v "get")

/-- What is wrong with the children among the fields of a widget. -/
def checkChildren (path : Text) : List (Text × Value) → Except Fault (List Finding)
  | [] => .ok []
  | (name, v) :: rest =>
    if name = "children" then checkChildList path v else checkChildren path rest

def checkChildList (path : Text) : Value → Except Fault (List Finding)
  | .list items => checkItems path 0 [] items
  | _ => .ok [wrongKind path "children must be a list"]

/-- What is wrong with the children from the `i`-th on, `seen` being the identifiers before. -/
def checkItems (path : Text) (i : Nat) (seen : List ChildId) :
    List Value → Except Fault (List Finding)
  | [] => .ok []
  | v :: rest =>
    match v with
    | .record fs => do
      let id ← childId? fs
      let repeated :=
        match id with
        | some c =>
          if seen.any c.same then
            [⟨childPath path i,
              "Duplicate id: " ++ Literal.text ((Entries.get? fs "id").getD .null),
              "duplicate_id"⟩]
          else []
        | none => []
      let own ← check (childPath path i) (.record fs)
      let others ← checkItems path (i + 1) (id.toList ++ seen) rest
      return repeated ++ own ++ others
    | _ => do
      let others ← checkItems path (i + 1) seen rest
      return wrongKind (childPath path i) "Child must be an object" :: others

end

end DesignTree.RawWidget
