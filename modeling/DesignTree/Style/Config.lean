import DesignTree.Settings

/-! # How styles are resolved -/

namespace DesignTree

/-- The switches of style resolution. -/
structure StyleConfig where
  /-- References into the theme become bindings to tokens. -/
  useVariables : Bool := true
  /-- Where a token is missing, the literal value is taken with a warning instead of an error. -/
  fallbackToDirectValues : Bool := true
  /-- The theme whose collections are searched. -/
  collectionPrefix : Text := "Default"
  /-- Tokens of several modes are looked up first. -/
  preferMultiMode : Bool := false
  deriving DecidableEq, Repr

/-- The names of the switches. -/
inductive StyleSwitch
  | useVariables
  | fallbackToDirectValues
  | collectionPrefix
  | preferMultiMode
  deriving DecidableEq, Repr

instance : Spelled StyleSwitch where
  all := [.useVariables, .fallbackToDirectValues, .collectionPrefix, .preferMultiMode]
  spelling
    | .useVariables => "use_variables"
    | .fallbackToDirectValues => "fallback_to_direct_values"
    | .collectionPrefix => "collection_prefix"
    | .preferMultiMode => "prefer_multi_mode"

/-- The setting that a switch has its value from. -/
def StyleSwitch.setting : StyleSwitch → Setting
  | .useVariables => .useVariables
  | .fallbackToDirectValues => .fallbackToDirectValues
  | .collectionPrefix => .collectionPrefix
  | .preferMultiMode => .preferMultiMode

/-- The switches as they are given: any value is a flag by whether it counts as present, and a text
by how it is shown. -/
structure StyleOptions where
  value : StyleSwitch → Value

namespace StyleOptions

/-- The switches without any change. -/
def default : StyleOptions := ⟨(·.setting.default)⟩

/-- The switches of an environment. -/
def ofEnvironment (env : Environment) : StyleOptions := ⟨(·.setting.value env)⟩

/-- The switches with one of them changed. -/
def set (o : StyleOptions) (switch : StyleSwitch) (v : Value) : StyleOptions :=
  ⟨fun s => if s = switch then v else o.value s⟩

/-- The switches with those changed that fields name. The name of the switches themselves is taken,
and any other name is no switch. -/
def assigned (o : StyleOptions) (fields : Fields) : Except Fault StyleOptions :=
  fields.foldlM (fun o (name, v) =>
    if name = "self" then .error (.nameTaken "__init__" name)
    else match Spelled.ofText? name with
      | some switch => .ok (o.set switch v)
      | none => .error (.unknownOption name)) o

/-- The switches with several of them changed. -/
def updated (o : StyleOptions) (changes : Fields) : Except Fault StyleOptions :=
  if changes.has "self" then .error (.nameTaken "updated" "self") else o.assigned changes

/-- The switches of an environment with overrides on top; absent overrides change nothing. -/
def overridden (env : Environment) (overrides : Fields) : Except Fault StyleOptions :=
  if overrides.has "cls" then .error (.nameTaken "from_environment" "cls")
  else (ofEnvironment env).assigned (overrides.filter (!·.2.isNull))

/-- What the switches mean. -/
def config (o : StyleOptions) : StyleConfig where
  useVariables := (o.value .useVariables).isTruthy
  fallbackToDirectValues := (o.value .fallbackToDirectValues).isTruthy
  collectionPrefix := Literal.text (o.value .collectionPrefix)
  preferMultiMode := (o.value .preferMultiMode).isTruthy

def toValue (o : StyleOptions) : Value :=
  .record ((Spelled.all : List StyleSwitch).map fun s => (Spelled.spelling s, o.value s))

end StyleOptions

end DesignTree
