import DesignTree.Diagnostics.Fault
import DesignTree.Number.Reading
import DesignTree.Text.Case

/-! # Settings

What can be set from outside of a run. A setting that is absent, or whose text cannot be read, has
its default value.
-/

namespace DesignTree

/-- The variables of an environment. -/
abbrev Environment := Entries Text

/-- The settings. -/
inductive Setting
  | useVariables
  | fallbackToDirectValues
  | collectionPrefix
  | preferMultiMode
  | maxVariants
  | libraryName
  | libraryVersion
  | logLevel
  deriving DecidableEq, Repr

namespace Setting

def all : List Setting := [.useVariables, .fallbackToDirectValues, .collectionPrefix,
  .preferMultiMode, .maxVariants, .libraryName, .libraryVersion, .logLevel]

/-- The name of a setting. -/
def key : Setting → Text
  | .useVariables => "USE_VARIABLES"
  | .fallbackToDirectValues => "FALLBACK_TO_DIRECT_VALUES"
  | .collectionPrefix => "COLLECTION_PREFIX"
  | .preferMultiMode => "PREFER_MULTI_MODE"
  | .maxVariants => "MAX_VARIANTS"
  | .libraryName => "LIBRARY_NAME"
  | .libraryVersion => "LIBRARY_VERSION"
  | .logLevel => "LOG_LEVEL"

/-- The environment variable of a setting. -/
def environmentName (s : Setting) : Text := "DESIGNGEN_" ++ s.key

/-- The types of settings. -/
inductive Kind
  | flag
  | count
  | text
  deriving DecidableEq, Repr

def kind : Setting → Kind
  | .useVariables | .fallbackToDirectValues | .preferMultiMode => .flag
  | .maxVariants => .count
  | .collectionPrefix | .libraryName | .libraryVersion | .logLevel => .text

/-- The name of a type of settings. -/
def Kind.name : Kind → Text
  | .flag => "bool"
  | .count => "int"
  | .text => "str"

def default : Setting → Value
  | .useVariables | .fallbackToDirectValues => .bool true
  | .preferMultiMode => .bool false
  | .collectionPrefix => .text "Default"
  | .maxVariants => .number 16
  | .libraryName => .text "Flutter Component Library"
  | .libraryVersion => .text "1.0.0"
  | .logLevel => .text "INFO"

def description : Setting → Text
  | .useVariables => "Bind theme references to variables instead of literals"
  | .fallbackToDirectValues => "Apply the literal value (with a warning) when a token is missing"
  | .collectionPrefix => "Prefix of the variable collections searched for tokens"
  | .preferMultiMode => "Look up multi-mode (light/dark) variables first"
  | .maxVariants => "Upper bound on synthesized variants per component (at most 16)"
  | .libraryName => "Name of the generated component library"
  | .libraryVersion => "Version stamped into library metadata"
  | .logLevel => "Log level for the CLI (DEBUG, INFO, WARNING, ERROR)"

/-- What a setting is about. -/
def category : Setting → Text
  | .useVariables | .fallbackToDirectValues | .collectionPrefix | .preferMultiMode => "style"
  | .maxVariants => "variants"
  | .libraryName | .libraryVersion => "library"
  | .logLevel => "logging"

/-- The settings of a category, or all of them. -/
def inCategory : Option Text → List Setting
  | none => all
  | some c => all.filter (·.category == c)

/-- A truth value in words or digits. -/
def readFlag? (s : Text) : Option Bool :=
  let word := Text.trim (Text.lower s)
  if word ∈ (["true", "1", "yes"] : List Text) then some true
  else if word ∈ (["false", "0", "no"] : List Text) then some false
  else none

/-- The value that a text gives to a setting, if it can be read. -/
def read? (s : Setting) (text : Text) : Option Value :=
  match s.kind with
  | .flag => (readFlag? text).map .bool
  | .count => (text.toString?.bind Number.readSetting?).map fun n => .number (.int n)
  | .text => some (.text text)

/-- The value of a setting in an environment. -/
def value (s : Setting) (env : Environment) : Value :=
  ((env.get? s.environmentName).bind s.read?).getD s.default

/-- A value that is given for a setting, or else the one of an environment. -/
def orElse (s : Setting) (env : Environment) : Value → Value
  | .null => s.value env
  | given => given

end Setting

namespace Environment

/-- A flag of the environment. -/
def flag (env : Environment) (s : Setting) : Bool := (s.value env).isTruthy

/-- A text of the environment. -/
def text (env : Environment) (s : Setting) : Text := Literal.text (s.value env)

/-- A whole number of the environment. -/
def count (env : Environment) (s : Setting) : Int :=
  match s.value env with
  | .number (.int n) => n
  | _ => 0

end Environment

/-! ## Levels of messages -/

namespace LogLevel

/-- The names of the levels. -/
def names : List (Text × Int) := [("CRITICAL", 50), ("FATAL", 50), ("ERROR", 40), ("WARN", 30),
  ("WARNING", 30), ("INFO", 20), ("DEBUG", 10), ("NOTSET", 0)]

/-- The level of information. -/
def info : Int := 20

/-- The level of warnings. -/
def warning : Int := 30

/-- The level of errors. -/
def error : Int := 40

/-- The level of a name, whatever its case and the blanks around it. -/
def ofName? (name : Text) : Option Int :=
  Entries.get? names (Text.upper (Text.trim name))

/-- A level given by name or by number. An absent level and an unknown name have the default. -/
def ofValue (default : Value) : Value → Except Fault Value
  | .null => .ok default
  | .number (.int n) => .ok (.number (.int n))
  | .bool b => .ok (.bool b)
  | .text name => .ok (((ofName? name).map fun n => .number (.int n)).getD default)
  | v => .error (.noAttribute v "strip")

/-- The level of an environment. -/
def ofEnvironment (env : Environment) : Int := (ofName? (env.text .logLevel)).getD info

end LogLevel

/-- What messages come from that name no part of the program. -/
def defaultLogger : Text := "designgen"

/-- The name under which messages come, which has to be a text unless it counts as absent. -/
def loggerName (given : Value) : Except Fault Text :=
  if !given.isTruthy then .ok defaultLogger
  else match given with
    | .text name => .ok name
    | _ => .error .loggerWithoutName

end DesignTree
