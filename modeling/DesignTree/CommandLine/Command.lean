import DesignTree.CommandLine.Words
import DesignTree.Data.Literal
import DesignTree.Decode.Scalar
import DesignTree.Number.Reading

/-! # Commands

The commands, and how they are read from words. The first word is the name of a command.
-/

namespace DesignTree.CommandLine

/-- The forms in which a conversion is shown. -/
inductive Form
  | json
  | tree
  | summary
  /-- All other forms below each other. -/
  | all
  deriving DecidableEq, Repr

instance : Spelled Form where
  all := [.json, .tree, .summary, .all]
  spelling
    | .json => "json"
    | .tree => "tree"
    | .summary => "summary"
    | .all => "all"

/-- What is to be converted, and how. -/
structure ConversionRequest where
  /-- The file with the widget tree. -/
  input : Text
  /-- The file with the theme, which goes before a theme of the input. -/
  theme : Option Text := none
  /-- The words that assign theme files to further modes, as far as there are any. -/
  modes : List (Option Text) := []
  output : Option Text := none
  form : Form := .json
  /-- Whether missing tokens are errors. -/
  isStrict : Bool := false
  /-- Whether references become bindings. -/
  useVariables : Bool := true
  collectionPrefix : Option Text := none
  /-- The greatest number of variants, or the absent value. -/
  maxVariants : Value := .null

/-- A command with its arguments. -/
inductive Command
  | convert (request : ConversionRequest)
  | validate (input : Text)
  | schema (output : Option Text)
  | tokens (theme : Text) (name : Text) (output : Option Text)
  | settings (category : Option Text)

/-- A word before its first equals sign, if there is one, and what follows it. -/
def assignment? (word : Text) : Option (Text × Text) :=
  match splitAssignment word with
  | (_, none) => none
  | (name, some path) => if name.isEmpty || path.isEmpty then none else some (name, path)

/-- The value of an option that is given. What stands for no value is an empty list. -/
def givenValue (read : Text → Value) : Option Text → Value
  | some s => read s
  | none => .list []

/-- The value of an option as a text. -/
def givenText (value : Option Text) : Text := Literal.text (givenValue (.text ·) value)

/-- The whole number that a word is. -/
def readCount? (word : Text) : Option Int := word.toString?.bind Number.readSetting?

/-- The value of an option as a whole number. -/
def givenCount (value : Option Text) : Value :=
  givenValue (fun s => .ofOption (fun n => .number (.int n)) (readCount? s)) value

namespace Command

def output : OptionSpec := { names := ["--output", "-o"] }

/-- The options of a conversion. -/
def convertOptions : List OptionSpec := [
  { names := ["--theme", "-t"] },
  { names := ["--mode"] },
  output,
  { names := ["--format", "-f"], accepts := fun s => (Spelled.ofText? s : Option Form).isSome },
  { names := ["--strict"], takesValue := false },
  { names := ["--no-variables"], takesValue := false },
  { names := ["--collection-prefix"] },
  { names := ["--max-variants"], accepts := fun s => (readCount? s).isSome }]

/-- The categories of settings that can be asked for. -/
def settingCategories : List Text := ["style", "variants", "library", "logging"]

def readConvert (words : List Text) : Except Refusal Command := do
  let a ← readArguments convertOptions true words
  return .convert {
    input := a.input.getD ""
    theme := a.value? "--theme"
    modes := a.values "--mode"
    output := a.value? "--output"
    form := ((a.value? "--format").bind fun s => Spelled.ofText? s).getD .json
    isStrict := a.has "--strict"
    useVariables := !a.has "--no-variables"
    collectionPrefix := (a.last? "--collection-prefix").map givenText
    maxVariants := .ofOption givenCount (a.last? "--max-variants") }

def readValidate (words : List Text) : Except Refusal Command := do
  let a ← readArguments [] true words
  return .validate (a.input.getD "")

def readSchema (words : List Text) : Except Refusal Command := do
  let a ← readArguments [output] false words
  return .schema (a.value? "--output")

def readTokens (words : List Text) : Except Refusal Command := do
  let a ← readArguments [{ names := ["--name", "-n"] }, output] true words
  let name : Text := ((a.last? "--name").map givenText).getD "Default"
  return .tokens (a.input.getD "") name (a.value? "--output")

def readSettings (words : List Text) : Except Refusal Command := do
  let category : OptionSpec :=
    { names := ["--category", "-c"], accepts := settingCategories.contains }
  let a ← readArguments [category] false words
  return .settings ((a.last? "--category").map givenText)

/-- The readers of commands by the names of the commands. -/
def readers : List (Text × (List Text → Except Refusal Command)) := [
  ("convert", readConvert), ("validate", readValidate), ("schema", readSchema),
  ("tokens", readTokens), ("env", readSettings)]

/-- The files that a command reads. -/
def inputs : Command → List Text
  | .convert r => r.input :: r.theme.toList ++ (r.modes.filterMap (·.bind assignment?)).map (·.2)
  | .validate input => [input]
  | .tokens theme _ _ => [theme]
  | .schema _ | .settings _ => []

/-- The file that a command writes. -/
def output? : Command → Option Text
  | .convert r => r.output
  | .schema output | .tokens _ _ output => output
  | .validate _ | .settings _ => none

end Command

/-- What words ask for. -/
inductive Invocation
  /-- No word at all. -/
  | nothing
  | help
  | unknown (name : Text)
  /-- A known command that the other words do not fit. -/
  | misuse (name : Text)
  | command (command : Command)

/-- What words ask for. -/
def Invocation.ofWords : List Text → Invocation
  | [] => .nothing
  | name :: words =>
    if OptionSpec.help.names.contains name then .help
    else match Command.readers.lookup name with
      | none => .unknown name
      | some read =>
        match read words with
        | .ok c => .command c
        | .error .help => .help
        | .error .misuse => .misuse name

end DesignTree.CommandLine
