import DesignTree.CommandLine.Command
import DesignTree.CommandLine.Workspace
import DesignTree.Conversion.Summary
import DesignTree.Data.Writer
import DesignTree.Node.Outline
import DesignTree.Schema.Widget
import DesignTree.Widget.Check
import DesignTree.Widget.Raw

/-! # Running commands

What a command prints, writes and reports, without doing it. Input that cannot be used is reported;
other faults end the run.
-/

namespace DesignTree.CommandLine

/-- How urgent a message is. -/
inductive Urgency
  | info
  | warning
  | error
  deriving DecidableEq, Repr

namespace Urgency

def level : Urgency → Int
  | .info => LogLevel.info
  | .warning => LogLevel.warning
  | .error => LogLevel.error

def name : Urgency → Text
  | .info => "INFO"
  | .warning => "WARNING"
  | .error => "ERROR"

end Urgency

/-- A message about a run. -/
structure Message where
  urgency : Urgency
  text : Text
  deriving DecidableEq, Repr

/-- A file that a run writes. -/
structure WrittenFile where
  path : Text
  place : List Text
  text : String
  deriving DecidableEq, Repr

/-- What comes of a run. -/
structure Outcome where
  exitCode : Nat := 0
  printed : Text := ""
  written : Option WrittenFile := none
  messages : List Message := []
  deriving DecidableEq, Repr

namespace Outcome

/-- An outcome that prints lines. -/
def lines (exitCode : Nat) (ls : List Text) : Outcome where
  exitCode
  printed := Text.join (ls.map (· ++ "\n"))

/-- An outcome that is no more than the report of an error. -/
def failure (text : Text) : Outcome where
  exitCode := 1
  messages := [⟨.error, text⟩]

/-- An outcome with only the messages from a level on. -/
def fromLevel (level : Int) (o : Outcome) : Outcome :=
  { o with messages := o.messages.filter fun m => level ≤ m.urgency.level }

/-- A text that goes into a file, or else is printed. -/
def deliver (w : Workspace) (output : Option Text) (text : Text) : Except Fault Outcome :=
  match output.map normalPath with
  | none => .ok (lines 0 [text])
  | some path => do
    let place ← w.placeToWrite path
    if let some run := text.surrogateRun? (fun _ => true) then throw (.unencodable run)
    return {
      written := some { path, place, text := text.visible }
      messages := [⟨.info, "Output saved to " ++ path⟩] }

end Outcome

/-! ## Faults of the input -/

/-- Whether a fault is that of a file that cannot be opened or holds no JSON. -/
def isUnreadable : Fault → Bool
  | .unopened .. | .malformed => true
  | _ => false

/-- Whether a fault is that of a file without a model. -/
def isUnusable : Fault → Bool
  | .rejected _ => true
  | f => isUnreadable f

/-- What is reported of a fault in a conversion, if it does not end the run. -/
def conversionReport? : Fault → Option Text
  | f@(.unopened ..) | f@.endInPath | f@(.unencodable ..) | f@.malformed | f@(.tooManyDigits _)
  | f@(.rejected _) | f@(.noAssignment _) | f@(.notMember ..) | f@.childrenMissing
  | f@(.notACount _) | f@.noInteger | f@.unpairedComponents
  | f@(.design (.invalidColor _)) => some ("Could not load input: " ++ f.message)
  | .design e => some e.userMessage
  | _ => none

/-! ## Conversions -/

/-- A document that a conversion or a check starts from: a widget tree, or a record that holds
one. -/
def treeOf (document : Value) : Value := (document.field? "tree").getD document

/-- The items of a value that can be gone through: those of a list, the characters of a text, and
the names of a record. -/
def itemsOf : Value → Except Fault (List Value)
  | .list items => .ok items
  | .text s => .ok (s.toList.map fun c => .text (Text.ofList [c]))
  | .record fs => .ok (fs.map fun e => .text e.1)
  | v => .error (.notIterable v)

def readTheme (v : Value) : Except Fault Theme := (Theme.decode v).orFault "ThemeModel"

/-- The reusable widgets of a document. -/
def definitionsOf (document : Value) : Except Fault (List Definition) := do
  let items ← itemsOf ((document.field? "definitions").getD (.list []))
  items.mapM fun v => (Definition.decode v).orFault "ReusableWidgetDefinition"

/-- The theme of a conversion. -/
def ConversionRequest.readTheme? (r : ConversionRequest) (w : Workspace) (document : Value) :
    Except Fault (Option Theme) :=
  match r.theme, document.field? "theme" with
  | some path, _ => do return some (← readTheme (← w.readJson path))
  | none, some v => some <$> readTheme v
  | none, none => .ok none

/-- The files of further modes. -/
def ConversionRequest.modeFiles (r : ConversionRequest) : Except Fault (Entries Text) :=
  r.modes.foldlM (fun files mode =>
    match mode with
    | none => .error (.noAttribute (.list []) "partition")
    | some word =>
      match assignment? word with
      | some (name, path) => .ok (files.set name path)
      | none => .error (.noAssignment word)) ([] : Entries Text)

/-- The switches of a conversion. -/
def ConversionRequest.config (r : ConversionRequest) (env : Environment) : StyleConfig :=
  let c := (StyleOptions.ofEnvironment env).config
  { c with
    collectionPrefix := r.collectionPrefix.getD c.collectionPrefix
    fallbackToDirectValues := !r.isStrict && c.fallbackToDirectValues
    useVariables := r.useVariables && c.useVariables }

/-- The conversion that is asked for. -/
def ConversionRequest.convert (r : ConversionRequest) (env : Environment) (w : Workspace) :
    Except Fault Conversion := do
  let document ← w.readJson r.input
  if !(document matches .record _) then throw (.noAttribute document "get")
  let root ← (Widget.decode (treeOf document)).orFault "WidgetNode"
  let definitions ← definitionsOf document
  let theme ← r.readTheme? w document
  let modes ← (← r.modeFiles).mapM fun (name, path) =>
    do return (name, ← readTheme (← w.readJson path))
  let converter := Converter.ofEnvironment env (some (r.config env)) r.maxVariants
  converter.convert root theme definitions modes

/-- A conversion in a form, `json` being its text as JSON. -/
def Form.render (json : Text) (c : Conversion) : Form → Text
  | .json => json
  | .tree => c.root.outline
  | .summary => c.summary
  | .all => "## Summary\n" ++ c.summary ++ "\n\n## Node Tree\n" ++ c.root.outline ++
      "\n\n## JSON\n```json\n" ++ json ++ "\n```"

def runConvert (env : Environment) (w : Workspace) (r : ConversionRequest) :
    Except Fault Outcome :=
  match r.convert env w with
  | .error f =>
    match conversionReport? f with
    | some report => .ok (.failure report)
    | none => .error f
  | .ok c => do
    let json := Json.pretty (← c.write)
    let o ← Outcome.deliver w r.output (r.form.render json c)
    return { o with exitCode := if c.success then 0 else 2 }

/-! ## Checks -/

/-- Numbered findings under a headline. -/
def findings (headline : Text) (ls : List Text) : Outcome :=
  .lines 1 ((headline ++ " (" ++ ls.length.repr ++ "):") :: ls.map ("  " ++ ·))

/-- The check of a document: first of its names, then as a model, then as a widget tree. -/
def checkDocument (document : Value) : Except Fault Outcome := do
  let tree := treeOf document
  let raw ← RawWidget.check "root" tree
  if !raw.isEmpty then
    return findings "Schema errors" (raw.map fun f =>
      f.path ++ ": " ++ f.message ++ " [" ++ f.code ++ "]")
  match (Widget.decode tree).orFault "WidgetNode" with
  | .error (.rejected r) =>
    return findings "Model errors" (r.issues.map fun i => i.location ++ ": " ++ i.problem.message)
  | .error f => throw f
  | .ok root =>
    if root.isValid then return .lines 0 ["Valid widget tree"]
    return findings "Semantic issues" (root.check.map fun i =>
      i.nodeId ++ ": " ++ i.message ++ " [" ++ i.rule.code ++ "]")

def runValidate (w : Workspace) (input : Text) : Except Fault Outcome :=
  match w.readJson input with
  | .ok document => checkDocument document
  | .error f =>
    if isUnreadable f then
      .ok (.failure ("Could not read " ++ normalPath input ++ ": " ++ f.message))
    else .error f

/-! ## Tokens, settings, and help -/

def runTokens (w : Workspace) (theme name : Text) (output : Option Text) :
    Except Fault Outcome :=
  match w.readJson theme >>= readTheme with
  | .error f =>
    if isUnusable f then .ok (.failure ("Could not load theme: " ++ f.message)) else .error f
  | .ok theme => do
    let table := TokenTable.ofTheme theme name
    let o ← Outcome.deliver w output (Json.pretty table.toValue)
    return { o with messages := table.issues.map (⟨.warning, ·⟩) ++ o.messages }

/-- Settings in lines, those of a category after its name. -/
def settingLines (category : Text) : List Setting → List Text
  | [] => []
  | s :: rest =>
    let headline : List Text :=
      if s.category = category then [] else ["", "[" ++ s.category ++ "]"]
    let lines : List Text :=
      ["  " ++ s.environmentName ++ " (" ++ s.kind.name ++ ", default: " ++
        Literal.text s.default ++ ")", "      " ++ s.description]
    headline ++ lines ++ settingLines s.category rest

def runSettings (category : Option Text) : Outcome :=
  match Setting.inCategory category with
  | [] => .failure ("No variables in category: " ++ category.getD "")
  | settings => .lines 0 (settingLines "" settings)

/-- What the commands are, and how they are used. -/
def overview : List Text := [
  "Usage: python . \x7bcommand\x7d [args]",
  "",
  "=== Conversion ===",
  "  convert    Convert a widget tree into design-tool node specs",
  "  validate   Validate a widget tree JSON file",
  "  tokens     Build the variable collections for a theme",
  "",
  "=== Reference ===",
  "  schema     Print the widget input JSON Schema",
  "  env        List configuration variables",
  "",
  "=== Development ===",
  "  test       Run pytest (--unit for unit tests only)",
  "",
  "Examples:",
  "  python . convert screen.json --theme theme.json -f tree",
  "  python . convert screen.json --mode Dark=dark.json -o out.json",
  "  python . convert screen.json --strict -f summary",
  "  python . validate screen.json",
  "  python . tokens theme.json --name Brand",
  "  python . env --category style"]

/-- The outcome of a command before its messages are chosen. -/
def runCommand (env : Environment) (w : Workspace) : Command → Except Fault Outcome
  | .convert r => runConvert env w r
  | .validate input => runValidate w input
  | .schema output => Outcome.deliver w output (Json.pretty Schema.widgetTree)
  | .tokens theme name output => runTokens w theme name output
  | .settings category => .ok (runSettings category)

/-- The outcome of an invocation. A command reports from the level of its environment on, and what
is no command from the level of warnings on. -/
def run (env : Environment) (w : Workspace) : Invocation → Except Fault Outcome
  | .nothing => .ok (.lines 1 overview)
  | .help => .ok (.lines 0 overview)
  | .unknown name =>
    .ok (({ Outcome.lines 1 overview with
      messages := [⟨.error, "Unknown command: " ++ name⟩] }).fromLevel LogLevel.warning)
  | .misuse _ => .ok { exitCode := 2 }
  | .command c => do return (← runCommand env w c).fromLevel (LogLevel.ofEnvironment env)

end DesignTree.CommandLine
