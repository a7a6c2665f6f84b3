import DesignTree.Text.Digit
import DesignTree.Text.Search

/-! # The words of a command

After the name of a command come options, values of options, and at most one input. A long option
may be cut short as long as no other one starts the same way, and its value may follow an equals
sign; the value of a short option may follow it without a gap. After two dashes that stand alone
nothing is an option. Two dashes as an attached value are taken away, and the option has none.
-/

namespace DesignTree.CommandLine

/-- An option of a command. -/
structure OptionSpec where
  /-- The names of the option, the long one first. -/
  names : List Text
  takesValue : Bool := true
  /-- The values that the option takes. -/
  accepts : Text → Bool := fun _ => true

namespace OptionSpec

/-- The name by which an option is known. -/
def name (o : OptionSpec) : Text := o.names.headD ""

/-- The option that asks for help. -/
def help : OptionSpec := { names := ["--help", "-h"], takesValue := false }

end OptionSpec

/-- Why words are no use of a command. -/
inductive Refusal
  /-- They ask for help. -/
  | help
  | misuse
  deriving DecidableEq, Repr

/-- A word among the others. -/
inductive Word
  | plain (text : Text)
  | separator
  | option (spec : OptionSpec) (attached : Option Text)
  | unknown

/-- A word before its first equals sign, and what follows the sign. -/
def splitAssignment (word : Text) : Text × Option Text :=
  let (stem, rest) := word.toList.span (· != .ofChar '=')
  match rest with
  | _ :: value => (.ofList stem, some (.ofList value))
  | [] => (.ofList stem, none)

/-- The option of a name. -/
def findOption? (options : List OptionSpec) (name : Text) : Option OptionSpec :=
  options.find? (·.names.contains name)

/-- The options that a word may stand for: those that start like a long one, or the short one that
a word starts with. -/
def candidates (options : List OptionSpec) (word : Text) : List Word :=
  let (stem, value) := splitAssignment word
  let (short, gapless) := word.toList.splitAt 2
  let isLong := word.startsWith "--"
  let fits (name : Text) : Bool :=
    if isLong then name.startsWith stem else name = Text.ofList short
  let attached := if isLong then value else some (Text.ofList gapless)
  options.flatMap fun o => (o.names.filter fits).map fun _ => .option o attached

/-- Whether characters are a number below zero, up to the end of their first line. -/
def areNegativeNumber : List Char → Bool
  | '-' :: rest =>
    let isDecimal (c : Char) : Bool := (Text.decimalValue? c).isSome
    let isEnd (cs : List Char) : Bool := cs.isEmpty || cs == ['\n']
    match rest.span isDecimal with
    | (_, '.' :: fraction) =>
      let (digits, tail) := fraction.span isDecimal
      !digits.isEmpty && isEnd tail
    | (whole, tail) => !whole.isEmpty && isEnd tail
  | _ => false

/-- Whether a word is a number below zero. -/
def isNegativeNumber (word : Text) : Bool :=
  (word.toString?.map fun s => areNegativeNumber s.toList).getD false

/-- What a word is that two dashes do not stand before. A word that could be several options is a
misuse. -/
def classify (options : List OptionSpec) (word : Text) : Except Refusal Word :=
  let (stem, value) := splitAssignment word
  if !word.startsWith "-" || word.length = 1 then .ok (.plain word)
  else match findOption? options word, findOption? options stem with
    | some o, _ => .ok (.option o none)
    | none, some o => .ok (.option o value)
    | none, none =>
      match candidates options word with
      | [only] => .ok only
      | [] => .ok (if isNegativeNumber word || word.contains " " then .plain word else .unknown)
      | _ => .error .misuse

/-- What the words of a command are. -/
def classifyAll (options : List OptionSpec) : List Text → Except Refusal (List Word)
  | [] => .ok []
  | s :: rest =>
    if s = "--" then .ok (.separator :: rest.map .plain)
    else do
      let first ← classify options s
      let others ← classifyAll options rest
      return first :: others

/-- What the words of a command give. -/
structure Arguments where
  input : Option Text := none
  /-- The options by their names, in order, with the values that they have. -/
  given : List (Text × Option Text) := []
  /-- Whether there are words without a use. -/
  hasSurplus : Bool := false

namespace Arguments

/-- The arguments with one more option. -/
def add (a : Arguments) (o : OptionSpec) (value : Option Text) : Arguments :=
  { a with given := a.given ++ [(o.name, value)] }

/-- The arguments with one more option and its value, if the option takes it. -/
def give (a : Arguments) (o : OptionSpec) (value : Text) : Except Refusal Arguments :=
  if value = "--" then .ok (a.add o none)
  else if o.accepts value then .ok (a.add o (some value))
  else .error .misuse

/-- The values with which an option is given. -/
def values (a : Arguments) (name : Text) : List (Option Text) :=
  (a.given.filter (·.1 == name)).map (·.2)

/-- The value with which an option is given the last time. -/
def last? (a : Arguments) (name : Text) : Option (Option Text) := (a.values name).getLast?

/-- The value of an option, if it is given and has one. -/
def value? (a : Arguments) (name : Text) : Option Text := (a.last? name).join

/-- Whether an option is given. -/
def has (a : Arguments) (name : Text) : Bool := !(a.values name).isEmpty

end Arguments

/-- The arguments that words add to others. -/
def consume (wantsInput : Bool) (a : Arguments) : List Word → Except Refusal Arguments
  | [] => .ok a
  | .option o attached :: rest =>
    match o.takesValue, attached, rest with
    | true, some v, rest => do consume wantsInput (← a.give o v) rest
    | true, none, .plain v :: more => do consume wantsInput (← a.give o v) more
    | false, none, rest =>
      if o.name = OptionSpec.help.name then .error .help
      else consume wantsInput (a.add o none) rest
    | _, _, _ => .error .misuse
  | .plain v :: rest =>
    if wantsInput && a.input.isNone then
      match rest with
      | .separator :: more => consume wantsInput { a with input := some v } more
      | rest => consume wantsInput { a with input := some v } rest
    else consume wantsInput { a with hasSurplus := true } rest
  | .separator :: rest =>
    match wantsInput && a.input.isNone, rest with
    | true, .plain v :: more => consume wantsInput { a with input := some v } more
    | _, rest => consume wantsInput { a with hasSurplus := true } rest
  | .unknown :: rest => consume wantsInput { a with hasSurplus := true } rest

/-- The arguments that the words of a command give. Every command has an option for help. -/
def readArguments (options : List OptionSpec) (wantsInput : Bool) (words : List Text) :
    Except Refusal Arguments := do
  let words ← classifyAll (.help :: options) words
  let a ← consume wantsInput {} words
  if a.hasSurplus || (wantsInput && a.input.isNone) then .error .misuse else return a

end DesignTree.CommandLine
