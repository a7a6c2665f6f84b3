import DesignTree.CommandLine.Run

/-! # The program

Reads the files that a command names, runs the command, and does what comes of it.
-/

open DesignTree DesignTree.CommandLine

/-- The variables of the environment that are settings. -/
def settingVariables : IO Environment := do
  let found ← Setting.all.mapM fun s => do
    let value ← IO.getEnv s.environmentName.visible
    return value.map fun (v : String) => (s.environmentName, (v : Text))
  return found.filterMap id

/-- The files of some paths, without those that cannot be read. -/
def readFiles (home : List Text) (paths : List Text) : IO (List (List Text × String)) := do
  let found ← paths.mapM fun path => do
    return (placeOf home path, ← (IO.FS.readFile path.visible).toBaseIO)
  return found.filterMap fun (place, text) => text.toOption.map (place, ·)

/-- The workspace of an invocation. Whether its output can be written shows when it is. -/
def workspaceOf : Invocation → IO Workspace
  | .command c => do
    let home := pathParts ((← IO.currentDir).toString : Text)
    let outputs := c.output?.toList.map fun path => (placeOf home path).dropLast
    return { home, files := ← readFiles home c.inputs, directories := outputs }
  | _ => return {}

def main (words : List String) : IO UInt32 := do
  let invocation := Invocation.ofWords (words.map .ofString)
  let workspace ← workspaceOf invocation
  match run (← settingVariables) workspace invocation with
  | .error f =>
    IO.eprintln f.message.visible
    return 1
  | .ok o =>
    if let some file := o.written then IO.FS.writeFile file.path.visible file.text
    IO.print o.printed.visible
    for m in o.messages do
      let line : Text := "cli - " ++ m.urgency.name ++ " - " ++ m.text
      IO.eprintln line.visible
    if let .misuse name := invocation then
      IO.eprintln ("The words after " ++ name ++ " do not fit it" : Text).visible
    return o.exitCode.toUInt32
