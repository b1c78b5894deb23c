-- SUMMARY: What the program answers: its output, its errors, and its exit code.
import JobEngine.CommandLine.Arguments
import JobEngine.Config.Dotenv
import JobEngine.Config.Load
import JobEngine.Cron.Schedule
import JobEngine.Json.Printer
import JobEngine.Text.Grid
import JobEngine.Time.Calendar

/-!
# Answers of the program

`CommandLine.run` is the whole program as a function of its surroundings: the environment, the files
and the time. Wrong usage ends with code 2, any other failure with code 1 and its reason.
-/

namespace JobEngine.CommandLine

/-- What the program finds around it. -/
structure Surroundings where
  env : Table String String
  fileText : String → Option String
  now : Instant

/-- What the program answers. -/
structure Report where
  code : Nat := 0
  output : String := ""
  errors : String := ""
deriving DecidableEq

def Report.success (text : String) : Report := { output := text ++ "\n" }
def Report.failure (code : Nat) (text : String) : Report := { code, errors := text ++ "\n" }

/-- The version of the program. -/
def versionNumber : String := "0.1.0"

/-- How the program is used. -/
def usage : String :=
  "Usage: taskmill [--config <file>] config\n" ++
    "       taskmill [--config <file>] cron <expression> [--count <number>] [--after <time>]"

/-! ## Settings -/

/-- The effective settings, or the text that says why there are none. -/
def effectiveConfig (s : Surroundings) (file : Option String) : Except String EngineConfig :=
  let (source, loaded) := match file with
    | some path => (path, EngineConfig.loadFrom s.fileText path s.env)
    | none => ("the environment", EngineConfig.load s.env)
  match loaded with
  | .error e =>
    .error ("Could not load config from " ++ source ++ "\n\nCaused by:\n    " ++ e.message)
  | .ok c =>
    match c.validate with
    | .ok () => .ok c
    | .error e => .error e.message

/-! ## Fire times -/

/-- How far a time lies ahead, in whole seconds. -/
def distance (now t : Instant) : String :=
  if t < now then "past" else (Duration.ofSecs ((t.nanos - now.nanos).toNat / 1000000000)).toText

/-- The fire times of an expression as a grid. -/
def fireTimes (now : Instant) (times : List Instant) : String :=
  Grid.text [⟨"#", true⟩, ⟨"Fires At (UTC)", false⟩, ⟨"In", false⟩]
    (times.mapIdx fun i t => [toString (i + 1), t.civilText " ", distance now t])

/-! ## The program -/

/-- The variable that names the configuration file unless an option does. -/
def fileVariable : String := "TASKMILL_CONFIG"

/-- The file whose variables are added to the environment. -/
def variablesFile : String := ".env"

/-- Do what is asked. -/
def perform (s : Surroundings) (i : Invocation) : Report :=
  match i.request with
  | .help => .success usage
  | .version name => .success (name ++ " " ++ versionNumber)
  | .config =>
    match effectiveConfig s i.file with
    | .ok c => .success c.toJson.pretty
    | .error text => .failure 1 ("Error: " ++ text)
  | .cron expression count after =>
    match Cron.upcoming expression (after.getD s.now) count with
    | .ok times => .success (fireTimes s.now times)
    | .error e => .failure 1 ("error: " ++ (e.toError expression).message)

/-- The surroundings with the variables that a file adds to the environment. -/
def Surroundings.complete (s : Surroundings) : Surroundings :=
  { s with env := ((s.fileText variablesFile).map (Dotenv.extend s.env)).getD s.env }

/-- What is asked, and the configuration file to use. -/
def invocation (s : Surroundings) (args : List String) : Except UsageError Invocation := do
  let i ← read none args
  match i.request, i.file.or (s.complete.env.get? fileVariable) with
  | .help, file | .version _, file => return { i with file }
  | _, some "" => .error (.valueInvalid "config" "")
  | _, file => return { i with file }

/-- The files that a run may read besides the one with variables. -/
def pathsOf (s : Surroundings) (args : List String) : List String :=
  match invocation s args with
  | .ok { file := some path, .. } => FoundFile.candidates path
  | _ => []

/-- Run the program with some arguments. -/
def run (s : Surroundings) (args : List String) : Report :=
  match invocation s args with
  | .error e => .failure 2 ("error: " ++ e.message ++ "\n\n" ++ usage)
  | .ok i => perform s.complete i

end JobEngine.CommandLine
