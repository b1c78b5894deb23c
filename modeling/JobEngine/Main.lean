-- SUMMARY: The program: reads its surroundings, answers, and ends with the exit code of the answer.
import JobEngine.CommandLine.Report
import Std.Time.DateTime.Timestamp

/-!
# The program

The outer layer of the command line: everything that it decides is in `CommandLine.run`.
-/

open JobEngine

/-- The content of a file, if it can be read. -/
def contentOf (path : String) : IO (Option String) := do
  try return some (← IO.FS.readFile path)
  catch _ => return none

/-- The variables of the process. -/
def environment : IO (Table String String) := do
  let text := (← contentOf "/proc/self/environ").getD ""
  let entry (s : String) : String × String :=
    match s.splitOn "=" with
    | name :: rest => (name, "=".intercalate rest)
    | [] => (s, "")
  return .ofList (((text.splitOn "\x00").filter (!·.isEmpty)).map entry)

/-- The files that a run may look at, with their contents. -/
def filesOf (paths : List String) : IO (Table String String) := do
  let mut files : Table String String := ∅
  for path in paths do
    if let some content ← contentOf path then files := files.insert path content
  return files

def main (args : List String) : IO UInt32 := do
  let env ← environment
  let now := Instant.ofNanos (← Std.Time.Timestamp.now).toNanosecondsSinceUnixEpoch.val
  let settings ← filesOf [CommandLine.variablesFile]
  let paths := CommandLine.pathsOf { env, fileText := settings.get?, now } args
  let files ← filesOf (CommandLine.variablesFile :: paths)
  let report := CommandLine.run { env, fileText := files.get?, now } args
  IO.print report.output
  IO.eprint report.errors
  return report.code.toUInt32
