-- SUMMARY: The arguments of the program: options, commands, and what is wrong with them.
import JobEngine.Text.Digits
import JobEngine.Time.Rfc3339

/-!
# Arguments

The program is called with a command and options. An option has a name of one letter, a longer one,
or both, and a value in the same argument or in the next one. The option `--config` may stand before
the command or after it, where it counts.
-/

namespace JobEngine.CommandLine

/-! ## Tokens -/

/-- An option that has a value. -/
structure OptionName where
  short : Option Char
  long : String
deriving DecidableEq

/-- What is wrong with the arguments. -/
inductive UsageError where
  | noCommand
  | unexpected (argument : String)
  | valueMissing (option : String)
  | valueInvalid (option value : String)
  | repeated (option : String)
  | expressionMissing
deriving DecidableEq, Repr

def UsageError.message : UsageError → String
  | .noCommand => "a command is required: config or cron"
  | .unexpected a => "unexpected argument '" ++ a ++ "'"
  | .valueMissing o => "a value is required for '--" ++ o ++ "'"
  | .valueInvalid o v => "invalid value '" ++ v ++ "' for '--" ++ o ++ "'"
  | .repeated o => "'--" ++ o ++ "' cannot be used more than once"
  | .expressionMissing => "an expression is required"

/-- A unit of the arguments. -/
inductive Token where
  | help
  | version
  | option (name value : String)
  | word (s : String)
deriving DecidableEq, Repr

/-- An argument that may be the value of the option before it. -/
def isValue (s : String) : Bool := !s.startsWith "-" || s = "-"

/-- An option whose value is in the same argument, or that has none yet. -/
inductive Opening where
  | complete (t : Token)
  | needsValue (option : String)
  | bad (e : UsageError)

/-- What an argument that starts with a dash begins. -/
def opening (known : List OptionName) (arg : String) : Opening :=
  match arg.toList with
  | '-' :: '-' :: body =>
    let name := String.ofList (body.takeWhile (· ≠ '='))
    if name = "help" then .complete .help
    else if name = "version" then .complete .version
    else
      match known.find? (·.long = name), body.dropWhile (· ≠ '=') with
      | none, _ => .bad (.unexpected arg)
      | some o, '=' :: value => .complete (.option o.long (String.ofList value))
      | some o, _ => .needsValue o.long
  | '-' :: 'h' :: _ => .complete .help
  | '-' :: 'V' :: _ => .complete .version
  | '-' :: c :: body =>
    match known.find? (·.short = some c), body with
    | none, _ => .bad (.unexpected arg)
    | some o, [] => .needsValue o.long
    | some o, '=' :: value => .complete (.option o.long (String.ofList value))
    | some o, value => .complete (.option o.long (String.ofList value))
  | _ => .bad (.unexpected arg)

/-- The tokens of some arguments, all of which belong to one command. -/
def tokens (known : List OptionName) : List String → Except UsageError (List Token)
  | [] => .ok []
  | "--" :: rest => .ok (rest.map .word)
  | arg :: rest =>
    if isValue arg then (tokens known rest).map (.word arg :: ·)
    else
      match opening known arg with
      | .bad e => .error e
      | .complete .help => .ok [.help]
      | .complete .version => .ok [.version]
      | .complete t => (tokens known rest).map (t :: ·)
      | .needsValue o =>
        match rest with
        | v :: rest =>
          if isValue v then (tokens known rest).map (.option o v :: ·)
          else .error (.valueMissing o)
        | [] => .error (.valueMissing o)

/-! ## Commands -/

/-- What the program is asked to do. -/
inductive Request where
  | help
  /-- Say the version of the program or of a command. -/
  | version (name : String)
  /-- Show the effective settings. -/
  | config
  /-- Show when a cron expression fires next. -/
  | cron (expression : String) (count : Nat) (after : Option Instant)
deriving DecidableEq

/-- A command, and the configuration file that it works with. -/
structure Invocation where
  request : Request
  file : Option String
deriving DecidableEq

/-- The options that every command has. -/
def globalOptions : List OptionName := [⟨some 'c', "config"⟩]

def cronOptions : List OptionName := [⟨some 'n', "count"⟩, ⟨none, "after"⟩]

/-- The value of an option that is given at most once. -/
def valueOf (option : String) (ts : List Token) : Except UsageError (Option String) :=
  match ts.filterMap (fun t => match t with
    | .option name v => if name = option then some v else none
    | _ => none) with
  | [] => .ok none
  | [v] => .ok (some v)
  | _ => .error (.repeated option)

/-- The value of an option, read by `read`. -/
def readOption {α : Type} (option : String) (read : String → Option α) (ts : List Token) :
    Except UsageError (Option α) := do
  match ← valueOf option ts with
  | none => return none
  | some v =>
    match read v with
    | some a => return some a
    | none => .error (.valueInvalid option v)

/-- A path; it must not be empty. -/
def path? (s : String) : Option String := if s.isEmpty then none else some s

/-- A number of rows. -/
def count? (s : String) : Option Nat := (naturalOf? s.toList).filter (· < UInt64.size)

/-- The words among tokens. -/
def words (ts : List Token) : List String :=
  ts.filterMap fun t => match t with
    | .word s => some s
    | _ => none

/-- The command that tokens after its name ask for. -/
def commandOf (name : String) (ts : List Token) : Except UsageError Request := do
  let count ← readOption "count" count? ts
  let after ← readOption "after" Instant.parse? ts
  if .help ∈ ts then return .help
  if .version ∈ ts then return .version ("taskmill-" ++ name)
  match name, words ts with
  | "config", [] => return .config
  | "cron", [expression] => return .cron expression (count.getD 5) after
  | "cron", [] => .error .expressionMissing
  | _, extra => .error (.unexpected (extra.getLast?.getD ""))

/-- Read the arguments after the name of the command. -/
def readCommand (outer : Option String) (name : String) (args : List String) :
    Except UsageError Invocation := do
  let ts ← tokens (if name = "cron" then cronOptions ++ globalOptions else globalOptions) args
  let file ← readOption "config" path? ts
  return ⟨← commandOf name ts, file.or outer⟩

/-- The names of the commands. -/
def commandNames : List String := ["config", "cron"]

/-- Name the configuration file before the command. -/
def nameFile (seen : Option String) (file : String) : Except UsageError String :=
  if seen.isSome then .error (.repeated "config")
  else if file.isEmpty then .error (.valueInvalid "config" file)
  else .ok file

/-- Read arguments; `seen` is the configuration file that was named so far. -/
def read (seen : Option String) : List String → Except UsageError Invocation
  | [] => .error .noCommand
  | arg :: rest =>
    if isValue arg then
      if arg ∈ commandNames then readCommand seen arg rest
      else if arg = "help" then .ok ⟨.help, seen⟩
      else .error (.unexpected arg)
    else
      match opening globalOptions arg with
      | .complete .help => .ok ⟨.help, seen⟩
      | .complete .version => .ok ⟨.version "taskmill", seen⟩
      | .complete (.word _) => .error (.unexpected arg)
      | .bad e => .error e
      | .complete (.option _ v) => do
        let file ← nameFile seen v
        read (some file) rest
      | .needsValue o =>
        match rest with
        | v :: rest =>
          if isValue v then do
            let file ← nameFile seen v
            read (some file) rest
          else .error (.valueMissing o)
        | [] => .error (.valueMissing o)

end JobEngine.CommandLine
