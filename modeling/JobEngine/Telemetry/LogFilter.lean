-- SUMMARY: Log filters: directives that give targets and spans their levels, and their text.
import JobEngine.Telemetry.Settings
import JobEngine.Text.Digits
import JobEngine.Text.Word

/-!
# Log filters

A log filter is a set of directives. A directive gives the records of a target (a module path), or
inside a span, the most detailed level that is still logged; one without either gives the general
level. At most one directive stands for each target and span: a later one replaces an earlier one.
`LogFilter.text` lists the more specific directives first.
-/

namespace JobEngine

/-- How much is logged, from nothing to everything. -/
inductive LogLevel where
  | off
  | error
  | warn
  | info
  | debug
  | trace
deriving DecidableEq, Repr

namespace LogLevel

def all : List LogLevel := [.off, .error, .warn, .info, .debug, .trace]

def name : LogLevel → String
  | .off => "off"
  | .error => "error"
  | .warn => "warn"
  | .info => "info"
  | .debug => "debug"
  | .trace => "trace"

/-- The level of a name in any case, or of its number. -/
def parse? (s : String) : Option LogLevel :=
  match naturalOf? s.toList with
  | some n => all[n]?
  | none => all.find? (·.name = s.toLower)

/-- The level of a name in any case, or of a number of one digit. -/
def parseExact? (s : String) : Option LogLevel :=
  if s.length = 1 || (naturalOf? s.toList).isNone then parse? s else none

end LogLevel

/-- What is logged of a target and a span. -/
structure LogDirective where
  target : Option String := none
  span : Option String := none
  level : LogLevel
deriving DecidableEq

namespace LogDirective

/-! ## Reading -/

def isTargetChar (c : Char) : Bool := isWordChar c || c = ':' || c = '-'

/-- What stands before the level: a target, a span in brackets, or both; of two spans the later one
counts. Conditions on the fields of a span, which stand in braces, are refused. -/
def readScope : Nat → LogDirective → List Char → Option (LogDirective × List Char)
  | 0, d, cs => some (d, cs)
  | parts + 1, d, cs =>
    match cs with
    | '[' :: rest =>
      match rest.dropWhile (· ≠ ']') with
      | ']' :: after =>
        let name := (rest.takeWhile (· ≠ ']')).dropWhile (· = '[')
        if name.contains '\x7b' then none
        else
          let span := if name.isEmpty then none else some (String.ofList name)
          readScope parts { d with span } after
      | _ => none
    | _ =>
      let target := cs.takeWhile isTargetChar
      if target.isEmpty then some (d, cs)
      else
        let d := { d with target := some (String.ofList target) }
        readScope parts d (cs.dropWhile isTargetChar)

/-- The directive of a text: a level alone, or a target with a level behind `=`. Without a level
everything is logged, and a target that reads as a level is none. -/
def parse? (s : String) : Option LogDirective :=
  match LogLevel.parseExact? s with
  | some level => some { level }
  | none => do
    let cs := s.toList
    let (d, rest) ← readScope 2 { level := .trace } cs
    if rest.length = cs.length then none
    let d := { d with target := d.target.filter fun t => (LogLevel.parse? t).isNone }
    match rest with
    | [] | ['='] => return d
    | '=' :: level => return { d with level := ← LogLevel.parseExact? (String.ofList level) }
    | _ => none

/-! ## Order and text -/

/-- Whether a directive comes before another: one with the longer target, then one with a span, then
one whose target or span comes later in the alphabet. -/
def precedes (a b : LogDirective) : Bool :=
  let size (d : LogDirective) : Nat := (d.target.map (·.utf8ByteSize + 1)).getD 0
  let key (d : LogDirective) : String × String := (d.target.getD "", d.span.getD "")
  if size a ≠ size b then size b < size a
  else if a.span.isSome ≠ b.span.isSome then a.span.isSome
  else if (key a).1 ≠ (key b).1 then (key b).1 < (key a).1
  else (key b).2 < (key a).2

/-- Whether two directives are about the same records. -/
def sameScope (a b : LogDirective) : Bool := a.target = b.target && a.span = b.span

def text (d : LogDirective) : String :=
  let scope := d.target.getD "" ++ (d.span.map fun s => "[" ++ s ++ "]").getD ""
  if scope.isEmpty then d.level.name else scope ++ "=" ++ d.level.name

end LogDirective

/-- Directives, no two about the same records. -/
structure LogFilter where
  directives : List LogDirective

namespace LogFilter

/-- Put a directive in its place in a list in order. -/
def place (d : LogDirective) : List LogDirective → List LogDirective
  | [] => [d]
  | e :: rest =>
    if d.sameScope e then d :: rest
    else if d.precedes e then d :: e :: rest
    else e :: place d rest

def add (f : LogFilter) (d : LogDirective) : LogFilter := ⟨place d f.directives⟩

/-- The filter of directives between commas. Without any, only errors are logged. -/
def parse? (s : String) : Option LogFilter := do
  let parts := (s.splitOn ",").filter fun p => !p.isEmpty
  let directives ← parts.mapM LogDirective.parse?
  return (if directives.isEmpty then [{ level := .error }] else directives).foldl add ⟨[]⟩

/-- All directives between commas, those about spans last. -/
def text (f : LogFilter) : String :=
  let (outside, inside) := f.directives.partition (·.span.isNone)
  ",".intercalate ((outside ++ inside).map LogDirective.text)

end LogFilter

/-- The filter of logging settings: the general level, then the levels of modules. -/
def LoggingConfig.filter? (c : LoggingConfig) : Option LogFilter := do
  let modules ← c.moduleLevels.entries.mapM fun e => LogDirective.parse? (e.1 ++ "=" ++ e.2)
  return modules.foldl LogFilter.add (← LogFilter.parse? c.level)

end JobEngine
